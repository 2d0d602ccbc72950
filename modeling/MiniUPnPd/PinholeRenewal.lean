import MiniUPnPd.Netfilter.Iptpinhole
import MiniUPnPd.NetfilterNft.NftEval
import MiniUPnPd.NetfilterNft.NftpinholeSpec
import MiniUPnPd.Pf.Pfpinhole
import MiniUPnPd.PinholeRequests

/-!
A pinhole that is asked for again is to be found under its uid. Each backend has requests for
which the lookup and the addition, or the addition and the request, disagree.
-/
namespace PinholeRenewal
open FirstMatch Inet PinholeRequests
open PcpServer (In6Addr)

theorem masked_all (x a : In6Addr) : (x ^^^ a) &&& BitVec.allOnes 128 = 0 ↔ x = a := by
  rw [BitVec.and_allOnes]
  exact BitVec.xor_eq_zero_iff

/-- The search comes to the new entry, unless it meets one before that is taken for it. -/
theorem first_uid {α : Type*} {hit : α → Bool} {front back : List α} {new : α} {uid : α → Int}
    (found : hit new = true) :
    ((front ++ new :: back).find? hit).map uid = some (uid new) ↔
      ∀ a ∈ front.find? hit, uid a = uid new := by
  rw [List.find?_append, List.find?_cons_of_pos found]
  cases front.find? hit with
  | none => simp
  | some a => simp

section ip6tables
open Iptpinhole

def Ip6tAccepts (e : Ip6tEntry) (packet : Packet6) : Prop :=
  packet.proto = e.proto ∧ (packet.saddr ^^^ e.src) &&& e.smsk = 0 ∧
    (e.spts.1 ≤ packet.sport ∧ packet.sport ≤ e.spts.2) ∧ packet.daddr = e.dst ∧
    e.dpts.1 ≤ packet.dport ∧ packet.dport ≤ e.dpts.2

def addIp6 (ifname : Option CString) (req : PinholeRequest) (fw : Firewall) :
    Option (Int × Firewall) :=
  Iptpinhole.addPinhole inetPton6 ifname req.remHost req.remPort req.intClient req.intPort
    req.proto req.desc req.timestamp.toNat fw

def addAllIp6 (ifname : Option CString) (reqs : List PinholeRequest) (fw : Firewall) :
    Option Firewall :=
  reqs.foldlM (fun fw req => (addIp6 ifname req fw).map (·.2)) fw

def findIp6 (stack : In6Addr × In6Addr) (req : PinholeRequest) (fw : Firewall) : Option UInt16 :=
  Iptpinhole.findPinhole inetPton6 stack req.remHost req.remPort req.intClient req.intPort
    req.proto fw

def listed (p : PinholeT) : UInt8 × In6Addr × UInt16 × In6Addr × UInt16 :=
  (p.proto, p.saddr, p.sport, p.daddr, p.dport)

section request
variable {req : PinholeRequest} {o : Opening} (meant : req.meant = some o)
include meant

theorem remoteAddr_meant : remoteAddr inetPton6 req.remHost = o.source.getD 0 := by
  rcases source_cases meant with ⟨any, host | host | host⟩ | ⟨c, s, a, host, _, read, given⟩
  · simp [remoteAddr, host, any]
  · simp [remoteAddr, host, any]
  · rw [any, host]
    decide
  · simp [remoteAddr, host, read, given]

theorem soughtAddr_meant (stack : In6Addr) (plain : req.remHost ≠ some ['*']) :
    soughtAddr inetPton6 stack req.remHost = o.source.getD 0 := by
  rcases source_cases meant with ⟨any, host | host | host⟩ | ⟨c, s, a, host, _, read, given⟩
  · simp [soughtAddr, host, any]
  · simp [soughtAddr, host, any]
  · exact absurd host plain
  · simp [soughtAddr, host, read, given]

/-- The mask is for a single address when a star is given. -/
theorem source_masked (x : In6Addr) :
    (x ^^^ remoteAddr inetPton6 req.remHost) &&& remoteMask req.remHost = 0 ↔
      if req.remHost = some ['*'] then x = 0 else ∀ a ∈ o.source, x = a := by
  rw [remoteAddr_meant meant]
  rcases source_cases meant with ⟨any, host | host | host⟩ | ⟨c, s, a, host, star, _, given⟩
  · simp [remoteMask, host, any]
  · simp [remoteMask, host, any]
  · rw [host, any, if_pos rfl]
    exact masked_all x 0
  · rw [host, given, if_neg (by simp [star])]
    simpa [remoteMask] using masked_all x a

end request

theorem inRange_iff (port sport : UInt16) :
    (sourceRange port).1 ≤ sport ∧ sport ≤ (sourceRange port).2 ↔ (port ≠ 0 → sport = port) := by
  unfold sourceRange
  split
  · rename_i any
    have small := sport.toNat_lt
    simp only [any, ne_eq, not_true_eq_false, false_implies, iff_true, UInt16.le_iff_toNat_le]
    exact ⟨Nat.zero_le _, by simpa using Nat.le_pred_of_lt small⟩
  · rename_i one
    simp only [ne_eq, one, not_false_eq_true, true_implies, UInt16.le_iff_toNat_le,
      ← UInt16.toNat_inj]
    omega

/-- With libip6tc calls succeeding, the rule goes to the end of the chain and the pinhole to the
    head of the list. -/
theorem addIp6_some {ifname : Option CString} {req : PinholeRequest} {o : Opening}
    (meant : req.meant = some o) {fw fw' : Firewall} {r : Int} (quiet : fw.ip6tcResults = [])
    (added : addIp6 ifname req fw = some (r, fw')) :
    fw'.ip6tcResults = [] ∧
      (∃ e, fw'.chain = fw.chain ++ [e] ∧ ∀ packet, Ip6tAccepts e packet ↔
        packet.proto = o.proto ∧
          (if req.remHost = some ['*'] then packet.saddr = 0 else ∀ a ∈ o.source, packet.saddr = a) ∧
          (o.rport ≠ 0 → packet.sport = o.rport) ∧ packet.daddr = o.client ∧
          packet.dport = o.iport) ∧
      ∃ p, fw'.pinholeList = p :: fw.pinholeList ∧ listed p = o.sought ∧ r = p.uid.toNat := by
  obtain ⟨_, client, proto, rport, iport⟩ := meant_fields meant
  have called : fw.called 4 = (true, fw) := by
    rw [Firewall.called, quiet, ip6tcCalls]
    simp [← quiet]
  unfold addIp6 Iptpinhole.addPinhole at added
  rw [called, client] at added
  obtain ⟨⟨uid, next⟩, done, same⟩ := Option.map_eq_some_iff.mp added
  obtain ⟨rfl, rfl⟩ := Prod.mk.inj same
  have list := addToPinholeList_some done
  have chain := addToPinholeList_chain done
  refine ⟨?_, ⟨_, chain, ?_⟩, _, list, ?_, rfl⟩
  · unfold addToPinholeList at done
    split at done
    · simp at done
    · obtain ⟨_, rfl⟩ := Prod.mk.inj (Option.some.inj done)
      exact quiet
  · intro packet
    unfold Ip6tAccepts
    dsimp only
    rw [source_masked meant, inRange_iff, proto, rport, iport]
    simp only [Option.getD_some, UInt16.le_iff_toNat_le, ← UInt16.toNat_inj]
    refine and_congr_right fun _ => and_congr_right fun _ => and_congr_right fun _ =>
      and_congr_right fun _ => ?_
    omega
  · rw [listed, Opening.sought, remoteAddr_meant meant, proto, rport, iport]
    rfl

/-- The pinholes that are added go in front of those in the list. -/
theorem addAllIp6_some {ifname : Option CString} {reqs : List PinholeRequest}
    (all : ∀ q ∈ reqs, q.meant.isSome) {fw fw' : Firewall} (quiet : fw.ip6tcResults = [])
    (added : addAllIp6 ifname reqs fw = some fw') :
    ∃ front, fw'.pinholeList = front ++ fw.pinholeList ∧
      ∀ k, (∃ p ∈ front, listed p = k) ↔ ∃ q ∈ reqs, ∃ o ∈ q.meant, o.sought = k := by
  induction reqs generalizing fw with
  | nil =>
    obtain rfl := Option.some.inj added
    exact ⟨[], by simp⟩
  | cons q reqs ih =>
    simp only [List.mem_cons, forall_eq_or_imp] at all
    obtain ⟨o, meant⟩ := Option.isSome_iff_exists.mp all.1
    unfold addAllIp6 at added
    rw [List.foldlM_cons] at added
    obtain ⟨next, one, rest⟩ := Option.bind_eq_some_iff.mp added
    obtain ⟨⟨r, fw1⟩, first, rfl⟩ := Option.map_eq_some_iff.mp one
    obtain ⟨still, _, p, list, same, _⟩ := addIp6_some meant quiet first
    obtain ⟨front, lists, keys⟩ := ih all.2 still rest
    refine ⟨front ++ [p], by rw [lists, list]; simp, ?_⟩
    intro k
    simp only [List.mem_append, or_and_right, exists_or, exists_eq_left, keys, List.mem_cons,
      List.not_mem_nil, or_false, same, meant, Option.mem_some_iff, exists_eq_left']
    exact or_comm

/-- The rule that is added is as asked for, and the lookup returns the uid that the addition has
    returned, whatever its buffers held. -/
def RightIp6 (o : Opening) (req : PinholeRequest) (fw fw1 fw2 : Firewall) (r : Int) : Prop :=
  (∃ e, fw1.chain = fw.chain ++ [e] ∧ ∀ packet, Ip6tAccepts e packet ↔ o.Admits packet) ∧
    ∀ stack, (findIp6 stack req fw2).map (fun uid => (uid.toNat : Int)) = some r

theorem ip6tables_renewal_iff {ifname : Option CString} {req : PinholeRequest} {o : Opening}
    (meant : req.meant = some o) {between : List PinholeRequest}
    (all : ∀ q ∈ between, q.meant.isSome) {fw fw1 fw2 : Firewall} {r : Int}
    (quiet : fw.ip6tcResults = []) (added : addIp6 ifname req fw = some (r, fw1))
    (later : addAllIp6 ifname between fw1 = some fw2) :
    RightIp6 o req fw fw1 fw2 r ↔
      req.remHost ≠ some ['*'] ∧ ∀ q ∈ between, ∀ o' ∈ q.meant, o'.sought ≠ o.sought := by
  obtain ⟨still, ⟨e, chain, accepts⟩, p, list, same, rfl⟩ := addIp6_some meant quiet added
  obtain ⟨front, lists, keys⟩ := addAllIp6_some all still later
  rw [list] at lists
  by_cases star : req.remHost = some ['*']
  · refine iff_of_false ?_ (fun both => both.1 star)
    rintro ⟨⟨e', chain', exact'⟩, _⟩
    rw [chain, List.append_cancel_left_eq, List.singleton_inj] at chain'
    subst chain'
    have any : o.source = none := by
      rcases source_cases meant with ⟨any, _⟩ | ⟨c, s, a, host, notStar, _⟩
      · exact any
      · rw [star] at host
        obtain ⟨rfl, _⟩ := List.cons.inj (Option.some.inj host)
        exact absurd rfl notStar
    let packet : Packet6 :=
      { proto := o.proto, saddr := 1, sport := o.rport, daddr := o.client, dport := o.iport }
    have asked : o.Admits packet := ⟨rfl, by simp [any], fun _ => rfl, rfl, rfl⟩
    have dropped := ((accepts packet).mp ((exact' packet).mpr asked)).2.1
    rw [if_pos star] at dropped
    have other : (1 : In6Addr) ≠ 0 := by decide
    exact absurd dropped other
  · have rule : ∃ e, fw1.chain = fw.chain ++ [e] ∧
        ∀ packet, Ip6tAccepts e packet ↔ o.Admits packet := by
      refine ⟨e, chain, ?_⟩
      intro packet
      rw [accepts, if_neg star, Opening.Admits]
    have test : ∀ stack : In6Addr × In6Addr, ∀ q, Iptpinhole.pinholeMatches
        (soughtAddr inetPton6 stack.1 req.remHost) req.remPort
        ((inetPton6 req.intClient).getD stack.2) req.intPort req.proto q =
          decide (listed q = o.sought) := by
      intro stack q
      obtain ⟨_, client, proto, rport, iport⟩ := meant_fields meant
      rw [soughtAddr_meant meant _ star, client, proto, rport, iport]
      simp only [Iptpinhole.pinholeMatches, listed, Opening.sought, Prod.mk.injEq,
        Option.getD_some, decide_eq_decide]
      constructor
      · rintro ⟨one, two, three, four, five⟩
        exact ⟨one.symm, three.symm, two.symm, five.symm, four.symm⟩
      · rintro ⟨one, two, three, four, five⟩
        exact ⟨one.symm, three.symm, two.symm, five.symm, four.symm⟩
    have other : ∀ a ∈ front, a.uid ≠ p.uid := by
      have distinct := fw2.distinct
      rw [lists, List.map_append, List.nodup_append] at distinct
      intro a member
      exact distinct.2.2 a.uid (List.mem_map_of_mem member) p.uid (by simp)
    have lookup : ∀ stack, (findIp6 stack req fw2).map (fun uid => (uid.toNat : Int)) =
        some (p.uid.toNat : Int) ↔ ∀ a ∈ front, listed a ≠ o.sought := by
      intro stack
      have search := @first_uid _ (fun q => decide (listed q = o.sought)) front fw.pinholeList p
        (fun a => (a.uid.toNat : Int)) (by simp [same])
      unfold findIp6 findPinhole
      rw [Option.map_map, lists, funext (test stack), Function.comp_def, search]
      constructor
      · intro first a member
        cases hit : front.find? fun q => decide (listed q = o.sought) with
        | none => simpa using List.find?_eq_none.mp hit a member
        | some b =>
          have same := first b hit
          have number : b.uid = p.uid := UInt16.toNat_inj.mp (Int.ofNat_inj.mp same)
          exact absurd number (other b (List.mem_of_find?_eq_some hit))
      · intro none_same b hit
        have key := List.find?_some hit
        exact absurd (of_decide_eq_true key) (none_same b (List.mem_of_find?_eq_some hit))
    have openings : (∀ a ∈ front, listed a ≠ o.sought) ↔
        ∀ q ∈ between, ∀ o' ∈ q.meant, o'.sought ≠ o.sought := by
      have key := keys o.sought
      rw [← not_iff_not]
      push Not
      exact key
    simp only [RightIp6, rule, true_and, lookup, forall_const, star, ne_eq, not_false_eq_true]
    exact openings

end ip6tables

section nftables
open NetBytes NftEval NftnlrdrMisc NftnlrdrMiscSpec Nftnlrdr Nftpinhole NftpinholeSpec PinholeLabel

/-- The expressions are those of a rule of a mapping or of a pinhole. -/
def Sent (exprs : List NftnlExpr) : Prop :=
  (∃ ifIdx proto rhost iaddr iport rport,
      exprs = ruleSetFilter ifIdx proto rhost iaddr iport rport) ∨
    ∃ ifIdx proto rhost6 iaddr6 iport rport,
      exprs = ruleSetFilter6 ifIdx proto rhost6 iaddr6 iport rport

/-- The packet in the form that it has for the kernel. -/
def Carries (raw : RawPacket) (packet : Packet6) : Prop :=
  slice raw.network 6 1 = bytesOf 1 packet.proto.toNat ∧
    slice raw.network 8 16 = bytesOf 16 packet.saddr.toNat ∧
    slice raw.network 24 16 = bytesOf 16 packet.daddr.toNat ∧
    slice raw.transport 0 2 = bytesOf 2 packet.sport.toNat ∧
    slice raw.transport 2 2 = bytesOf 2 packet.dport.toNat

def addNft (stack : In6Addr × In6Addr) (ifIdx : Option Nat) (req : PinholeRequest)
    (s : Pinholes) : Int × Pinholes :=
  Nftpinhole.addPinhole stack ifIdx req.remHost req.remPort req.intClient req.intPort req.proto
    req.desc req.timestamp.toNat s

def addAllNft (stack : In6Addr × In6Addr) (ifIdx : Option Nat) (reqs : List PinholeRequest)
    (s : Pinholes) : Pinholes :=
  reqs.foldl (fun s req => (addNft stack ifIdx req s).2) s

def findNft (stack : In6Addr × In6Addr) (req : PinholeRequest) (s : Pinholes) :
    Option FoundPinhole :=
  Nftpinhole.findPinhole stack req.remHost req.remPort req.intClient req.intPort req.proto s

/-- Requests with the uids that they are given. -/
def numbered : (nextUid : Nat) → List PinholeRequest → List (Nat × PinholeRequest)
  | _, [] => []
  | uid, q :: reqs => (uid, q) :: numbered (Nftpinhole.succUid uid) reqs

/-- What the decoder leaves of a request: the remote port is lost. -/
def served (o : Opening) : UInt8 × In6Addr × In6Addr × UInt16 :=
  (o.proto, o.source.getD 0, o.client, o.iport)

/-- A rule as the lookup sees it: uid, protocol, source, source port, client, port. -/
abbrev Shown := Option Int × UInt8 × In6Addr × UInt16 × In6Addr × UInt16

def shownOf (p : RuleT) : Shown :=
  ((scanLabel p.desc).map (·.1), p.proto, p.rhost6, p.rport, p.iaddr6, p.eport)

def shownAs (uid : Nat) (o : Opening) : Shown :=
  (some (uid : Int), o.proto, o.source.getD 0, 0, o.client, o.iport)

theorem bytesOf_inj {length m n : Nat} (smallM : m < 256 ^ length) (smallN : n < 256 ^ length) :
    bytesOf length m = bytesOf length n ↔ m = n := by
  constructor
  · intro same
    rw [← valueOf_bytesOf smallM, same, valueOf_bytesOf smallN]
  · exact congrArg _

theorem addrBytes_inj (a b : In6Addr) : bytesOf 16 a.toNat = bytesOf 16 b.toNat ↔ a = b := by
  rw [bytesOf_inj a.isLt b.isLt]
  exact BitVec.toNat_inj

theorem portBytes_inj (p q : UInt16) : bytesOf 2 p.toNat = bytesOf 2 q.toNat ↔ p = q := by
  rw [bytesOf_inj p.toNat_lt q.toNat_lt]
  exact UInt16.toNat_inj

/-- The kernel accepts the packets that the request asks for. -/
theorem opening_accepted {o : Opening} (ported : Ported o.proto) {ifIdx : Option Nat}
    {raw : RawPacket} (here : ∀ idx ∈ ifIdx, raw.iif = idx) {packet : Packet6}
    (carries : Carries raw packet) (regs : Registers) :
    eval raw (ruleSetFilter6 ifIdx o.proto o.source o.client o.iport o.rport) regs =
      some NF_ACCEPT ↔ o.Admits packet := by
  obtain ⟨proto, saddr, daddr, sport, dport⟩ := carries
  rw [eval_filter6 ported, proto, saddr, daddr, sport, dport]
  simp only [addrBytes_inj, portBytes_inj]
  rw [bytesOf_inj packet.proto.toNat_lt o.proto.toNat_lt, UInt8.toNat_inj, Opening.Admits]
  constructor
  · rintro ⟨_, two, three, four, five, six⟩
    exact ⟨six, five, three, four, two⟩
  · rintro ⟨six, five, three, four, two⟩
    exact ⟨fun idx given => by rw [here idx given], two, three, four, five, six⟩

theorem remoteGiven_meant {req : PinholeRequest} {o : Opening} (meant : req.meant = some o)
    (x : In6Addr) : (remoteGiven req.remHost).map (fun text => (inetPton6 text).getD x) = o.source := by
  rcases source_cases meant with ⟨any, host | host | host⟩ | ⟨c, s, a, host, star, read, given⟩
  · simp [remoteGiven, host, any]
  · simp [remoteGiven, host, any]
  · simp [remoteGiven, host, any]
  · simp [remoteGiven, host, star, read, given]

/-- Nothing of a rule that the daemon has built is read as a remote port. -/
theorem rport_sent {exprs : List NftnlExpr} (sent : Sent exprs) (handle : Nat)
    (userdata : CString) : (tableCb .RULE_FILTER { handle, userdata, exprs }).rport = 0 := by
  rcases sent with ⟨ifIdx, proto, rhost, iaddr, iport, rport, rfl⟩ |
    ⟨ifIdx, proto, rhost6, iaddr6, iport, rport, rfl⟩
  · have read := tableCb_filter handle userdata ifIdx proto rhost iaddr iport rport
    rw [read]
    rfl
  · have read := tableCb_filter6 handle userdata ifIdx proto rhost6 iaddr6 iport rport
    rw [read]
    rfl

theorem addNft_labelled (stack : In6Addr × In6Addr) (ifIdx : Option Nat) {req : PinholeRequest}
    {o : Opening} (meant : req.meant = some o) (ported : Ported o.proto) (s : Pinholes) :
    (addNft stack ifIdx req s).1 = s.nextUid ∧
      (addNft stack ifIdx req s).2.nextUid = Nftpinhole.succUid s.nextUid ∧
      (∃ rule, (addNft stack ifIdx req s).2.nft.forward.rules = rule :: s.nft.forward.rules ∧
        rule.exprs = ruleSetFilter6 ifIdx o.proto o.source o.client o.iport o.rport) ∧
      ∃ p, labelled (addNft stack ifIdx req s).2 = p :: labelled s ∧
        shownOf p = shownAs s.nextUid o := by
  obtain ⟨_, client, proto, rport, iport⟩ := meant_fields meant
  have label := writtenLabel_read (Nat.lt_succ_of_lt s.bounded) req.timestamp.toNat_lt req.desc
  have reads := readsPinhole s.nft.forward.nextHandle
    (writtenLabel s.nextUid req.timestamp.toNat req.desc) ifIdx o.proto o.source o.client o.iport
    o.rport
  have front := labelled_newRule s (scanLabel_nonempty label) _ reads.type
  unfold addNft Nftpinhole.addPinhole
  simp only [remoteGiven_meant meant, client, proto, rport, iport, Option.getD_some]
  refine ⟨trivial, trivial, ⟨_, rfl, rfl⟩, _, front, ?_⟩
  rw [shownOf, reads.desc, label, reads.proto, reads.rhost6, reads.rport, reads.iaddr6, reads.eport,
    if_pos ported]
  rfl

/-- The pinholes that are added go in front of the others, the newest first. -/
theorem addAllNft_labelled (stack : In6Addr × In6Addr) (ifIdx : Option Nat)
    {reqs : List PinholeRequest} (all : ∀ q ∈ reqs, ∃ o, q.meant = some o ∧ Ported o.proto)
    (s : Pinholes) :
    ∃ front, labelled (addAllNft stack ifIdx reqs s) = front ++ labelled s ∧
      front.map (fun p => some (shownOf p)) =
        (numbered s.nextUid reqs).reverse.map fun q => q.2.meant.map (shownAs q.1) := by
  induction reqs generalizing s with
  | nil => exact ⟨[], rfl, rfl⟩
  | cons q reqs ih =>
    simp only [List.mem_cons, forall_eq_or_imp] at all
    obtain ⟨o, meant, ported⟩ := all.1
    obtain ⟨_, next, _, p, first, shown⟩ := addNft_labelled stack ifIdx meant ported s
    obtain ⟨front, lists, keys⟩ := ih all.2 (addNft stack ifIdx q s).2
    refine ⟨front ++ [p], ?_, ?_⟩
    · have same : addAllNft stack ifIdx (q :: reqs) s =
          addAllNft stack ifIdx reqs (addNft stack ifIdx q s).2 := rfl
      rw [same, lists, first, List.append_assoc, List.singleton_append]
    · rw [next] at keys
      simp [numbered, keys, meant, shown]

/-- The test of the lookup, and the uid that it takes, on what it sees of a rule. -/
def asked (o : Opening) (k : Shown) : Bool :=
  k.1.isSome ∧ k.2 = (o.proto, o.source.getD 0, o.rport, o.client, o.iport)

def uidShown (p : RuleT) : Int := ((scanLabel p.desc).map (·.1)).getD 0

theorem findNft_uid {req : PinholeRequest} {o : Opening} (meant : req.meant = some o)
    (stack : In6Addr × In6Addr) (s : Pinholes) :
    (findNft stack req s).map FoundPinhole.uid =
      ((labelled s).find? fun p => asked o (shownOf p)).map uidShown := by
  obtain ⟨_, client, proto, rport, iport⟩ := meant_fields meant
  have source : Nftpinhole.soughtAddr stack.1 req.remHost = o.source.getD 0 := by
    rw [← remoteGiven_meant meant stack.1, Nftpinhole.soughtAddr]
    cases remoteGiven req.remHost <;> rfl
  unfold findNft Nftpinhole.findPinhole
  dsimp only
  rw [source, client, proto, rport, iport, map_findSome?_filter _ _ _ _ 0]
  have uids : (fun p => ((Option.map (fun x : Int × Nat =>
      ({ uid := x.1, timestamp := x.2, desc := labelDesc p.desc } : FoundPinhole))
        (scanLabel p.desc)).map FoundPinhole.uid).getD 0) = uidShown := by
    funext p
    rw [uidShown, Option.map_map]
    rfl
  rw [uids]
  refine congrArg (fun test => ((labelled s).find? test).map uidShown) (funext fun p => ?_)
  rw [Bool.eq_iff_iff]
  simp only [Nftpinhole.pinholeMatches, asked, shownOf, Option.getD_some, Option.isSome_map,
    Bool.and_eq_true, decide_eq_true_eq, Prod.mk.injEq]
  constructor
  · rintro ⟨⟨one, two, three, four, five⟩, label⟩
    exact ⟨label, one.symm, three.symm, two.symm, five.symm, four.symm⟩
  · rintro ⟨label, one, three, two, five, four⟩
    exact ⟨⟨one.symm, two.symm, three.symm, four.symm, five.symm⟩, label⟩

theorem asked_shownAs {o o' : Opening} (any : o.rport = 0) (uid : Nat) :
    asked o (shownAs uid o') = decide (served o' = served o) := by
  simp [asked, shownAs, served, any]

def RightNft (o : Opening) (req : PinholeRequest) (ifIdx : Option Nat) (s s1 s2 : Pinholes)
    (r : Int) : Prop :=
  (∃ rule, s1.nft.forward.rules = rule :: s.nft.forward.rules ∧
      ∀ raw packet regs, (∀ idx ∈ ifIdx, raw.iif = idx) → Carries raw packet →
        (eval raw rule.exprs regs = some NF_ACCEPT ↔ o.Admits packet)) ∧
    ∀ stack, (findNft stack req s2).map FoundPinhole.uid = some r

theorem nftables_renewal_iff {req : PinholeRequest} {o : Opening} (meant : req.meant = some o)
    (ported : Ported o.proto) {between : List PinholeRequest}
    (all : ∀ q ∈ between, ∃ o', q.meant = some o' ∧ Ported o'.proto) (s : Pinholes)
    (sent : ∀ rule ∈ s.nft.forward.rules, Sent rule.exprs) (stack : In6Addr × In6Addr)
    (ifIdx : Option Nat) :
    let added := addNft stack ifIdx req s
    RightNft o req ifIdx s added.2 (addAllNft stack ifIdx between added.2) added.1 ↔
      o.rport = 0 ∧ ∀ q ∈ (numbered (Nftpinhole.succUid s.nextUid) between).reverse.find?
        (fun q => q.2.meant.map served = some (served o)), q.1 = s.nextUid := by
  obtain ⟨uid, next, ⟨rule, rules, exprs⟩, p, first, shown⟩ :=
    addNft_labelled stack ifIdx meant ported s
  obtain ⟨front, lists, keys⟩ := addAllNft_labelled stack ifIdx all (addNft stack ifIdx req s).2
  rw [first] at lists
  rw [next] at keys
  have accepts : ∃ rule, (addNft stack ifIdx req s).2.nft.forward.rules =
      rule :: s.nft.forward.rules ∧ ∀ raw packet regs, (∀ idx ∈ ifIdx, raw.iif = idx) →
        Carries raw packet → (eval raw rule.exprs regs = some NF_ACCEPT ↔ o.Admits packet) := by
    refine ⟨rule, rules, ?_⟩
    intro raw packet regs here carries
    rw [exprs]
    exact opening_accepted ported here carries regs
  dsimp only
  simp only [RightNft, accepts, true_and, findNft_uid meant, uid, forall_const, lists]
  by_cases any : o.rport = 0
  · have hit : asked o (shownOf p) = true := by
      rw [shown, asked_shownAs any]
      simp
    have own : uidShown p = s.nextUid := by
      have number := congrArg (fun k : Shown => k.1.getD 0) shown
      exact number
    have search := @first_uid _ (fun p => asked o (shownOf p)) front (labelled s) p uidShown hit
    rw [← own, search]
    simp only [any, true_and]
    have same : (front.find? fun p => asked o (shownOf p)).map (fun p => some (shownOf p)) =
        ((numbered (Nftpinhole.succUid s.nextUid) between).reverse.find?
          fun q => q.2.meant.map served = some (served o)).map
            fun q => q.2.meant.map (shownAs q.1) := by
      let test : Option Shown → Bool := fun k => k.any (asked o)
      have left := List.find?_map (p := test) (f := fun p => some (shownOf p)) (l := front)
      have right := List.find?_map (p := test) (f := fun q => q.2.meant.map (shownAs q.1))
        (l := (numbered (Nftpinhole.succUid s.nextUid) between).reverse)
      have tests : ∀ q : Nat × PinholeRequest, test (q.2.meant.map (shownAs q.1)) =
          decide (q.2.meant.map served = some (served o)) := by
        intro q
        cases q.2.meant with
        | none => rfl
        | some o' => simp [test, asked_shownAs any]
      rw [keys, right] at left
      simp only [Function.comp_def, tests] at left
      exact left.symm
    generalize (numbered (Nftpinhole.succUid s.nextUid) between).reverse.find? _ = found at same
    cases found with
    | none => simp [Option.map_eq_none_iff.mp same]
    | some q =>
      obtain ⟨a, newer, key⟩ := Option.map_eq_some_iff.mp same
      have label : uidShown a = q.1 := by
        dsimp only at key
        have number := congrArg (fun k : Option Shown => (k.bind (·.1)).getD 0) key
        cases meantQ : q.2.meant with
        | none => simp [meantQ] at key
        | some o' =>
          rw [meantQ] at number
          exact number
      simp only [newer, Option.mem_some_iff, forall_eq', label, own]
      exact Int.ofNat_inj
  · refine iff_of_false ?_ (fun both => any both.1)
    have missing : (front ++ p :: labelled s).find? (fun p => asked o (shownOf p)) = none := by
      refine List.find?_eq_none.mpr ?_
      intro a member hit
      have wanted : a.rport = o.rport := by
        simp only [asked, shownOf, decide_eq_true_eq, Prod.mk.injEq] at hit
        exact hit.2.2.2.1
      have zero : a.rport = 0 := by
        rcases List.mem_append.mp member with new | old
        · have inside := List.mem_map_of_mem (f := fun p => some (shownOf p)) new
          rw [keys] at inside
          obtain ⟨q, _, key⟩ := List.mem_map.mp inside
          obtain ⟨o', _, same⟩ := Option.map_eq_some_iff.mp key
          exact (congrArg (fun k : Shown => k.2.2.2.1) same).symm
        · rcases List.mem_cons.mp old with rfl | before
          · exact congrArg (fun k : Shown => k.2.2.2.1) shown
          · have cached := (List.mem_filter.mp (List.mem_filter.mp before).1).1
            obtain ⟨rule, inside, rfl⟩ := List.mem_map.mp cached
            exact rport_sent (sent rule inside) rule.handle rule.userdata
      exact any (wanted.symm.trans zero)
    rw [missing]
    simp

end nftables

section pf
open PinholeLabel Pfpinhole

def AddrMatches (a : PfRuleAddr) (addr : In6Addr) (port : UInt16) : Prop :=
  (addr ^^^ a.addr) &&& a.mask = 0 ∧ (a.portOp = .PF_OP_EQ → port = a.port)

def PfAccepts (r : PfRule) (packet : Packet6) : Prop :=
  packet.proto = r.proto ∧ AddrMatches r.src packet.saddr packet.sport ∧
    AddrMatches r.dst packet.daddr packet.dport

def addPf (ifname : Option CString) (req : PinholeRequest) (pf : Pf) : Int × Pf :=
  Pfpinhole.addPinhole ifname req.remHost req.remPort req.intClient req.intPort req.proto req.desc
    req.timestamp.toNat pf

def addAllPf (ifname : Option CString) (reqs : List PinholeRequest) (pf : Pf) : Pf :=
  reqs.foldl (fun pf req => (addPf ifname req pf).2) pf

def findPf (stack : In6Addr × In6Addr) (req : PinholeRequest) (pf : Pf) : Option (Int × Nat) :=
  Pfpinhole.findPinhole stack req.remHost req.remPort req.intClient req.intPort req.proto pf

/-- A rule that the lookup takes for one of the opening. -/
def opens (o : Opening) (r : PfRule) : Bool :=
  r.proto = o.proto ∧ r.src.addr = o.source.getD 0 ∧ r.src.port = o.rport ∧
    r.dst.addr = o.client ∧ r.dst.port = o.iport ∧ (scanLabel r.label).isSome

def labelUid (r : PfRule) : Int := ((scanLabel r.label).map (·.1)).getD 0

/-- Some address is free when there are fewer rules than addresses. -/
theorem exists_free (list : List In6Addr) (few : list.length < 2 ^ 32) : ∃ a, a ∉ list := by
  by_contra full
  push Not at full
  let some_addresses := (List.range (list.length + 1)).map (BitVec.ofNat 128)
  have distinct : some_addresses.Nodup := by
    refine List.Nodup.map_on ?_ List.nodup_range
    intro m smallM n smallN same
    rw [List.mem_range] at smallM smallN
    have numbers := congrArg BitVec.toNat same
    rw [BitVec.toNat_ofNat, BitVec.toNat_ofNat, Nat.mod_eq_of_lt (by omega),
      Nat.mod_eq_of_lt (by omega)] at numbers
    exact numbers
  have inside := (List.subperm_of_subset distinct fun a _ => full a).length_le
  simp only [some_addresses, List.length_map, List.length_range] at inside
  omega

/-- The rule of a request, with the uid in its label. -/
def ruleOf (ifname : Option CString) (req : PinholeRequest) (uid : Nat) : PfRule :=
  pinholeRule ifname req.remHost req.remPort req.intClient req.intPort req.proto
    ((pinholeLabel uid req.timestamp.toNat req.desc).take (PF_RULE_LABEL_SIZE - 1))

theorem addPf_rules (ifname : Option CString) (req : PinholeRequest) (pf : Pf) :
    (addPf ifname req pf).2.rules = pf.rules ++ [ruleOf ifname req pf.nextUid] := rfl

theorem addAllPf_rules (ifname : Option CString) (reqs : List PinholeRequest) (pf : Pf) :
    ∃ back, (addAllPf ifname reqs pf).rules = pf.rules ++ back ∧ back.length = reqs.length := by
  induction reqs generalizing pf with
  | nil => exact ⟨[], by simp [addAllPf]⟩
  | cons q reqs ih =>
    obtain ⟨back, rules, length⟩ := ih (addPf ifname q pf).2
    refine ⟨ruleOf ifname q pf.nextUid :: back, ?_, by rw [List.length_cons, length,
      List.length_cons]⟩
    rw [addPf_rules, List.append_assoc] at rules
    exact rules

theorem source_matches {req : PinholeRequest} {o : Opening} (meant : req.meant = some o)
    (addr : In6Addr) (port : UInt16) :
    AddrMatches (sourceAddr req.remHost req.remPort) addr port ↔
      (∀ a ∈ o.source, addr = a) ∧ (o.rport ≠ 0 → port = o.rport) := by
  obtain ⟨_, _, _, rport, _⟩ := meant_fields meant
  have any : o.source = none → ((addr ^^^ 0) &&& 0 = 0 ↔ ∀ a ∈ o.source, addr = a) := by
    intro none_given
    simp [none_given]
  have range : ∀ op : PortOp, op = (if req.remPort ≠ 0 then .PF_OP_EQ else .PF_OP_NONE) →
      ((op = .PF_OP_EQ → port = req.remPort) ↔ (o.rport ≠ 0 → port = o.rport)) := by
    rintro _ rfl
    rw [rport]
    by_cases zero : o.rport = 0 <;> simp [zero]
  rcases source_cases meant with ⟨given, host | host | host⟩ | ⟨c, s, a, host, star, read, given⟩
  · rw [host]
    exact and_congr (any given) (range _ rfl)
  · rw [host]
    exact and_congr (any given) (range _ rfl)
  · rw [host]
    exact and_congr (any given) (range _ rfl)
  · simp only [host, sourceAddr, star, ↓reduceIte, AddrMatches, read, Option.getD_some, given,
      Option.mem_some_iff, forall_eq']
    exact and_congr (masked_all addr a) (range _ rfl)

theorem sourceAddr_fields {req : PinholeRequest} {o : Opening} (meant : req.meant = some o) :
    (sourceAddr req.remHost req.remPort).addr = o.source.getD 0 ∧
      (sourceAddr req.remHost req.remPort).port = o.rport := by
  obtain ⟨_, _, _, rport, _⟩ := meant_fields meant
  rcases source_cases meant with ⟨any, host | host | host⟩ | ⟨c, s, a, host, star, read, given⟩
  · simp [sourceAddr, host, any, rport]
  · simp [sourceAddr, host, any, rport]
  · simp [sourceAddr, host, any, rport]
  · simp [sourceAddr, host, star, read, given, rport]

theorem soughtAddr_pf {req : PinholeRequest} {o : Opening} (meant : req.meant = some o)
    (stack : In6Addr) : Pfpinhole.soughtAddr stack req.remHost =
      if req.remHost = some ['*'] then stack else o.source.getD 0 := by
  rcases source_cases meant with ⟨any, host | host | host⟩ | ⟨c, s, a, host, star, read, given⟩
  · simp [Pfpinhole.soughtAddr, host, any]
  · simp [Pfpinhole.soughtAddr, host, any]
  · rw [host, if_pos rfl]
    have noAddress : inetPton6 ['*'] = none := by decide
    simp [Pfpinhole.soughtAddr, noAddress]
  · simp [Pfpinhole.soughtAddr, host, star, read, given]

theorem ruleOf_accepts {req : PinholeRequest} {o : Opening} (meant : req.meant = some o)
    (ifname : Option CString) (uid : Nat) (packet : Packet6) :
    PfAccepts (ruleOf ifname req uid) packet ↔ o.Admits packet := by
  obtain ⟨_, client, proto, _, iport⟩ := meant_fields meant
  have source := source_matches meant packet.saddr packet.sport
  have target : AddrMatches (ruleOf ifname req uid).dst packet.daddr packet.dport ↔
      packet.daddr = o.client ∧ packet.dport = o.iport := by
    simp only [AddrMatches, ruleOf, pinholeRule, client, iport, Option.getD_some, true_implies]
    exact and_congr (masked_all _ _) Iff.rfl
  have whole : PfAccepts (ruleOf ifname req uid) packet ↔ packet.proto = req.proto ∧
      AddrMatches (sourceAddr req.remHost req.remPort) packet.saddr packet.sport ∧
        AddrMatches (ruleOf ifname req uid).dst packet.daddr packet.dport := Iff.rfl
  rw [whole, source, target, proto, Opening.Admits, and_assoc]

theorem ruleOf_label (ifname : Option CString) (req : PinholeRequest) {uid : Nat}
    (bounded : uid < 65535) :
    scanLabel (ruleOf ifname req uid).label = some ((uid : Int), req.timestamp.toNat) :=
  scanLabel_cut _ (Nat.lt_trans bounded (by decide)) req.timestamp.toNat_lt (by decide)

theorem findPf_uid {req : PinholeRequest} {o : Opening} (meant : req.meant = some o)
    (stack : In6Addr × In6Addr) (pf : Pf) :
    (findPf stack req pf).map (·.1) = (pf.rules.find? (opens { o with
      source := if req.remHost = some ['*'] then some stack.1 else o.source })).map labelUid := by
  obtain ⟨_, client, proto, rport, iport⟩ := meant_fields meant
  unfold findPf Pfpinhole.findPinhole
  dsimp only
  rw [soughtAddr_pf meant, client, proto, rport, iport, map_findSome?_filter _ _ _ _ 0]
  have source : (if req.remHost = some ['*'] then some stack.1 else o.source).getD 0 =
      if req.remHost = some ['*'] then stack.1 else o.source.getD 0 := by
    split <;> rfl
  refine congrArg (fun test => (pf.rules.find? test).map labelUid) (funext fun r => ?_)
  rw [Bool.eq_iff_iff]
  simp only [Pfpinhole.pinholeMatches, opens, source, Option.getD_some, Bool.and_eq_true,
    decide_eq_true_eq]
  constructor
  · rintro ⟨⟨one, two, three, four, five⟩, label⟩
    exact ⟨one.symm, three.symm, two.symm, five.symm, four.symm, label⟩
  · rintro ⟨one, three, two, five, four, label⟩
    exact ⟨⟨one.symm, two.symm, three.symm, four.symm, five.symm⟩, label⟩

def RightPf (o : Opening) (req : PinholeRequest) (pf pf1 pf2 : Pf) (r : Int) : Prop :=
  (∃ rule, pf1.rules = pf.rules ++ [rule] ∧ ∀ packet, PfAccepts rule packet ↔ o.Admits packet) ∧
    ∀ stack, (findPf stack req pf2).map (·.1) = some r

theorem pf_renewal_iff {req : PinholeRequest} {o : Opening} (meant : req.meant = some o)
    (between : List PinholeRequest) (pf : Pf)
    (few : pf.rules.length + between.length < 2 ^ 31 - 1) (ifname : Option CString) :
    let added := addPf ifname req pf
    RightPf o req pf added.2 (addAllPf ifname between added.2) added.1 ↔
      req.remHost ≠ some ['*'] ∧ ∀ r ∈ pf.rules.find? (opens o), labelUid r = pf.nextUid := by
  have rule : ∃ rule, (addPf ifname req pf).2.rules = pf.rules ++ [rule] ∧
      ∀ packet, PfAccepts rule packet ↔ o.Admits packet :=
    ⟨_, addPf_rules ifname req pf, ruleOf_accepts meant ifname pf.nextUid⟩
  obtain ⟨back, rules, length⟩ := addAllPf_rules ifname between (addPf ifname req pf).2
  rw [addPf_rules, List.append_assoc, List.singleton_append] at rules
  have uid : (addPf ifname req pf).1 = pf.nextUid := rfl
  dsimp only
  simp only [RightPf, rule, true_and, uid]
  by_cases star : req.remHost = some ['*']
  · refine iff_of_false ?_ (fun both => both.1 star)
    intro found
    obtain ⟨a, free⟩ := exists_free ((addAllPf ifname between (addPf ifname req pf).2).rules.map
      fun r => r.src.addr) (by rw [rules]; simp [length]; omega)
    have first := found (a, 0)
    rw [findPf_uid meant, if_pos star] at first
    obtain ⟨r, hit, _⟩ := Option.map_eq_some_iff.mp first
    have same := List.find?_some hit
    simp only [opens, decide_eq_true_eq, Option.getD_some] at same
    exact free (List.mem_map.mpr ⟨r, List.mem_of_find?_eq_some hit, same.2.1⟩)
  · have label := ruleOf_label ifname req pf.bounded
    have own : labelUid (ruleOf ifname req pf.nextUid) = pf.nextUid := by
      rw [labelUid, label]
      rfl
    have hit : opens o (ruleOf ifname req pf.nextUid) = true := by
      obtain ⟨_, client, proto, _, iport⟩ := meant_fields meant
      obtain ⟨addr, port⟩ := sourceAddr_fields meant
      have readable : (scanLabel (ruleOf ifname req pf.nextUid).label).isSome := by
        rw [label]
        rfl
      unfold opens
      simp only [readable, and_true, decide_eq_true_eq]
      simp only [ruleOf, pinholeRule, client, proto, iport, addr, port, Option.getD_some, and_self]
    have search := @first_uid _ (opens o) pf.rules back (ruleOf ifname req pf.nextUid) labelUid hit
    rw [own] at search
    simp only [findPf_uid meant, rules, star, ↓reduceIte, forall_const, ne_eq, not_false_eq_true,
      true_and]
    exact search

end pf

/-- With kernel calls succeeding, the rule is as asked for and the pinhole is found again: with
    ip6tables, if the remote host is not given as a star and no pinhole for the same addresses and
    ports, any source counted as the address zero, is added in between; with nftables, if the
    remote port is any and no such pinhole, whatever its remote port, is added, but for one that
    has come round to the same uid; with pf, if the remote host is not given as a star and no such
    pinhole was there before, but for one with the same uid. In all three this is necessary. -/
theorem renewal_iff {req : PinholeRequest} {o : Opening} (meant : req.meant = some o)
    (ported : NftnlrdrMiscSpec.Ported o.proto) {between : List PinholeRequest}
    (all : ∀ q ∈ between, ∃ o', q.meant = some o' ∧ NftnlrdrMiscSpec.Ported o'.proto) :
    (∀ (ifname : Option CString) (fw fw1 fw2 : Iptpinhole.Firewall) (r : Int),
        fw.ip6tcResults = [] → addIp6 ifname req fw = some (r, fw1) →
        addAllIp6 ifname between fw1 = some fw2 →
        (RightIp6 o req fw fw1 fw2 r ↔
          req.remHost ≠ some ['*'] ∧ ∀ q ∈ between, ∀ o' ∈ q.meant, o'.sought ≠ o.sought)) ∧
      (∀ (s : Nftpinhole.Pinholes) (stack : In6Addr × In6Addr) (ifIdx : Option Nat),
        (∀ rule ∈ s.nft.forward.rules, Sent rule.exprs) →
        let added := addNft stack ifIdx req s
        (RightNft o req ifIdx s added.2 (addAllNft stack ifIdx between added.2) added.1 ↔
          o.rport = 0 ∧ ∀ q ∈ (numbered (Nftpinhole.succUid s.nextUid) between).reverse.find?
            (fun q => q.2.meant.map served = some (served o)), q.1 = s.nextUid)) ∧
      ∀ (pf : Pfpinhole.Pf) (ifname : Option CString),
        pf.rules.length + between.length < 2 ^ 31 - 1 →
        let added := addPf ifname req pf
        (RightPf o req pf added.2 (addAllPf ifname between added.2) added.1 ↔
          req.remHost ≠ some ['*'] ∧
            ∀ r ∈ pf.rules.find? (opens o), labelUid r = pf.nextUid) := by
  refine ⟨?_, ?_, ?_⟩
  · intro ifname fw fw1 fw2 r quiet added later
    refine ip6tables_renewal_iff meant ?_ quiet added later
    intro q member
    obtain ⟨o', meantQ, _⟩ := all q member
    exact Option.isSome_iff_exists.mpr ⟨o', meantQ⟩
  · intro s stack ifIdx sent
    exact nftables_renewal_iff meant ported all s sent stack ifIdx
  · intro pf ifname few
    exact pf_renewal_iff meant between pf few ifname

def requestFrom (remHost : Option CString) (intPort : UInt16) : PinholeRequest :=
  { remHost, remPort := 0, intClient := "2001:db8::2".toList, intPort, proto := 6
    desc := "web".toList, timestamp := 100 }

def openingFrom (source : Option In6Addr) (iport : UInt16) : Opening :=
  { proto := 6, source, rport := 0, client := 0x20010db8000000000000000000000002, iport }

theorem meant_literal : (requestFrom (some "2001:db8::9".toList) 80).meant =
    some (openingFrom (some 0x20010db8000000000000000000000009) 80) := by decide +kernel

theorem meant_any : (requestFrom none 81).meant = some (openingFrom none 81) := by decide +kernel

/-- A pinhole for one source, with one for another port added before it is asked for again. -/
theorem literal_renewed :
    let req := requestFrom (some "2001:db8::9".toList) 80
    let o := openingFrom (some 0x20010db8000000000000000000000009) 80
    let between := [requestFrom none 81]
    (∃ r fw1 fw2, addIp6 none req .empty = some (r, fw1) ∧ addAllIp6 none between fw1 = some fw2 ∧
        RightIp6 o req .empty fw1 fw2 r) ∧
      (let s : Nftpinhole.Pinholes := { nft := .empty, nextUid := 1, bounded := by decide }
       let added := addNft (0, 0) none req s
       RightNft o req none s added.2 (addAllNft (0, 0) none between added.2) added.1) ∧
      (let pf : Pfpinhole.Pf := { rules := [], nextUid := 1, bounded := by decide }
       let added := addPf none req pf
       RightPf o req pf added.2 (addAllPf none between added.2) added.1) := by
  have other : ∀ q ∈ [requestFrom none 81], ∃ o', q.meant = some o' ∧
      NftnlrdrMiscSpec.Ported o'.proto := by
    intro q member
    obtain rfl := List.mem_singleton.mp member
    exact ⟨_, meant_any, by decide⟩
  obtain ⟨ip6, nft, pf⟩ := renewal_iff meant_literal (by decide) other
  have plain : (requestFrom (some "2001:db8::9".toList) 80).remHost ≠ some ['*'] := by decide
  refine ⟨?_, ?_, ?_⟩
  · have both : ((addIp6 none (requestFrom (some "2001:db8::9".toList) 80) .empty).bind fun added =>
        addAllIp6 none [requestFrom none 81] added.2).isSome := by decide +kernel
    obtain ⟨fw2, run⟩ := Option.isSome_iff_exists.mp both
    obtain ⟨⟨r, fw1⟩, added, later⟩ := Option.bind_eq_some_iff.mp run
    refine ⟨r, fw1, fw2, added, later, (ip6 none .empty fw1 fw2 r rfl added later).mpr ⟨plain, ?_⟩⟩
    intro q member o' meantQ
    obtain rfl := List.mem_singleton.mp member
    obtain rfl := Option.some.inj (meant_any.symm.trans meantQ)
    decide
  · refine (nft _ (0, 0) none (by simp [Nftnlrdr.Nft.empty, NftnlrdrMisc.NftChain.empty])).mpr
      ⟨rfl, ?_⟩
    have missing : ((numbered 2 [requestFrom none 81]).reverse.find? fun q => q.2.meant.map served =
        some (served (openingFrom (some 0x20010db8000000000000000000000009) 80))) = none := by
      decide +kernel
    intro q found
    exact absurd (missing.symm.trans found) (by simp)
  · refine (pf _ none (by decide)).mpr ⟨plain, ?_⟩
    intro r found
    exact absurd found (by simp)

/-- With ip6tables a star is taken for the address zero. -/
theorem star_refused :
    (requestFrom (some "*".toList) 80).meant = some (openingFrom none 80) ∧
      ∃ r fw, addIp6 none (requestFrom (some "*".toList) 80) .empty = some (r, fw) ∧
        ¬ RightIp6 (openingFrom none 80) (requestFrom (some "*".toList) 80) .empty fw fw r := by
  have meant : (requestFrom (some "*".toList) 80).meant = some (openingFrom none 80) := by
    decide +kernel
  have done : (addIp6 none (requestFrom (some "*".toList) 80) .empty).isSome := by decide +kernel
  obtain ⟨⟨r, fw⟩, added⟩ := Option.isSome_iff_exists.mp done
  have later : addAllIp6 none [] fw = some fw := rfl
  have noOther : ∀ q ∈ ([] : List PinholeRequest), q.meant.isSome := by simp
  refine ⟨meant, r, fw, added, ?_⟩
  intro right
  exact ((ip6tables_renewal_iff meant noOther rfl added later).mp right).1 rfl

end PinholeRenewal
