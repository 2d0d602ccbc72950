import MiniUPnPd.Lib.Runs
import MiniUPnPd.PcpChanges

/-!
Who may change what a PCP request has made. The nonce is in the description, `PCP MAP` and
three words in hexadecimal. A removal compares the descriptions. A request for a mapping
that is there, or for a pinhole that is there, replaces or renews it without a look at them.
-/
namespace PcpNonces
open CText Inet Iptc Iptcrdr Iptpinhole Mappings NetBytes PcpChanges PcpMappings PcpPinholes
  PcpRequests PcpServer Runs UpnpRedirect

section words

def hexDigit (c : Char) : Nat := if c.isDigit then c.toNat - 48 else c.toNat - 87

def hexValue (s : CString) : Nat := s.foldl (fun value c => 16 * value + hexDigit c) 0

theorem hexDigit_digitChar : ∀ n < 16, hexDigit n.digitChar = n := by decide

theorem hexValue_toDigits (n : Nat) : hexValue (Nat.toDigits 16 n) = n := by
  induction n using Nat.strongRecOn with
  | ind n ih =>
    by_cases small : n < 16
    · rw [Nat.toDigits_of_lt_base small]
      simp [hexValue, hexDigit_digitChar n small]
    · rw [Nat.toDigits_of_base_le (by decide) (not_lt.mp small)]
      have high := ih (n / 16) (by omega)
      unfold hexValue at high ⊢
      rw [List.foldl_append, high]
      simp only [List.foldl_cons, List.foldl_nil, hexDigit_digitChar _ (Nat.mod_lt n (by decide : 16 > 0))]
      omega

theorem hexValue_hex8 (n : Nat) : hexValue (hex8 n) = n := by
  have zeros : ∀ k, (List.replicate k '0').foldl (fun value c => 16 * value + hexDigit c) 0 = 0 := by
    intro k
    induction k with
    | zero => rfl
    | succ k ih => simpa [List.replicate_succ, hexDigit] using ih
  have padded : hex8 n = List.replicate (8 - (Nat.toDigits 16 n).length) '0' ++ Nat.toDigits 16 n := rfl
  rw [padded, hexValue, List.foldl_append, zeros]
  exact hexValue_toDigits n

theorem hex8_length {n : Nat} (small : n < 2 ^ 32) : (hex8 n).length = 8 := by
  have digits : (Nat.toDigits 16 n).length ≤ 8 :=
    (Nat.length_toDigits_le_iff (by decide) (by decide)).mpr (by omega)
  rw [hex8, List.length_leftpad]
  omega

end words

/-- Three words of 32 bits. -/
structure IsNonce (nonce : List Nat) : Prop where
  words : nonce.length = 3
  small : ∀ word ∈ nonce, word < 2 ^ 32

theorem flatten_hex8_inj {left right : List Nat} (smallL : ∀ word ∈ left, word < 2 ^ 32)
    (smallR : ∀ word ∈ right, word < 2 ^ 32) (size : left.length = right.length)
    (same : (left.map hex8).flatten = (right.map hex8).flatten) : left = right := by
  induction left generalizing right with
  | nil =>
    have empty : right.length = 0 := size.symm
    rw [List.eq_nil_of_length_eq_zero empty]
  | cons a left ih =>
    cases right with
    | nil => simp at size
    | cons b right =>
      simp only [List.map_cons, List.flatten_cons] at same
      have lengths : (hex8 a).length = (hex8 b).length := by
        rw [hex8_length (smallL a List.mem_cons_self), hex8_length (smallR b List.mem_cons_self)]
      obtain ⟨head, tail⟩ := List.append_inj same lengths
      have value : a = b := by rw [← hexValue_hex8 a, head, hexValue_hex8]
      have rest := ih (fun word member => smallL word (List.mem_cons_of_mem _ member))
        (fun word member => smallR word (List.mem_cons_of_mem _ member)) (by simpa using size) tail
      rw [value, rest]

/-- The description tells the nonce. -/
theorem pcpDesc_inj {left right : List Nat} (nonceL : IsNonce left) (nonceR : IsNonce right)
    (same : pcpDesc PCP_OPCODE_MAP left = pcpDesc PCP_OPCODE_MAP right) : left = right := by
  have digits : (left.map hex8).flatten = (right.map hex8).flatten := by
    unfold pcpDesc at same
    have tails := List.append_cancel_left same
    exact (List.cons.inj tails).2
  exact flatten_hex8_inj nonceL.small nonceR.small (nonceL.words.trans nonceR.words.symm) digits

theorem readHost32_lt (packet : List UInt8) (i : Nat) : readHost32 packet i < 2 ^ 32 := by
  have first := (byteAt packet i).toNat_lt
  have second := (byteAt packet (i + 1)).toNat_lt
  have third := (byteAt packet (i + 2)).toNat_lt
  have fourth := (byteAt packet (i + 3)).toNat_lt
  unfold readHost32
  omega

theorem requestNonce_isNonce (req : List UInt8) : IsNonce (requestNonce req) := by
  unfold requestNonce
  split
  · exact ⟨rfl, by decide⟩
  · refine ⟨rfl, ?_⟩
    intro word member
    simp only [List.mem_cons, List.not_mem_nil, or_false] at member
    rcases member with rfl | rfl | rfl
    · exact readHost32_lt req 24
    · exact readHost32_lt req 28
    · exact readHost32_lt req 32

/-- The description is that of a MAP request with another nonce. -/
def Foreign (nonce : List Nat) (desc : CString) : Prop :=
  ∃ other, IsNonce other ∧ other ≠ nonce ∧ desc = pcpDesc PCP_OPCODE_MAP other

theorem own_not_foreign {nonce : List Nat} (words : IsNonce nonce) :
    ¬ Foreign nonce (pcpDesc PCP_OPCODE_MAP nonce) := by
  rintro ⟨other, isNonce, differs, same⟩
  exact differs (pcpDesc_inj words isNonce same).symm

/-- A packet with what the server meets when it comes. -/
structure Arrival where
  env : PinholeEnv
  req : List UInt8
  senderIp : In6Addr

def receive (s : Server) (a : Arrival) : Server := serve a.env s (a.req, a.senderIp)

/-- What requests with other nonces have made is left as it is, the expiry included. -/
def NoncesKept (s : Server) (a : Arrival) : Prop :=
  (∀ rule ∈ mappings s.daemon.nf, Foreign (requestNonce a.req) rule.desc →
    rule ∈ mappings (receive s a).daemon.nf) ∧
  ∀ p ∈ s.firewall.pinholeList, Foreign (requestNonce a.req) p.desc →
    p ∈ (receive s a).firewall.pinholeList

/-- The round leaves alone what is under its key, or no other nonce has a mapping there. -/
def RoundGuarded (env : PcpEnv) (info : PcpInfo) (nonce : List Nat) (place : Daemon × UInt16) :
    Prop :=
  Touches env info place → ∀ rule ∈ mappings place.1.nf, rule.eport = place.2 →
    rule.proto = info.protocol.toNat → ¬ Foreign nonce rule.desc

/-- The pinhole that is renewed is of the nonce, or has the new expiry already. -/
def PinholeGuarded (env : PinholeEnv) (info : PcpInfo) (nonce : List Nat) (fw : Firewall) : Prop :=
  ∀ p, renewed env info fw = some p → Foreign nonce p.desc →
    p.timestamp = pinholeExpiry env info.lifetime

/-- A request for a mapping or a pinhole meets none of another nonce. -/
def Guarded (s : Server) (a : Arrival) : Prop :=
  ∀ info, acceptedMap a.env.toPcpEnv a.req a.senderIp = some info → info.lifetime ≠ 0 →
    (info.isFw = true → PinholeGuarded a.env info (requestNonce a.req) s.firewall) ∧
    (info.isFw = false → ∀ place ∈ rounds (withFirewall a.env s.firewall) info s.daemon,
      RoundGuarded (withFirewall a.env s.firewall) info (requestNonce a.req) place)

section daemon
variable {env : PcpEnv} {info : PcpInfo} {nonce : List Nat} {d : Daemon} {rule : RedirectRule}

theorem created_kept (guarded : ∀ place ∈ rounds env info d, RoundGuarded env info nonce place)
    (member : rule ∈ mappings d.nf) (foreign : Foreign nonce rule.desc) :
    rule ∈ mappings (createPCPMapNAT env info d).2.nf := by
  apply @createPCPMapNAT_keeps env info (fun d => rule ∈ mappings d.nf) d member
  intro place visit here
  by_cases touches : Touches env info place
  · apply mapping_other (tryPort_key place) here
    rintro ⟨port, protocol⟩
    exact guarded place visit touches rule here port protocol foreign
  · rw [mappings_same (tryPort_untouched touches)]
    exact here

theorem deleted_kept (nat : info.isFw = false) (own : ¬ Foreign nonce info.desc)
    (member : rule ∈ mappings d.nf) (foreign : Foreign nonce rule.desc) :
    rule ∈ mappings (deletePCPMap env info d).2.nf := by
  have same := @findMapping_same info ((d.nf.chain .nat).length + 1) 0 d
  have hit := @findMapping_found info ((d.nf.chain .nat).length + 1) 0 d
  rw [deletePCPMap_nat nat]
  rcases seen : findMapping info ((d.nf.chain .nat).length + 1) 0 d with ⟨_ | found, after⟩
  · rw [seen] at same
    rw [mappings_same same]
    exact member
  · rw [seen] at same hit
    dsimp only at same hit ⊢
    obtain ⟨listed, _⟩ := hit rfl
    rw [← mappings_same same] at member listed
    split
    · exact member
    · rename_i matching
      obtain ⟨low, high, described⟩ := mapping_described listed
      apply mapping_other (keyOnly_removed low high env.toEnv after) member
      rintro ⟨port, protocol⟩
      -- mappings under one key share the description, and this one is the request's
      have shared := (mapping_described member).2.2
      rw [port, protocol, ← described] at shared
      have desc : rule.desc = found.desc := congrArg Prod.fst shared
      rw [desc, not_not.mp matching] at foreign
      exact own foreign

end daemon

section firewall
variable {env : PinholeEnv} {info : PcpInfo} {nonce : List Nat} {fw fw' : Firewall} {p : PinholeT}

theorem pinhole_created_kept (guarded : PinholeGuarded env info nonce fw)
    (after : firewallCreated env info fw = some fw') (member : p ∈ fw.pinholeList)
    (foreign : Foreign nonce p.desc) : p ∈ fw'.pinholeList := by
  unfold firewallCreated at after
  rw [find_renewed] at after
  cases found : renewed env info fw with
  | some q =>
    simp only [found, Option.map_some, Option.some.injEq] at after
    have listed : q ∈ fw.pinholeList := List.mem_of_find?_eq_some found
    rw [← after]
    simp only [upnpUpdateInboundpinhole, (updatePinhole_of_mem listed _).2]
    refine List.mem_map.mpr ⟨p, member, ?_⟩
    unfold withTimestamp
    split
    · rename_i same
      obtain rfl := List.inj_on_of_nodup_map fw.distinct member listed same
      rw [← guarded p found foreign]
    · rfl
  | none =>
    simp only [found, Option.map_none] at after
    obtain ⟨⟨r, next⟩, added, rfl⟩ := Option.map_eq_some_iff.mp after
    unfold upnpAddInboundpinhole at added
    split at added
    · obtain ⟨_, rfl⟩ := Prod.mk.inj (Option.some.inj added)
      exact member
    · rw [find_renewed, found] at added
      simp only [Option.map_none] at added
      obtain ⟨⟨uid, final⟩, listed, same⟩ := Option.map_eq_some_iff.mp added
      obtain ⟨_, rfl⟩ := Prod.mk.inj same
      rcases addPinhole_some listed with ⟨_, head⟩ | ⟨_, _, head⟩
      · rw [head]
        exact member
      · rw [head]
        exact List.mem_cons_of_mem _ member

theorem pinhole_deleted_kept (own : ¬ Foreign nonce info.desc) (member : p ∈ fw.pinholeList)
    (foreign : Foreign nonce p.desc) : p ∈ (firewallDeleted env info fw).pinholeList := by
  unfold firewallDeleted
  split
  · exact member
  · rename_i seen found
    split
    · exact member
    · rename_i matching
      have listed := List.mem_of_find?_eq_some found
      obtain ⟨q, inside, info'⟩ := List.mem_filterMap.mp listed
      simp only [upnpGetPinholeInfo, getPinhole_of_mem inside, Option.map_some,
        Option.some.injEq] at info'
      have uid : seen.uid = q.uid := by rw [← info']
      have desc : q.desc = info.desc := by
        rw [← not_not.mp matching, ← info']
      rw [uid]
      rcases deletePinhole_list inside with kept | erased
      · rw [upnpDeleteInboundpinhole, kept]
        exact member
      · rw [upnpDeleteInboundpinhole, erased]
        apply (List.mem_eraseP_of_neg ?_).mpr member
        simp only [decide_eq_true_eq]
        intro same
        obtain rfl := List.inj_on_of_nodup_map fw.distinct member inside same
        rw [desc] at foreign
        exact own foreign

end firewall

section steps
variable {s : Server} {a : Arrival}

/-- The server is as it was, or both parts have carried the packet out. -/
theorem receive_cases (s : Server) (a : Arrival) :
    receive s a = s ∨ ∃ fw, firewallAfter a.env a.req a.senderIp s.firewall = some fw ∧
      receive s a =
        { daemon := (processIncomingPCPPacket (withFirewall a.env s.firewall) a.req a.senderIp
            s.daemon).2
          firewall := fw } := by
  unfold receive serve processPacket
  cases after : firewallAfter a.env a.req a.senderIp s.firewall with
  | none => exact .inl rfl
  | some fw => exact .inr ⟨fw, rfl, rfl⟩

theorem nonces_kept_step (guarded : Guarded s a) : NoncesKept s a := by
  rcases receive_cases s a with same | ⟨fw, after, served⟩
  · simp only [NoncesKept, same]
    exact ⟨fun _ member _ => member, fun _ member _ => member⟩
  · simp only [NoncesKept, served]
    cases accepted : acceptedMap a.env.toPcpEnv a.req a.senderIp with
    | none =>
      have refused : acceptedMap (withFirewall a.env s.firewall) a.req a.senderIp = none := accepted
      simp only [firewallAfter, accepted, Option.some.injEq] at after
      subst after
      rw [process_refused refused]
      exact ⟨fun _ member _ => member, fun _ member _ => member⟩
    | some info =>
      have known := accepted_fields accepted
      have own : ¬ Foreign (requestNonce a.req) info.desc := by
        rw [known.desc, known.nonce]
        exact own_not_foreign (requestNonce_isNonce a.req)
      have asked : info.lifetime ≠ 0 → _ := guarded info accepted
      have carried : acceptedMap (withFirewall a.env s.firewall) a.req a.senderIp = some info :=
        accepted
      simp only [firewallAfter, accepted] at after
      rw [process_accepted carried]
      simp only [carryOut]
      cases kind : info.isFw with
      | true =>
        simp only [kind, ↓reduceIte] at after
        by_cases removal : info.lifetime = 0
        · rw [if_pos removal] at after ⊢
          obtain rfl := Option.some.inj after
          rw [deletePCPMap_fw kind]
          exact ⟨fun _ member _ => member,
            fun p member foreign => pinhole_deleted_kept own member foreign⟩
        · rw [if_neg removal] at after ⊢
          rw [createPCPMap_fw kind]
          have pinholes := (asked removal).1 kind
          exact ⟨fun _ member _ => member,
            fun p member foreign => pinhole_created_kept pinholes after member foreign⟩
      | false =>
        simp only [kind, Bool.false_eq_true, ↓reduceIte, Option.some.injEq] at after
        subst after
        by_cases removal : info.lifetime = 0
        · rw [if_pos removal]
          exact ⟨fun rule member foreign => deleted_kept kind own member foreign,
            fun _ member _ => member⟩
        · rw [if_neg removal, createPCPMap_nat kind]
          have places := (asked removal).2 kind
          exact ⟨fun rule member foreign => created_kept places member foreign,
            fun _ member _ => member⟩

end steps

/-- In a run of PCP packets that meet no mapping or pinhole of another nonce where they
    create one, what a nonce has made is changed by that nonce only. -/
theorem nonces_kept (s : Server) (arrivals : List Arrival)
    (guarded : Admitted receive Guarded s arrivals) : Admitted receive NoncesKept s arrivals :=
  admitted_imp (fun _ _ => nonces_kept_step) guarded

def natHost : In6Addr := v4Mapped (ofBytes 192 168 0 2)

/-- A request of a host for its port 80, with this nonce in all bytes. -/
def arrival (now : Nat) (nonce : UInt8) (host : In6Addr) (lifetime : Nat) : Arrival :=
  { env := plainPinholes now, req := mapRequest nonce host 80 80 lifetime, senderIp := host }

/-- A request with another nonce tries to remove the mapping. -/
def removalTried : List Arrival := [arrival 1000 7 natHost 3600, arrival 2000 8 natHost 0]

theorem nonces_kept_removal :
    Admitted receive NoncesKept Server.start removalTried := by
  apply nonces_kept
  refine ⟨?_, ?_, trivial⟩
  · have free : (acceptedMap (plainPinholes 1000).toPcpEnv (mapRequest 7 natHost 80 80 3600)
        natHost).map (fun info => (rounds (withFirewall (plainPinholes 1000)
          Server.start.firewall) info Server.start.daemon).all fun place =>
            (mappings place.1.nf).isEmpty) = some true := by decide +kernel
    intro info accepted _
    have request : acceptedMap (plainPinholes 1000).toPcpEnv (mapRequest 7 natHost 80 80 3600)
        natHost = some info := accepted
    rw [request, Option.map_some, Option.some.injEq, List.all_eq_true] at free
    refine ⟨?_, ?_⟩
    · intro _ p found
      simp [renewed, arrival, Server.start, Firewall.empty] at found
    · intro _ place visit _ rule member
      rw [List.isEmpty_iff.mp (free place visit)] at member
      simp at member
  · have removal : (acceptedMap (plainPinholes 2000).toPcpEnv (mapRequest 8 natHost 80 80 0)
        natHost).map (·.lifetime) = some 0 := by decide +kernel
    intro info accepted lasting
    have request : acceptedMap (plainPinholes 2000).toPcpEnv (mapRequest 8 natHost 80 80 0)
        natHost = some info := accepted
    rw [request, Option.map_some, Option.some.injEq] at removal
    exact absurd removal lasting

/-- The words of a nonce whose bytes are all seven. -/
def sevens : List Nat := [0x07070707, 0x07070707, 0x07070707]

def sevensMapping : RedirectRule :=
  { eport := 80, proto := 6, iaddr := "192.168.0.2".toList, iport := 80
    desc := pcpDesc PCP_OPCODE_MAP sevens, rhost := [], timestamp := 4600, packets := 0, bytes := 0 }

def sevensPinhole : PinholeT :=
  { saddr := 0, daddr := plainHost, timestamp := 4600, sport := 0, dport := 80, uid := 1
    proto := 6, desc := pcpDesc PCP_OPCODE_MAP sevens }

theorem sevens_foreign {nonce : List Nat} (other : sevens ≠ nonce) :
    Foreign nonce (pcpDesc PCP_OPCODE_MAP sevens) :=
  ⟨sevens, ⟨rfl, by decide⟩, other, rfl⟩

/-- The host asks again for its mapping, and for its pinhole, with another nonce. -/
theorem other_nonce_takes_over :
    ¬ Admitted receive NoncesKept Server.start
        [arrival 1000 7 natHost 3600, arrival 2000 8 natHost 3600] ∧
      ¬ Admitted receive NoncesKept Server.start
        [arrival 1000 7 plainHost 3600, arrival 2000 8 plainHost 3600] := by
  constructor
  · rintro ⟨_, ⟨kept, _⟩, _⟩
    have there := kept sevensMapping (by decide +kernel) (sevens_foreign (by decide +kernel))
    exact absurd there (by decide +kernel)
  · rintro ⟨_, ⟨_, kept⟩, _⟩
    have there := kept sevensPinhole (by decide +kernel) (sevens_foreign (by decide +kernel))
    exact absurd there (by decide +kernel)

end PcpNonces
