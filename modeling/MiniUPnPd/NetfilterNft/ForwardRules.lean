import Mathlib.Data.List.Find
import MiniUPnPd.Lib.Runs
import MiniUPnPd.NetfilterNft.Nftnlrdr
import MiniUPnPd.NetfilterNft.NftnlrdrMiscSpec

/-!
A mapping of the nftables backend has a rule in the forward chain, which is searched for by
the client and its port alone. The chain holds the rules of the live mappings as long as the
newest rule with that client and port is always one for the mapping that is removed.
-/
namespace ForwardRules
open CText FirstMatch Inet Nftnlrdr NftnlrdrMisc NftnlrdrMiscSpec Runs
open Iptcrdr (hostGiven)

/-- The remote host is 0 for any. -/
structure Mapping where
  proto : UInt8
  rhost : InAddr
  eport : UInt16
  iaddr : InAddr
  iport : UInt16
  deriving DecidableEq

/-- Protocol, remote host, internal address and internal port. -/
abbrev Forwarding := UInt8 × InAddr × InAddr × UInt16

def Mapping.forwarding (m : Mapping) : Forwarding := (m.proto, m.rhost, m.iaddr, m.iport)

def forwardingOf (p : RuleT) : Forwarding := (p.proto, p.rhost, p.iaddr, p.eport)

abbrev Redirection := RuleType × Option NatType × UInt8 × UInt16 × InAddr × UInt16

def Mapping.redirection (m : Mapping) : Redirection :=
  (.RULE_NAT, some .NFT_NAT_DNAT, m.proto, m.eport, m.iaddr, m.iport)

def redirectionOf (p : RuleT) : Redirection :=
  (p.type, p.natType, p.proto, p.eport, p.iaddr, p.iport)

def Mapping.has (eport : UInt16) (proto : UInt8) (m : Mapping) : Bool :=
  m.eport = eport ∧ m.proto = proto

inductive Request where
  | add (ifIdx : Option Nat) (rhost : Option CString) (eport : UInt16) (iaddr : CString)
      (iport : UInt16) (proto : UInt8) (desc : CString) (timestamp : Nat)
  | update (ifIdx : Option Nat) (buffers : Buffers) (eport : UInt16) (proto : UInt8)
      (iport : UInt16) (desc : CString) (timestamp : Nat)
  | delete (eport : UInt16) (proto : UInt8)

/-- The chains, with the mappings that the requests so far have left, newest first. -/
structure State where
  nft : Nft
  live : List Mapping

def State.start : State := { nft := Nft.empty, live := [] }

def step (s : State) : Request → State
  | .add ifIdx rhost eport iaddr iport proto desc timestamp =>
      let redirected :=
        (addRedirectRule2 ifIdx rhost eport iaddr iport proto.toNat (some desc) timestamp s.nft).2
      { nft := (addFilterRule2 ifIdx rhost iaddr iport proto.toNat (some desc) redirected).2
        live := { proto, rhost := (hostGiven rhost).getD 0, eport, iaddr := inetAddr iaddr,
                  iport } :: s.live }
  | .update ifIdx buffers eport proto iport desc timestamp =>
      { nft := (updatePortmapping ifIdx buffers eport proto.toNat iport (some desc) timestamp
          s.nft).2
        live :=
          match s.live.find? (Mapping.has eport proto) with
          | some m => { m with iport } :: s.live.eraseP (Mapping.has eport proto)
          | none => s.live }
  | .delete eport proto =>
      { nft := (deleteRedirectAndFilterRules eport proto.toNat s.nft).2
        live := s.live.eraseP (Mapping.has eport proto) }

/-- TCP or UDP, with addresses and ports that are not zero, and no second mapping for the
    protocol and the external port. -/
def Allowed (s : State) : Request → Prop
  | .add _ _ eport iaddr iport proto _ _ =>
      Ported proto ∧ inetAddr iaddr ≠ 0 ∧ iport ≠ 0 ∧
        ∀ m ∈ s.live, Mapping.has eport proto m = false
  | .update _ _ _ _ iport _ _ => iport ≠ 0
  | .delete _ _ => True

def ForwardMatches (s : State) : Prop :=
  (s.nft.forward.cache .RULE_FILTER : Multiset RuleT).map forwardingOf =
    (s.live : Multiset Mapping).map Mapping.forwarding

/-- The rule that a removal of the mapping takes from the forward chain. -/
def firstForward (s : State) (m : Mapping) : Option Forwarding :=
  ((headFilter s.nft).find? (filterMatches m.iport m.iaddr)).map forwardingOf

/-- The rule that is removed is one for the mapping. An update also has the remote host of the
    mapping in its buffer; or it replaces a rule by an equal one, and changes no port. -/
def Paired (s : State) : Request → Prop
  | .add .. => True
  | .update _ buffers eport proto iport _ _ =>
      ∀ m ∈ s.live.find? (Mapping.has eport proto),
        let rhost := (hostGiven (some buffers.rhost)).getD 0
        firstForward s m = some m.forwarding ∧ rhost = m.rhost ∨
          firstForward s m = some (m.proto, rhost, m.iaddr, m.iport) ∧ iport = m.iport
  | .delete eport proto =>
      ∀ m ∈ s.live.find? (Mapping.has eport proto),
        firstForward s m = some m.forwarding

/-- The NAT rules are those of the live mappings in the same order. -/
structure Mirrored (s : State) : Prop where
  redirects : (s.nft.prerouting.cache .RULE_NAT).map redirectionOf = s.live.map Mapping.redirection
  peers : s.nft.postrouting.rules = []
  filters : ∀ p ∈ s.nft.forward.cache .RULE_FILTER, p.type = .RULE_FILTER
  valid : ∀ m ∈ s.live, Ported m.proto ∧ m.iaddr ≠ 0 ∧ m.iport ≠ 0

section chains
variable {s : State}

theorem redirection_new {proto : UInt8} (ported : Ported proto) (handle : Nat)
    (userdata : CString) (ifIdx : Option Nat) (eport : UInt16) (ihost : InAddr) (iport : UInt16) :
    redirectionOf (tableCb .RULE_NAT
        { handle, userdata, exprs := ruleSetDnat ifIdx proto 0 eport ihost iport }) =
      (.RULE_NAT, some .NFT_NAT_DNAT, proto, eport, ihost, iport) := by
  have read := tableCb_dnat handle userdata ifIdx proto 0 eport ihost iport
  rw [read, if_pos ported]
  rfl

theorem forwarding_new {proto : UInt8} (ported : Ported proto) (handle : Nat) (userdata : CString)
    (ifIdx : Option Nat) (rhost iaddr : InAddr) (iport : UInt16) :
    let p := tableCb .RULE_FILTER
      { handle, userdata, exprs := ruleSetFilter ifIdx proto rhost iaddr iport 0 }
    p.type = .RULE_FILTER ∧ forwardingOf p = (proto, rhost, iaddr, iport) := by
  have read := tableCb_filter handle userdata ifIdx proto rhost iaddr iport 0
  rw [read, if_pos ported]
  exact ⟨rfl, rfl⟩

theorem mirrored_nat (mirrored : Mirrored s) {p : RuleT}
    (member : p ∈ s.nft.prerouting.cache .RULE_NAT) :
    p.type = .RULE_NAT ∧ p.natType = some .NFT_NAT_DNAT := by
  have inside : redirectionOf p ∈ s.live.map Mapping.redirection :=
    mirrored.redirects ▸ List.mem_map_of_mem member
  obtain ⟨m, _, same⟩ := List.mem_map.mp inside
  simp only [Mapping.redirection, redirectionOf, Prod.mk.injEq] at same
  exact ⟨same.1.symm, same.2.1.symm⟩

theorem headRedirect_eq (mirrored : Mirrored s) :
    headRedirect s.nft = s.nft.prerouting.cache .RULE_NAT := by
  refine List.filter_eq_self.mpr ?_
  intro p member
  simp [(mirrored_nat mirrored member).2]

theorem headFilter_eq {n : Nft}
    (filters : ∀ p ∈ n.forward.cache .RULE_FILTER, p.type = .RULE_FILTER) :
    headFilter n = n.forward.cache .RULE_FILTER := by
  refine List.filter_eq_self.mpr ?_
  intro p member
  simp [filters p member]

/-- The test that both the lookup and the removal of a redirection come down to. -/
def redirects (eport : UInt16) (proto : UInt8) (r : Redirection) : Bool :=
  r.2.2.2.1 = eport ∧ r.2.2.1 = proto

theorem natMatches_eq (mirrored : Mirrored s) (eport : UInt16) (proto : UInt8) {p : RuleT}
    (member : p ∈ s.nft.prerouting.cache .RULE_NAT) :
    natMatches .NFT_NAT_DNAT eport proto.toNat p = redirects eport proto (redirectionOf p) := by
  obtain ⟨nat, dnat⟩ := mirrored_nat mirrored member
  have same : p.eport = eport ∧ (p.proto.toNat : Int) = proto.toNat ∧ p.type = .RULE_NAT ∧
      p.natType = some .NFT_NAT_DNAT ↔ p.eport = eport ∧ p.proto = proto := by
    rw [proto_eq_iff, nat, dnat]
    simp
  exact decide_eq_decide.mpr same

theorem redirectMatches_eq (eport : UInt16) (proto : UInt8) (p : RuleT) :
    redirectMatches eport proto.toNat p = redirects eport proto (redirectionOf p) := by
  have same : (p.proto.toNat : Int) = proto.toNat ∧ p.eport = eport ↔
      p.eport = eport ∧ p.proto = proto := by
    rw [proto_eq_iff, and_comm]
  exact decide_eq_decide.mpr same

theorem find_redirection (mirrored : Mirrored s) (eport : UInt16) (proto : UInt8) :
    ((s.nft.prerouting.cache .RULE_NAT).find? fun p => redirects eport proto (redirectionOf p)).map
        redirectionOf =
      (s.live.find? (Mapping.has eport proto)).map Mapping.redirection := by
  have left := List.find?_map (p := redirects eport proto) (f := redirectionOf)
    (l := s.nft.prerouting.cache .RULE_NAT)
  have right := List.find?_map (p := redirects eport proto) (f := Mapping.redirection)
    (l := s.live)
  rw [mirrored.redirects] at left
  exact left.symm.trans right

theorem erase_redirection (mirrored : Mirrored s) (eport : UInt16) (proto : UInt8) :
    ((s.nft.prerouting.cache .RULE_NAT).eraseP fun p =>
        redirects eport proto (redirectionOf p)).map redirectionOf =
      (s.live.eraseP (Mapping.has eport proto)).map Mapping.redirection := by
  have left := List.eraseP_map (p := redirects eport proto) (f := redirectionOf)
    (l := s.nft.prerouting.cache .RULE_NAT)
  have right := List.eraseP_map (p := redirects eport proto) (f := Mapping.redirection)
    (l := s.live)
  rw [mirrored.redirects] at left
  exact left.symm.trans right

/-- What the lookup finds, and the first of its rules that the removal finds, is the rule of the
    live mapping. -/
theorem lookup_cases (mirrored : Mirrored s) (eport : UInt16) (proto : UInt8) :
    s.live.find? (Mapping.has eport proto) = none ∧
        getNatRedirectRule eport proto.toNat s.nft = none ∧
        (headRedirect s.nft).find? (natMatches .NFT_NAT_DNAT eport proto.toNat) = none ∨
      ∃ m p, s.live.find? (Mapping.has eport proto) = some m ∧ redirectionOf p = m.redirection ∧
        getNatRedirectRule eport proto.toNat s.nft = some p ∧
        (headRedirect s.nft).find? (natMatches .NFT_NAT_DNAT eport proto.toNat) = some p := by
  have found := find_redirection mirrored eport proto
  have removal : (headRedirect s.nft).find? (natMatches .NFT_NAT_DNAT eport proto.toNat) =
      (s.nft.prerouting.cache .RULE_NAT).find? fun p => redirects eport proto (redirectionOf p) := by
    rw [headRedirect_eq mirrored]
    exact List.find?_congr fun p member => natMatches_eq mirrored eport proto member
  have lookup : getNatRedirectRule eport proto.toNat s.nft =
      (s.nft.prerouting.cache .RULE_NAT).find? fun p => redirects eport proto (redirectionOf p) := by
    rw [getNatRedirectRule, headRedirect_eq mirrored]
    exact congrArg (List.find? · _) (funext (redirectMatches_eq eport proto))
  rw [lookup, removal]
  cases rule : (s.nft.prerouting.cache .RULE_NAT).find? fun p =>
      redirects eport proto (redirectionOf p) with
  | none =>
    rw [rule] at found
    exact .inl ⟨Option.map_eq_none_iff.mp found.symm, rfl, rfl⟩
  | some p =>
    rw [rule] at found
    obtain ⟨m, there, same⟩ := Option.map_eq_some_iff.mp found.symm
    exact .inr ⟨m, p, there, same.symm, rfl, rfl⟩

theorem delForward_frame (iport : UInt16) (iaddr : InAddr) (nft : Nft) :
    (delForward iport iaddr nft).prerouting = nft.prerouting ∧
      (delForward iport iaddr nft).postrouting = nft.postrouting := by
  unfold delForward
  split <;> exact ⟨rfl, rfl⟩

theorem delForward_cache {n : Nft}
    (filters : ∀ p ∈ n.forward.cache .RULE_FILTER, p.type = .RULE_FILTER)
    (iport : UInt16) (iaddr : InAddr) :
    (delForward iport iaddr n).forward.cache .RULE_FILTER =
      (n.forward.cache .RULE_FILTER).eraseP (filterMatches iport iaddr) := by
  unfold delForward
  rw [headFilter_eq filters]
  cases first : (n.forward.cache .RULE_FILTER).find? (filterMatches iport iaddr) with
  | none => exact (eraseP_of_find?_none first).symm
  | some p => exact cache_delRule _ _ first

theorem delete_cases (mirrored : Mirrored s) (eport : UInt16) (proto : UInt8) :
    let nft := (deleteRedirectAndFilterRules eport proto.toNat s.nft).2
    s.live.find? (Mapping.has eport proto) = none ∧ nft = s.nft ∨
      ∃ m, s.live.find? (Mapping.has eport proto) = some m ∧
        (nft.prerouting.cache .RULE_NAT).map redirectionOf =
          (s.live.eraseP (Mapping.has eport proto)).map Mapping.redirection ∧
        nft.postrouting.rules = [] ∧
        nft.forward.cache .RULE_FILTER =
          (s.nft.forward.cache .RULE_FILTER).eraseP (filterMatches m.iport m.iaddr) := by
  have noPeer : ∀ nft : Nft, nft.postrouting = s.nft.postrouting → headPeer nft = [] := by
    intro nft same
    simp [headPeer, NftChain.cache, same, mirrored.peers]
  rcases lookup_cases mirrored eport proto with ⟨free, _, missing⟩ | ⟨m, p, there, same, _, found⟩
  · refine .inl ⟨free, ?_⟩
    simp [deleteRedirectAndFilterRules, missing, delForwardOf, noPeer s.nft rfl]
  · refine .inr ⟨m, there, ?_⟩
    obtain ⟨_, iaddr, iport⟩ := mirrored.valid m (List.mem_of_find?_eq_some there)
    simp only [redirectionOf, Mapping.redirection, Prod.mk.injEq] at same
    obtain ⟨_, _, _, _, sameAddr, samePort⟩ := same
    let erased : Nft := { s.nft with prerouting := s.nft.prerouting.delRule p.handle }
    obtain ⟨pre, post⟩ := delForward_frame m.iport m.iaddr erased
    have result : (deleteRedirectAndFilterRules eport proto.toNat s.nft).2 =
        delForward m.iport m.iaddr erased := by
      simp only [deleteRedirectAndFilterRules, found, delForwardOf, sameAddr, samePort]
      rw [if_pos ⟨iaddr, iport⟩, noPeer _ post]
      rfl
    rw [result, pre, post]
    refine ⟨?_, mirrored.peers, delForward_cache (n := erased) mirrored.filters _ _⟩
    rw [← erase_redirection mirrored]
    rw [headRedirect_eq mirrored] at found
    have gone := cache_delRule .RULE_NAT s.nft.prerouting found
    rw [show erased.prerouting = s.nft.prerouting.delRule p.handle from rfl, gone]
    exact congrArg _ (eraseP_congr fun q member => natMatches_eq mirrored eport proto member)

end chains

section steps
variable {s : State}

/-- The chains after a mapping has been added to those of `n`. -/
theorem add_chains {proto : UInt8} (ported : Ported proto) (ifIdx : Option Nat)
    (rhost : Option CString) (eport : UInt16) (iaddr : CString) (iport : UInt16)
    (desc : Option CString) (timestamp : Nat) (n : Nft) :
    let n' := (addFilterRule2 ifIdx rhost iaddr iport proto.toNat desc
      (addRedirectRule2 ifIdx rhost eport iaddr iport proto.toNat desc timestamp n).2).2
    (n'.prerouting.cache .RULE_NAT).map redirectionOf =
        (.RULE_NAT, some .NFT_NAT_DNAT, proto, eport, inetAddr iaddr, iport) ::
          (n.prerouting.cache .RULE_NAT).map redirectionOf ∧
      n'.postrouting = n.postrouting ∧
      ∃ p, n'.forward.cache .RULE_FILTER = p :: n.forward.cache .RULE_FILTER ∧
        p.type = .RULE_FILTER ∧
        forwardingOf p = (proto, (hostGiven rhost).getD 0, inetAddr iaddr, iport) := by
  simp only [addFilterRule2, addRedirectRule2, addTimestampEntry, ofInt_proto, cache_newRule,
    List.map_cons, redirection_new ported, true_and]
  exact ⟨_, rfl, forwarding_new ported _ _ _ _ _ _⟩

theorem update_cases (mirrored : Mirrored s) (ifIdx : Option Nat) (buffers : Buffers)
    (eport : UInt16) (proto : UInt8) (iport : UInt16) (desc : Option CString) (timestamp : Nat) :
    let updated := updatePortmapping ifIdx buffers eport proto.toNat iport desc timestamp s.nft
    s.live.find? (Mapping.has eport proto) = none ∧ updated = (-1, s.nft) ∨
      ∃ m, s.live.find? (Mapping.has eport proto) = some m ∧ updated =
        addFilterRule2 ifIdx (some buffers.rhost) (inetNtoa m.iaddr) iport proto.toNat desc
          (addRedirectRule2 ifIdx (some buffers.rhost) eport (inetNtoa m.iaddr) iport proto.toNat
            desc timestamp (deleteRedirectAndFilterRules eport proto.toNat s.nft).2).2 := by
  unfold updatePortmapping
  rcases lookup_cases mirrored eport proto with ⟨free, missing, _⟩ | ⟨m, p, there, same, found, _⟩
  · exact .inl ⟨free, by rw [missing]⟩
  · refine .inr ⟨m, there, ?_⟩
    obtain ⟨_, iaddr, _⟩ := mirrored.valid m (List.mem_of_find?_eq_some there)
    simp only [redirectionOf, Mapping.redirection, Prod.mk.injEq] at same
    obtain ⟨_, _, _, _, sameAddr, _⟩ := same
    rw [found]
    simp only [sameAddr, iaddr, ne_eq, not_false_eq_true, ↓reduceIte]

theorem has_found {eport : UInt16} {proto : UInt8} {m : Mapping}
    (there : s.live.find? (Mapping.has eport proto) = some m) : m.eport = eport ∧ m.proto = proto := by
  simpa [Mapping.has] using List.find?_some there

theorem step_mirrored (mirrored : Mirrored s) {request : Request} (allowed : Allowed s request) :
    Mirrored (step s request) := by
  cases request with
  | add ifIdx rhost eport iaddr iport proto desc timestamp =>
    obtain ⟨ported, addr, port, _⟩ := allowed
    obtain ⟨redirects, peers, p, forward, filter, _⟩ :=
      add_chains ported ifIdx rhost eport iaddr iport (some desc) timestamp s.nft
    refine ⟨?_, ?_, ?_, ?_⟩
    · rw [mirrored.redirects] at redirects
      exact redirects
    · exact peers ▸ mirrored.peers
    · intro q member
      rw [step, forward, List.mem_cons] at member
      rcases member with rfl | old
      · exact filter
      · exact mirrored.filters q old
    · intro m member
      rcases List.mem_cons.mp member with rfl | old
      · exact ⟨ported, addr, port⟩
      · exact mirrored.valid m old
  | delete eport proto =>
    rcases delete_cases mirrored eport proto with ⟨free, same⟩ | ⟨m, _, redirects, peers, forward⟩
    · rw [step, same, eraseP_of_find?_none free]
      exact mirrored
    · refine ⟨redirects, peers, ?_, ?_⟩
      · intro p member
        rw [step, forward] at member
        exact mirrored.filters p (List.mem_of_mem_eraseP member)
      · intro q member
        exact mirrored.valid q (List.mem_of_mem_eraseP member)
  | update ifIdx buffers eport proto iport desc timestamp =>
    rcases update_cases mirrored ifIdx buffers eport proto iport (some desc) timestamp with
      ⟨free, same⟩ | ⟨m, there, same⟩
    · rw [step, same, free]
      exact mirrored
    · rcases delete_cases mirrored eport proto with ⟨free, _⟩ | ⟨m', there', redirects, peers, forward⟩
      · rw [free] at there
        exact absurd there (by simp)
      · rw [there] at there'
        obtain rfl := Option.some.inj there'
        obtain ⟨rfl, rfl⟩ := has_found there
        obtain ⟨ported, addr, _⟩ := mirrored.valid m (List.mem_of_find?_eq_some there)
        obtain ⟨added, post, p, front, filter, _⟩ :=
          add_chains ported ifIdx (some buffers.rhost) m.eport (inetNtoa m.iaddr) iport (some desc)
            timestamp (deleteRedirectAndFilterRules m.eport m.proto.toNat s.nft).2
        simp only [step, same, there]
        refine ⟨?_, ?_, ?_, ?_⟩
        · rw [redirects, inetAddr_inetNtoa] at added
          exact added
        · exact post ▸ peers
        · intro q member
          rw [front, forward, List.mem_cons] at member
          rcases member with rfl | old
          · exact filter
          · exact mirrored.filters q (List.mem_of_mem_eraseP old)
        · intro q member
          rcases List.mem_cons.mp member with rfl | old
          · exact ⟨ported, addr, allowed⟩
          · exact mirrored.valid q (List.mem_of_mem_eraseP old)

end steps

section exact
variable {s : State}

/-- Two entries are exchanged for two others without a change exactly if they are the same. -/
theorem exchange_iff {α : Type*} {f a b c : α} {F L : Multiset α} (before : f ::ₘ F = c ::ₘ L) :
    a ::ₘ F = b ::ₘ L ↔ f = c ∧ a = b ∨ f = a ∧ b = c := by
  constructor
  · intro after
    have pairs : (f ::ₘ {b} : Multiset α) + L = (a ::ₘ {c} : Multiset α) + L := by
      calc (f ::ₘ {b} : Multiset α) + L = f ::ₘ b ::ₘ L := by simp
        _ = f ::ₘ a ::ₘ F := by rw [after]
        _ = a ::ₘ f ::ₘ F := Multiset.cons_swap f a F
        _ = a ::ₘ c ::ₘ L := by rw [before]
        _ = (a ::ₘ {c} : Multiset α) + L := by simp
    have two := Multiset.add_left_inj.mp pairs
    rw [Multiset.cons_eq_cons] at two
    rcases two with ⟨same, rest⟩ | ⟨_, rest, left, right⟩
    · exact .inr ⟨same, Multiset.singleton_inj.mp rest⟩
    · have empty : rest = 0 := by
        have size := congrArg Multiset.card left
        simpa using size
      subst empty
      exact .inl ⟨(Multiset.singleton_inj.mp right).symm, (Multiset.singleton_inj.mp left).symm⟩
  · rintro (⟨rfl, rfl⟩ | ⟨rfl, rfl⟩)
    · rw [(Multiset.cons_inj_right _).mp before]
    · exact before

/-- A removal takes one rule out of the forward chain, and the mapping out of the live ones. -/
theorem removal (mirrored : Mirrored s) (holds : ForwardMatches s) {eport : UInt16}
    {proto : UInt8} {m : Mapping} (there : s.live.find? (Mapping.has eport proto) = some m) :
    ∃ f, firstForward s m = some f ∧
      f ::ₘ (((s.nft.forward.cache .RULE_FILTER).eraseP
        (filterMatches m.iport m.iaddr) : List RuleT) : Multiset RuleT).map forwardingOf =
      m.forwarding ::ₘ ((s.live.eraseP (Mapping.has eport proto) : List Mapping) :
        Multiset Mapping).map Mapping.forwarding := by
  have inside : m.forwarding ∈ (s.nft.forward.cache .RULE_FILTER : Multiset RuleT).map
      forwardingOf := by
    rw [holds]
    exact Multiset.mem_map_of_mem _ (List.mem_of_find?_eq_some there)
  obtain ⟨p, member, same⟩ := Multiset.mem_map.mp inside
  have hit : filterMatches m.iport m.iaddr p = true := by
    simp only [forwardingOf, Mapping.forwarding, Prod.mk.injEq] at same
    simp [filterMatches, same, mirrored.filters p member]
  cases first : (s.nft.forward.cache .RULE_FILTER).find? (filterMatches m.iport m.iaddr) with
  | none => exact absurd hit (List.find?_eq_none.mp first p member)
  | some q =>
    refine ⟨forwardingOf q, ?_, ?_⟩
    · rw [firstForward, headFilter_eq mirrored.filters, first]
      rfl
    · rw [← map_eq_cons_eraseP forwardingOf first, holds]
      exact map_eq_cons_eraseP Mapping.forwarding there

theorem step_exact (mirrored : Mirrored s) (holds : ForwardMatches s) {request : Request}
    (allowed : Allowed s request) : ForwardMatches (step s request) ↔ Paired s request := by
  cases request with
  | add ifIdx rhost eport iaddr iport proto desc timestamp =>
    obtain ⟨_, _, p, forward, _, same⟩ :=
      add_chains allowed.1 ifIdx rhost eport iaddr iport (some desc) timestamp s.nft
    refine iff_of_true ?_ trivial
    simp only [ForwardMatches, step, forward, ← Multiset.cons_coe, Multiset.map_cons, same]
    exact congrArg _ holds
  | delete eport proto =>
    rcases delete_cases mirrored eport proto with ⟨free, same⟩ | ⟨m, there, _, _, forward⟩
    · refine iff_of_true ?_ ?_
      · rw [step, same, eraseP_of_find?_none free]
        exact holds
      · intro m there
        rw [free] at there
        exact absurd there (by simp)
    · obtain ⟨f, first, before⟩ := removal mirrored holds there
      simp only [ForwardMatches, step, forward, Paired, there, Option.mem_def, Option.some.injEq,
        forall_eq', first]
      constructor
      · intro after
        rw [after] at before
        exact (Multiset.cons_inj_left _).mp before
      · rintro rfl
        exact (Multiset.cons_inj_right _).mp before
  | update ifIdx buffers eport proto iport desc timestamp =>
    rcases update_cases mirrored ifIdx buffers eport proto iport (some desc) timestamp with
      ⟨free, same⟩ | ⟨m, there, same⟩
    · refine iff_of_true ?_ ?_
      · rw [step, same, free]
        exact holds
      · intro m there
        rw [free] at there
        exact absurd there (by simp)
    · rcases delete_cases mirrored eport proto with ⟨free, _⟩ | ⟨m', there', _, _, forward⟩
      · rw [free] at there
        exact absurd there (by simp)
      · rw [there] at there'
        obtain rfl := Option.some.inj there'
        obtain ⟨f, first, before⟩ := removal mirrored holds there
        obtain ⟨rfl, rfl⟩ := has_found there
        have ported := (mirrored.valid m (List.mem_of_find?_eq_some there)).1
        obtain ⟨_, _, p, front, _, new⟩ :=
          add_chains ported ifIdx (some buffers.rhost) m.eport (inetNtoa m.iaddr) iport (some desc)
            timestamp (deleteRedirectAndFilterRules m.eport m.proto.toNat s.nft).2
        simp only [ForwardMatches, step, same, there, front, forward, ← Multiset.cons_coe,
          Multiset.map_cons, new, inetAddr_inetNtoa, exchange_iff before, Paired,
          Option.mem_def, Option.some.injEq, forall_eq', first]
        simp only [Mapping.forwarding, Prod.mk.injEq, true_and, and_true]
        constructor
        · rintro (removed | ⟨rfl, port⟩)
          · exact .inl removed
          · exact .inr ⟨by rw [port], port⟩
        · rintro (removed | ⟨rfl, port⟩)
          · exact .inl removed
          · exact .inr ⟨by rw [port], port⟩

end exact

theorem mirrored_start : Mirrored .start := by
  refine ⟨rfl, rfl, ?_, ?_⟩
  · intro p member
    exact absurd member (List.not_mem_nil)
  · intro m member
    exact absurd member (List.not_mem_nil)

/-- From empty chains, the rules of the forward chain are those of the live mappings after every
    request, exactly if each removal and each update takes a rule of its own mapping and each
    update has the remote host of the mapping in its buffer. -/
theorem forward_matches_iff (requests : List Request)
    (all : Admitted step Allowed .start requests) :
    Always step ForwardMatches .start requests ↔ Admitted step Paired .start requests := by
  have start : ForwardMatches .start := rfl
  refine allowed_always_iff Mirrored ?_ ?_ mirrored_start start all
  · intro s request mirrored allowed
    exact step_mirrored mirrored allowed
  · intro s request mirrored allowed holds
    exact step_exact mirrored holds allowed

instance (s : State) : (request : Request) → Decidable (Allowed s request)
  | .add .. => inferInstanceAs (Decidable (_ ∧ _))
  | .update .. => inferInstanceAs (Decidable (_ ≠ _))
  | .delete .. => isTrue trivial

instance (s : State) : (request : Request) → Decidable (Paired s request)
  | .add .. => isTrue trivial
  | .update .. => inferInstanceAs (Decidable (∀ m ∈ _, _ ∨ _))
  | .delete .. => inferInstanceAs (Decidable (∀ m ∈ _, _ = _))

/-- Two ports of a client, one of them moved, with an empty text in the buffer, then removed. -/
def twoPorts : List Request :=
  let add := fun eport iport => Request.add none none eport "192.168.1.2".toList iport 6 "web".toList 0
  let buffers := { iaddrStr := [], rhost := [] }
  [add 8080 80, add 8081 81, .update none buffers 8080 6 82 "web".toList 0, .delete 8080 6]

theorem twoPorts_matches : Always step ForwardMatches .start twoPorts :=
  (forward_matches_iff twoPorts (by decide +kernel)).mpr (by decide +kernel)

/-- One port of a client reached over TCP and over UDP, and the mapping for TCP removed. -/
def bothProtocols : List Request :=
  let add := fun proto => Request.add none none 8080 "192.168.1.2".toList 80 proto "web".toList 0
  [add 6, add 17, .delete 8080 6]

/-- The rule that is left is the one for TCP. -/
theorem bothProtocols_crossed :
    Admitted step Allowed .start bothProtocols ∧
      (let s := bothProtocols.foldl step .start
       (s.nft.forward.cache .RULE_FILTER).map RuleT.proto = [6] ∧ s.live.map Mapping.proto = [17]) ∧
      ¬ Always step ForwardMatches .start bothProtocols := by
  refine ⟨by decide +kernel, by decide +kernel, ?_⟩
  intro run
  have last := always_last run
  revert last
  unfold ForwardMatches
  decide +kernel

end ForwardRules
