import MiniUPnPd.Netfilter.Iptpinhole

/-!
The IPv6 chain and the list of pinholes are changed one after the other, and the rule of a
pinhole is searched for by its fields. Both hold the same pinholes all the same, whatever
libip6tc calls fail.
-/
namespace PinholeChain
open FirstMatch Iptpinhole

abbrev RuleKey := UInt8 × BitVec 128 × (UInt16 × UInt16) × BitVec 128 × (UInt16 × UInt16)

/-- Protocol, source, source ports, destination and destination ports. -/
def ruleKey (e : Ip6tEntry) : RuleKey := (e.proto, e.src, e.spts, e.dst, e.dpts)

def pinholeKey (p : PinholeT) : RuleKey :=
  (p.proto, p.saddr, sourceRange p.sport, p.daddr, (p.dport, p.dport))

def Matched (fw : Firewall) : Prop :=
  (fw.chain : Multiset Ip6tEntry).map ruleKey = (fw.pinholeList : Multiset PinholeT).map pinholeKey

/-- What a removal that reports success has done. -/
def RemovedOne (uid : UInt16) (fw fw' : Firewall) : Prop :=
  ∃ p e, p.uid = uid ∧ ruleKey e = pinholeKey p ∧
    (fw.pinholeList : Multiset PinholeT) = p ::ₘ (fw'.pinholeList : Multiset PinholeT) ∧
    (∀ q ∈ fw'.pinholeList, q.uid ≠ uid) ∧
    (fw.chain : Multiset Ip6tEntry) = e ::ₘ (fw'.chain : Multiset Ip6tEntry)

/-- A call of one of the four functions. -/
inductive Op where
  | addPinhole (ifname remHost : Option CString) (remPort : UInt16) (intClient : CString)
      (intPort : UInt16) (proto : UInt8) (desc : CString) (timestamp : Nat)
  | updatePinhole (uid : UInt16) (timestamp : Nat)
  | deletePinhole (uid : UInt16)
  | cleanPinholeList (now : Nat)

/-- None when the call never returns. -/
def step (inetPton6 : CString → Option (BitVec 128)) (fw : Firewall) : Op → Option Firewall
  | .addPinhole ifname remHost remPort intClient intPort proto desc timestamp =>
      (Iptpinhole.addPinhole inetPton6 ifname remHost remPort intClient intPort proto desc timestamp
        fw).map (·.2)
  | .updatePinhole uid timestamp => some (Iptpinhole.updatePinhole uid timestamp fw).2
  | .deletePinhole uid => some (Iptpinhole.deletePinhole uid fw).2
  | .cleanPinholeList now => some (Iptpinhole.cleanPinholeList now fw).2

section keys
variable {fw fw' : Firewall} {p : PinholeT} {e : Ip6tEntry}

theorem sourceRange_fst (s : UInt16) : (sourceRange s).1 = s := by
  unfold sourceRange
  split
  · rename_i any
    exact any.symm
  · rfl

theorem matched_rule (matched : Matched fw) (member : p ∈ fw.pinholeList) :
    ∃ e ∈ fw.chain, ruleKey e = pinholeKey p := by
  have inside : pinholeKey p ∈ (fw.pinholeList : Multiset PinholeT).map pinholeKey :=
    Multiset.mem_map_of_mem _ member
  rw [← matched] at inside
  obtain ⟨e, there, same⟩ := Multiset.mem_map.mp inside
  exact ⟨e, there, same⟩

theorem matched_pinhole (matched : Matched fw) (member : e ∈ fw.chain) :
    ∃ p ∈ fw.pinholeList, pinholeKey p = ruleKey e := by
  have inside : ruleKey e ∈ (fw.chain : Multiset Ip6tEntry).map ruleKey :=
    Multiset.mem_map_of_mem _ member
  rw [matched] at inside
  obtain ⟨p, there, same⟩ := Multiset.mem_map.mp inside
  exact ⟨p, there, same⟩

theorem ruleMatches_of_key (same : ruleKey e = pinholeKey p) : ruleMatches p e = true := by
  simp only [ruleKey, pinholeKey, Prod.mk.injEq] at same
  obtain ⟨proto, src, spts, dst, dpts⟩ := same
  simp [ruleMatches, proto, src, spts, dst, dpts, sourceRange_fst]

/-- The search compares the first port of each range; the ranges in the chain are those of
    pinholes, so that the rule found is one of the pinhole. -/
theorem key_of_ruleMatches (matched : Matched fw) (member : e ∈ fw.chain)
    (hit : ruleMatches p e = true) : ruleKey e = pinholeKey p := by
  obtain ⟨q, _, same⟩ := matched_pinhole matched member
  simp only [ruleMatches, decide_eq_true_eq] at hit
  obtain ⟨proto, src, dst, sport, dport⟩ := hit
  simp only [ruleKey, pinholeKey, Prod.mk.injEq] at same ⊢
  obtain ⟨_, _, spts, _, dpts⟩ := same
  refine ⟨proto, src, ?_, dst, ?_⟩
  · rw [← spts, sourceRange_fst] at sport
    rw [← spts, sport]
  · rw [← dpts] at dport ⊢
    rw [← dport]

end keys

section calls
variable {fw fw' : Firewall}

/-- A removal fails and leaves both as they were, or it finds the pinhole and its rule. -/
theorem deletePinhole_cases (matched : Matched fw) (uid : UInt16) :
    let deleted := deletePinhole uid fw
    (deleted.1 ≠ 0 ∧ deleted.2.chain = fw.chain ∧ deleted.2.pinholeList = fw.pinholeList) ∨
      deleted.1 = 0 ∧ ∃ p e, getPinhole uid fw = some p ∧
        fw.chain.find? (ruleMatches p) = some e ∧
        deleted.2.chain = fw.chain.eraseP (ruleMatches p) ∧
        deleted.2.pinholeList = fw.pinholeList.eraseP fun q => q.uid = uid := by
  unfold deletePinhole
  cases found : getPinhole uid fw with
  | none => exact .inl ⟨by simp, rfl, rfl⟩
  | some p =>
    dsimp only
    split
    · rename_i opened
      cases search : findFirst (ruleMatches p) (fw.called 2).2.chain with
      | none =>
        have member : p ∈ fw.pinholeList := List.mem_of_find?_eq_some found
        obtain ⟨e, inside, same⟩ := matched_rule matched member
        have missing := List.find?_eq_none.mp (find?_of_findFirst_none search) e inside
        exact absurd (ruleMatches_of_key same) missing
      | some hit =>
        obtain ⟨index, e⟩ := hit
        dsimp only
        split
        · refine .inr ⟨rfl, p, e, rfl, find?_of_findFirst search, ?_, rfl⟩
          exact eraseIdx_of_findFirst search
        · exact .inl ⟨by simp, rfl, rfl⟩
    · exact .inl ⟨by simp, rfl, rfl⟩

theorem deletePinhole_removed (matched : Matched fw) {uid : UInt16}
    (done : (deletePinhole uid fw).1 = 0) : RemovedOne uid fw (deletePinhole uid fw).2 := by
  rcases deletePinhole_cases matched uid with ⟨failed, _⟩ | ⟨_, p, e, found, first, chain, list⟩
  · exact absurd done failed
  · have same := key_of_ruleMatches matched (List.mem_of_find?_eq_some first) (List.find?_some first)
    have named : p.uid = uid := by simpa using List.find?_some found
    have entry : (fw.pinholeList : Multiset PinholeT) =
        p ::ₘ ((deletePinhole uid fw).2.pinholeList : Multiset PinholeT) := by
      simpa [list] using map_eq_cons_eraseP id found
    have rule : (fw.chain : Multiset Ip6tEntry) =
        e ::ₘ ((deletePinhole uid fw).2.chain : Multiset Ip6tEntry) := by
      simpa [chain] using map_eq_cons_eraseP id first
    have once : ∀ q ∈ (deletePinhole uid fw).2.pinholeList, q.uid ≠ uid := by
      have both := ((Multiset.coe_eq_coe.mp entry).map PinholeT.uid).nodup_iff.mp fw.distinct
      intro q inside again
      exact (List.nodup_cons.mp both).1 (List.mem_map.mpr ⟨q, inside, again.trans named.symm⟩)
    exact ⟨p, e, named, same, entry, once, rule⟩

theorem deletePinhole_matched (matched : Matched fw) (uid : UInt16) :
    Matched (deletePinhole uid fw).2 := by
  rcases deletePinhole_cases matched uid with ⟨_, chain, list⟩ | ⟨done, _⟩
  · rw [Matched, chain, list]
    exact matched
  · obtain ⟨p, e, _, same, list, _, chain⟩ := deletePinhole_removed matched done
    unfold Matched at matched ⊢
    rw [list, chain, Multiset.map_cons, Multiset.map_cons, same] at matched
    exact (Multiset.cons_inj_right _).mp matched

theorem updatePinhole_matched (matched : Matched fw) (uid : UInt16) (timestamp : Nat) :
    Matched (updatePinhole uid timestamp fw).2 := by
  unfold updatePinhole
  split
  · exact matched
  · have same : ∀ p, pinholeKey (withTimestamp uid timestamp p) = pinholeKey p := by
      intro p
      unfold withTimestamp
      split <;> rfl
    unfold Matched at matched ⊢
    simpa [Function.comp_def, same] using matched

/-- A new pinhole goes to the head of the list and its rule to the end of the chain. -/
theorem addPinhole_cases {inetPton6 : CString → Option (BitVec 128)}
    {ifname remHost : Option CString} {remPort intPort : UInt16} {intClient desc : CString}
    {proto : UInt8} {timestamp : Nat} {r : Int}
    (added : addPinhole inetPton6 ifname remHost remPort intClient intPort proto desc timestamp fw =
      some (r, fw')) :
    (fw'.chain = fw.chain ∧ fw'.pinholeList = fw.pinholeList) ∨
      ∃ p e, ruleKey e = pinholeKey p ∧ fw'.chain = fw.chain ++ [e] ∧
        fw'.pinholeList = p :: fw.pinholeList := by
  unfold addPinhole at added
  dsimp only at added
  split at added
  · obtain ⟨⟨uid, next⟩, listed, same⟩ := Option.map_eq_some_iff.mp added
    obtain ⟨_, rfl⟩ := Prod.mk.inj same
    have chain := addToPinholeList_chain listed
    have list := addToPinholeList_some listed
    exact .inr ⟨_, _, rfl, chain, list⟩
  · obtain ⟨_, rfl⟩ := Prod.mk.inj (Option.some.inj added)
    exact .inl ⟨rfl, rfl⟩

theorem addPinhole_matched {inetPton6 : CString → Option (BitVec 128)}
    {ifname remHost : Option CString} {remPort intPort : UInt16} {intClient desc : CString}
    {proto : UInt8} {timestamp : Nat} {r : Int} (matched : Matched fw)
    (added : addPinhole inetPton6 ifname remHost remPort intClient intPort proto desc timestamp fw =
      some (r, fw')) : Matched fw' := by
  unfold Matched at matched ⊢
  rcases addPinhole_cases added with ⟨chain, list⟩ | ⟨p, e, same, chain, list⟩
  · rw [chain, list, matched]
  · rw [chain, list, ← Multiset.coe_add, Multiset.map_add, matched, ← Multiset.cons_coe p,
      Multiset.map_cons, ← same, ← Multiset.singleton_add, Multiset.add_comm]
    rfl

theorem cleanLoop_matched (now : Nat) (list : List PinholeT) (n minTs : Nat)
    (matched : Matched fw) : Matched (cleanLoop now list n minTs fw).2 := by
  induction list generalizing n minTs fw with
  | nil => exact matched
  | cons p rest ih =>
    unfold cleanLoop
    split
    · have next := deletePinhole_matched matched p.uid
      dsimp only
      split
      · exact ih _ _ next
      · exact next
    · exact ih _ _ matched

end calls

section runs
variable {inetPton6 : CString → Option (BitVec 128)}

theorem step_matched {fw fw' : Firewall} (op : Op) (matched : Matched fw)
    (done : step inetPton6 fw op = some fw') : Matched fw' := by
  cases op with
  | addPinhole ifname remHost remPort intClient intPort proto desc timestamp =>
    obtain ⟨⟨r, next⟩, added, rfl⟩ := Option.map_eq_some_iff.mp done
    exact addPinhole_matched matched added
  | updatePinhole uid timestamp =>
    obtain rfl := Option.some.inj done
    exact updatePinhole_matched matched uid timestamp
  | deletePinhole uid =>
    obtain rfl := Option.some.inj done
    exact deletePinhole_matched matched uid
  | cleanPinholeList now =>
    obtain rfl := Option.some.inj done
    exact cleanLoop_matched _ _ _ _ matched

theorem run_matched {fw fw' : Firewall} (ops : List Op) (matched : Matched fw)
    (run : ops.foldlM (step inetPton6) fw = some fw') : Matched fw' := by
  induction ops generalizing fw with
  | nil =>
    obtain rfl := Option.some.inj run
    exact matched
  | cons op ops ih =>
    rw [List.foldlM_cons] at run
    obtain ⟨next, done, rest⟩ := Option.bind_eq_some_iff.mp run
    exact ih (step_matched op matched done) rest

end runs

/-- After every sequence of calls from the empty chain, with any calls of libip6tc failing, the
    chain holds the rules of the pinholes in the list, and a removal that reports success takes
    out the pinhole with that uid and one rule of it. -/
theorem chain_matches_list (inetPton6 : CString → Option (BitVec 128)) (ip6tcResults : List Bool)
    (ops : List Op) (fw : Firewall)
    (run : ops.foldlM (step inetPton6) { Firewall.empty with ip6tcResults } = some fw) :
    Matched fw ∧ ∀ uid, (deletePinhole uid fw).1 = 0 → RemovedOne uid fw (deletePinhole uid fw).2 := by
  have start : Matched { Firewall.empty with ip6tcResults } := rfl
  have matched := run_matched ops start run
  exact ⟨matched, fun uid done => deletePinhole_removed matched done⟩

/-- Two pinholes that differ in the expiry time alone, the first of them removed after a commit
    has failed. -/
def twinPinholes : List Op :=
  let add := Op.addPinhole none none 0 "2001:db8::2".toList 80 6 "web".toList
  [add 100, add 200, .deletePinhole 1, .deletePinhole 1]

theorem twinPinholes_matched :
    ∃ fw, twinPinholes.foldlM (step fun _ => some 2)
        { Firewall.empty with ip6tcResults := List.replicate 10 true ++ [true, false] } = some fw ∧
      fw.pinholeList.map PinholeT.uid = [2] ∧ Matched fw := by
  have uids : (twinPinholes.foldlM (step fun _ => some 2)
      { Firewall.empty with ip6tcResults := List.replicate 10 true ++ [true, false] }).map
        (fun fw => fw.pinholeList.map PinholeT.uid) = some [2] := by decide
  obtain ⟨fw, run, left⟩ := Option.map_eq_some_iff.mp uids
  exact ⟨fw, run, left, (chain_matches_list _ _ _ fw run).1⟩

end PinholeChain
