import MiniUPnPd.Netfilter.Iptcrdr

/-!
The redirection functions over the tables that make up a mapping: the redirections, the
filter rules and the descriptions. The `_quiet` laws give the tables after a function
when no libiptc call fails, the `_cases` laws after every outcome of the calls.
-/
namespace IptcrdrSpec
open FirstMatch Iptc Iptcrdr

structure Tables where
  nat : List IptEntry
  forward : List IptEntry
  descs : List RdrDesc

def tables (nf : Netfilter) : Tables :=
  { nat := nf.chain .nat, forward := nf.chain .forward, descs := nf.rdrDescList }

variable {nf : Netfilter}

@[simp] theorem tables_nat (nf : Netfilter) : (tables nf).nat = nf.chain .nat := rfl

@[simp] theorem tables_forward (nf : Netfilter) : (tables nf).forward = nf.chain .forward := rfl

@[simp] theorem tables_descs (nf : Netfilter) : (tables nf).descs = nf.rdrDescList := rfl

@[simp] theorem tables_withResults (nf : Netfilter) (results : List Bool) :
    tables (nf.withResults results) = tables nf := rfl

@[simp] theorem tables_setDescs (nf : Netfilter) (descs : List RdrDesc) :
    tables (nf.setDescs descs) = { tables nf with descs } := rfl

@[simp] theorem tables_setChain (nf : Netfilter) (c : Chain) (rules : List IptEntry) :
    tables (nf.setChain c rules) =
      match c with
      | .nat => { tables nf with nat := rules }
      | .forward => { tables nf with forward := rules }
      | .postrouting => tables nf
      | .mangle => tables nf := by
  cases c <;> simp [tables]

@[simp] theorem tables_addRedirectDesc (eport : UInt16) (proto : Int) (desc : Option CString)
    (timestamp : Nat) (nf : Netfilter) :
    tables (addRedirectDesc eport proto desc timestamp nf) =
      { tables nf with
        descs := { timestamp, eport, proto := Int16.ofInt proto,
                   str := desc.getD "miniupnpd".toList } :: nf.rdrDescList } := rfl

@[simp] theorem tables_delRedirectDesc (eport : UInt16) (proto : Int) (nf : Netfilter) :
    tables (delRedirectDesc eport proto nf) =
      { tables nf with descs := nf.rdrDescList.eraseP (descMatches eport proto) } := rfl

@[simp] theorem quiet_addRedirectDesc {eport : UInt16} {proto : Int} {desc : Option CString}
    {timestamp : Nat} : (addRedirectDesc eport proto desc timestamp nf).Quiet ↔ nf.Quiet := Iff.rfl

@[simp] theorem quiet_delRedirectDesc {eport : UInt16} {proto : Int} :
    (delRedirectDesc eport proto nf).Quiet ↔ nf.Quiet := Iff.rfl

section lookups

theorem getRedirectRule_quiet (quiet : nf.Quiet) (eport : UInt16) (proto : Int) :
    getRedirectRule eport proto nf =
      (((nf.chain .nat).find? (redirectMatches proto eport)).map (readRule nf), nf) := by
  simp [getRedirectRule, iptcCalls_quiet 2 quiet]

theorem getRedirectRule_cases (eport : UInt16) (proto : Int) (nf : Netfilter) :
    ∃ results,
      getRedirectRule eport proto nf =
        (((nf.chain .nat).find? (redirectMatches proto eport)).map (readRule nf),
          nf.withResults results) ∨
      getRedirectRule eport proto nf = (none, nf.withResults results) := by
  obtain ⟨done, results, calls⟩ := iptcCalls_cases 2 nf
  refine ⟨results, ?_⟩
  cases done with
  | false => exact Or.inr (by simp [getRedirectRule, calls])
  | true =>
    left
    simp only [getRedirectRule, calls, ↓reduceIte, chain_withResults]
    rfl

@[simp] theorem getRedirectRule_tables (eport : UInt16) (proto : Int) (nf : Netfilter) :
    tables (getRedirectRule eport proto nf).2 = tables nf := by
  obtain ⟨results, read | failed⟩ := getRedirectRule_cases eport proto nf
  · simp [read]
  · simp [failed]

/-- A rule that the lookup returned is in the chain, under the key that was asked for. -/
theorem getRedirectRule_some {eport : UInt16} {proto : Int} {rule : RedirectRule}
    (found : (getRedirectRule eport proto nf).1 = some rule) :
    ∃ e, (nf.chain .nat).find? (redirectMatches proto eport) = some e ∧ rule = readRule nf e := by
  obtain ⟨results, read | failed⟩ := getRedirectRule_cases eport proto nf
  · rw [read, Option.map_eq_some_iff] at found
    obtain ⟨e, hit, same⟩ := found
    exact ⟨e, hit, same.symm⟩
  · rw [failed] at found
    simp at found

theorem getRedirectRuleByIndex_quiet (quiet : nf.Quiet) (index : Nat) :
    getRedirectRuleByIndex index nf = ((nf.chain .nat)[index]?.map (readRule nf), nf) := by
  simp [getRedirectRuleByIndex, iptcCalls_quiet 2 quiet]

theorem getPortmappingsInRange_quiet (quiet : nf.Quiet) (startport endport : UInt16)
    (proto : Int) :
    getPortmappingsInRange startport endport proto nf =
      (some (((nf.chain .nat).filter fun e =>
        proto = e.proto.toNat ∧ startport ≤ e.dpts.1 ∧ e.dpts.1 ≤ endport).map fun e =>
          e.dpts.1), nf) := by
  simp [getPortmappingsInRange, iptcCalls_quiet 2 quiet]

end lookups

section additions
variable (portTriggering : Bool) (rhost : Option CString) (eport : UInt16) (iaddr : CString)
  (iport : UInt16) (proto : Int) (desc : Option CString) (timestamp : Nat)

def describe (t : Tables) : Tables :=
  { t with
    nat := t.nat ++ [natRule proto eport iaddr iport rhost]
    descs := { timestamp, eport, proto := Int16.ofInt proto,
               str := desc.getD "miniupnpd".toList } :: t.descs }

theorem addRedirectRule2_quiet (quiet : nf.Quiet) :
    let added := addRedirectRule2 portTriggering rhost eport iaddr iport proto desc timestamp nf
    added.1 = 0 ∧ added.2.Quiet ∧
      tables added.2 = describe rhost eport iaddr iport proto desc timestamp (tables nf) := by
  have nat := append_quiet .nat (natRule proto eport iaddr iport rhost) quiet
  cases portTriggering with
  | false => simpa [addRedirectRule2, addnatrule, nat, describe] using quiet
  | true =>
    have still : (addRedirectDesc eport proto desc timestamp (nf.setChain .nat
        (nf.chain .nat ++ [natRule proto eport iaddr iport rhost]))).Quiet := by
      simpa using quiet
    have masquerade := append_quiet .postrouting (masqueradeRule proto eport iaddr iport rhost) still
    simp only [addRedirectRule2, addnatrule, nat, addmasqueraderule, ↓reduceIte, ge_iff_le,
      le_refl, masquerade]
    simpa [describe] using quiet

theorem addFilterRule2_quiet (quiet : nf.Quiet) :
    let added := addFilterRule2 rhost iaddr iport proto nf
    added.1 = 0 ∧ added.2.Quiet ∧
      tables added.2 =
        { tables nf with forward := nf.chain .forward ++ [filterRule proto rhost iaddr iport] } := by
  have forward := append_quiet .forward (filterRule proto rhost iaddr iport) quiet
  simpa [addFilterRule2, forward] using quiet

end additions

section deletions
variable (eport : UInt16) (proto : Int)

/-- The redirection, the first filter rule for its internal host and port, and the first
    description under its key. -/
def remove (t : Tables) : Tables :=
  { nat := t.nat.eraseP (redirectMatches proto eport)
    forward :=
      match t.nat.find? (redirectMatches proto eport) with
      | none => t.forward
      | some e => t.forward.eraseP (filterMatches proto e.target.minAll e.target.minIp)
    descs := t.descs.eraseP (descMatches eport proto) }

theorem deleteFilterOf_quiet (quiet : nf.Quiet) (e : IptEntry) :
    let deleted := deleteFilterOf e proto nf
    deleted.1 = 0 ∧ deleted.2.Quiet ∧
      tables deleted.2 =
        { tables nf with
          forward := (nf.chain .forward).eraseP
            (filterMatches proto e.target.minAll e.target.minIp) } := by
  simp only [deleteFilterOf, iptcCall_quiet quiet, ↓reduceIte]
  cases search : findFirst (filterMatches proto e.target.minAll e.target.minIp)
      (nf.chain .forward) with
  | none =>
    have kept := eraseP_of_find?_none (find?_of_findFirst_none search)
    exact ⟨rfl, quiet, by rw [kept]; rfl⟩
  | some hit =>
    have forward := delete_quiet hit.1 .forward quiet
    simp only [forward, eraseIdx_of_findFirst search]
    exact ⟨trivial, by simpa using quiet, by simp⟩

theorem deleteFilterOf_frame (e : IptEntry) (nf : Netfilter) :
    let deleted := deleteFilterOf e proto nf
    (tables deleted.2).nat = nf.chain .nat ∧ (tables deleted.2).descs = nf.rdrDescList := by
  obtain ⟨opened, results, call, _⟩ := iptcCall_cases nf
  cases opened with
  | false => simp [deleteFilterOf, call]
  | true =>
    simp only [deleteFilterOf, call, ↓reduceIte, chain_withResults]
    cases findFirst (filterMatches proto e.target.minAll e.target.minIp)
        (nf.chain .forward) with
    | none => simp
    | some hit =>
      obtain ⟨rest, done | failed⟩ := delete_cases hit.1 .forward (nf.withResults results)
      · simp [done]
      · simp [failed]

theorem deleteNatAndFilter_quiet (quiet : nf.Quiet) {index : Nat} {e : IptEntry}
    (found : findFirst (redirectMatches proto eport) (nf.chain .nat) = some (index, e)) :
    let deleted := deleteNatAndFilter index e proto nf
    deleted.1 = 0 ∧ deleted.2.Quiet ∧
      tables deleted.2 =
        { tables nf with
          nat := (nf.chain .nat).eraseP (redirectMatches proto eport)
          forward := (nf.chain .forward).eraseP
            (filterMatches proto e.target.minAll e.target.minIp) } := by
  have nat := delete_quiet index .nat quiet
  rw [eraseIdx_of_findFirst found] at nat
  have next : (nf.setChain .nat ((nf.chain .nat).eraseP (redirectMatches proto eport))).Quiet := by
    simpa using quiet
  have filter := deleteFilterOf_quiet proto next e
  simp only [deleteNatAndFilter, iptcCall_quiet quiet, ↓reduceIte, nat]
  exact ⟨filter.1, filter.2.1, by simp [filter.2.2]⟩

theorem deleteDscp_quiet (quiet : nf.Quiet) (iport : UInt16) (iaddr : InAddr) :
    let deleted := deleteDscp proto iport iaddr nf
    deleted.1 = 0 ∧ deleted.2.Quiet := by
  simp only [deleteDscp, iptcCall_quiet quiet, ↓reduceIte]
  cases findFirst (sourceMatches proto iport iaddr) (nf.chain .mangle) with
  | none => exact ⟨rfl, quiet⟩
  | some hit =>
    simp only [delete_quiet hit.1 .mangle quiet]
    exact ⟨trivial, by simpa using quiet⟩

theorem deletePeer_quiet (quiet : nf.Quiet) :
    let deleted := deletePeer eport proto nf
    deleted.1 ≤ 0 ∧ deleted.2.Quiet := by
  simp only [deletePeer, iptcCall_quiet quiet, ↓reduceIte]
  cases findFirst (peerMatches proto eport) (nf.chain .postrouting) with
  | none => exact ⟨by simp, quiet⟩
  | some hit =>
    simp only [delete_quiet hit.1 .postrouting quiet, ↓reduceIte]
    have still : (nf.setChain .postrouting
        ((nf.chain .postrouting).eraseIdx hit.1)).Quiet := by simpa using quiet
    have dscp := deleteDscp_quiet proto still hit.2.spts.1 hit.2.src
    exact ⟨by omega, dscp.2⟩

theorem deleteDscp_tables (iport : UInt16) (iaddr : InAddr) (nf : Netfilter) :
    tables (deleteDscp proto iport iaddr nf).2 = tables nf := by
  obtain ⟨opened, results, call, _⟩ := iptcCall_cases nf
  cases opened with
  | false => simp [deleteDscp, call]
  | true =>
    simp only [deleteDscp, call, ↓reduceIte, chain_withResults]
    cases findFirst (sourceMatches proto iport iaddr) (nf.chain .mangle) with
    | none => simp
    | some hit =>
      obtain ⟨rest, done | failed⟩ := delete_cases hit.1 .mangle (nf.withResults results)
      · simp [done]
      · simp [failed]

theorem deletePeer_tables (nf : Netfilter) :
    tables (deletePeer eport proto nf).2 = tables nf := by
  obtain ⟨opened, results, call, _⟩ := iptcCall_cases nf
  cases opened with
  | false => simp [deletePeer, call]
  | true =>
    simp only [deletePeer, call, ↓reduceIte, chain_withResults]
    cases findFirst (peerMatches proto eport) (nf.chain .postrouting) with
    | none => simp
    | some hit =>
      obtain ⟨rest, done | failed⟩ := delete_cases hit.1 .postrouting (nf.withResults results)
      · simp [done, deleteDscp_tables]
      · simp [failed]

theorem deleteRedirectAndFilterRules_quiet (quiet : nf.Quiet) :
    let deleted := deleteRedirectAndFilterRules eport proto nf
    0 ≤ deleted.1 ∧ deleted.2.Quiet ∧ tables deleted.2 = remove eport proto (tables nf) := by
  simp only [deleteRedirectAndFilterRules, iptcCall_quiet quiet, ↓reduceIte,
    quiet_delRedirectDesc, tables_delRedirectDesc]
  cases search : findFirst (redirectMatches proto eport) (nf.chain .nat) with
  | none =>
    have missing := find?_of_findFirst_none search
    have peer := deletePeer_quiet eport proto quiet
    have same := deletePeer_tables eport proto nf
    have descs : (deletePeer eport proto nf).2.rdrDescList = nf.rdrDescList := by
      simpa using congrArg Tables.descs same
    refine ⟨by simpa using peer.1, peer.2, ?_⟩
    simp [same, descs, remove, missing, eraseP_of_find?_none missing]
  | some hit =>
    have found := find?_of_findFirst search
    obtain ⟨zero, next, after⟩ := deleteNatAndFilter_quiet eport proto quiet search
    have peer := deletePeer_quiet eport proto next
    have same := deletePeer_tables eport proto (deleteNatAndFilter hit.1 hit.2 proto nf).2
    have descs : (deletePeer eport proto (deleteNatAndFilter hit.1 hit.2 proto nf).2).2.rdrDescList =
        nf.rdrDescList := by
      rw [after] at same
      simpa using congrArg Tables.descs same
    refine ⟨by simp [zero], peer.2, ?_⟩
    simp [same, after, descs, remove, found]

theorem deleteNatAndFilter_exact {index : Nat} {e : IptEntry}
    (found : findFirst (redirectMatches proto eport) (nf.chain .nat) = some (index, e)) :
    let deleted := deleteNatAndFilter index e proto nf
    (tables deleted.2).descs = nf.rdrDescList ∧
      (tables deleted.2).nat =
        if callsSucceed 3 nf.iptcResults then (nf.chain .nat).eraseP (redirectMatches proto eport)
        else nf.chain .nat := by
  have three := callsSucceed_add 1 2 nf.iptcResults
  cases opened : callsSucceed 1 nf.iptcResults with
  | false =>
    obtain ⟨results, call⟩ := iptcCall_failed opened
    have filter := deleteFilterOf_frame proto e (nf.withResults results)
    simp only [deleteNatAndFilter, call, three, opened, Bool.false_and, Bool.false_eq_true,
      ↓reduceIte]
    exact ⟨filter.2, filter.1⟩
  | true =>
    have call := iptcCall_done opened
    simp only [deleteNatAndFilter, call, ↓reduceIte, three, opened, Bool.true_and]
    cases two : callsSucceed 2 (nf.iptcResults.drop 1) with
    | true =>
      have done := @delete_done index .nat (nf.withResults (nf.iptcResults.drop 1)) two
      have filter := deleteFilterOf_frame proto e
        (deleteRuleAndCommit index .nat (nf.withResults (nf.iptcResults.drop 1))).2
      simp only [done, ↓reduceIte] at filter ⊢
      exact ⟨filter.2, filter.1.trans (by simp [eraseIdx_of_findFirst found])⟩
    | false =>
      obtain ⟨results, failed⟩ :=
        @delete_failed index .nat (nf.withResults (nf.iptcResults.drop 1)) two
      rw [failed]
      exact ⟨rfl, rfl⟩

/-- The rule goes when five calls succeed; the description goes in every case but the
    first, whether or not the rule went. -/
theorem deleteRedirectAndFilterRules_exact (nf : Netfilter) :
    let deleted := deleteRedirectAndFilterRules eport proto nf
    (tables deleted.2).descs =
        (if callsSucceed 1 nf.iptcResults then nf.rdrDescList.eraseP (descMatches eport proto)
        else nf.rdrDescList) ∧
      (tables deleted.2).nat =
        if callsSucceed 5 nf.iptcResults then (nf.chain .nat).eraseP (redirectMatches proto eport)
        else nf.chain .nat := by
  have two := callsSucceed_add 1 1 nf.iptcResults
  have five := callsSucceed_add 2 3 nf.iptcResults
  cases opened : callsSucceed 1 nf.iptcResults with
  | false =>
    obtain ⟨results, call⟩ := iptcCall_failed opened
    simp [deleteRedirectAndFilterRules, call, five, two, opened]
  | true =>
    have call := iptcCall_done opened
    have finish : ∀ (mid : Netfilter), mid.rdrDescList = nf.rdrDescList →
        (deletePeer eport proto mid).2.rdrDescList = nf.rdrDescList ∧
          (deletePeer eport proto mid).2.chain .nat = mid.chain .nat := by
      intro mid kept
      have same := deletePeer_tables eport proto mid
      exact ⟨(congrArg Tables.descs same).trans kept, congrArg Tables.nat same⟩
    simp only [deleteRedirectAndFilterRules, call, ↓reduceIte, tables_delRedirectDesc]
    cases isChain : callsSucceed 1 (nf.iptcResults.drop 1) with
    | false =>
      obtain ⟨results, check⟩ :=
        @iptcCall_failed (nf.withResults (nf.iptcResults.drop 1)) isChain
      have done := finish (nf.withResults results) rfl
      simp only [check, five, two, opened, isChain]
      exact ⟨by simp [done.1], by simpa using done.2⟩
    | true =>
      have check := @iptcCall_done (nf.withResults (nf.iptcResults.drop 1)) isChain
      simp only [check, ↓reduceIte, withResults_withResults, chain_withResults,
        results_withResults, List.drop_drop, five, two, opened, isChain, Bool.true_and]
      cases search : findFirst (redirectMatches proto eport) (nf.chain .nat) with
      | none =>
        have done := finish (nf.withResults (nf.iptcResults.drop 2)) rfl
        have kept := eraseP_of_find?_none (find?_of_findFirst_none search)
        exact ⟨by simp [done.1], by simpa [kept] using done.2⟩
      | some hit =>
        have step := @deleteNatAndFilter_exact (nf.withResults (nf.iptcResults.drop 2)) eport proto
          _ _ search
        have done := finish (deleteNatAndFilter hit.1 hit.2 proto
          (nf.withResults (nf.iptcResults.drop 2))).2 step.1
        exact ⟨by simp [done.1], done.2.trans step.2⟩

theorem delete_result (index : Nat) (c : Chain) (nf : Netfilter) :
    (deleteRuleAndCommit index c nf).1 = 0 ∨ (deleteRuleAndCommit index c nf).1 = -1 := by
  obtain ⟨results, done | failed⟩ := delete_cases index c nf
  · simp [done]
  · simp [failed]

theorem deleteFilterOf_result (e : IptEntry) (nf : Netfilter) :
    (deleteFilterOf e proto nf).1 = 0 ∨ (deleteFilterOf e proto nf).1 = -1 := by
  unfold deleteFilterOf
  dsimp only
  split
  · split
    · exact .inl rfl
    · exact delete_result _ _ _
  · exact .inl rfl

theorem deleteNatAndFilter_result (index : Nat) (e : IptEntry) (nf : Netfilter) :
    (deleteNatAndFilter index e proto nf).1 = 0 ∨ (deleteNatAndFilter index e proto nf).1 = -1 := by
  unfold deleteNatAndFilter
  dsimp only
  split
  · rcases delete_result index .nat (iptcCall nf).2 with zero | negative
    · rw [if_pos zero]
      exact deleteFilterOf_result proto e _
    · rw [if_neg (by omega)]
      exact .inr negative
  · exact deleteFilterOf_result proto e _

theorem deleteDscp_result (iport : UInt16) (iaddr : InAddr) (nf : Netfilter) :
    (deleteDscp proto iport iaddr nf).1 = 0 ∨ (deleteDscp proto iport iaddr nf).1 = -1 := by
  unfold deleteDscp
  dsimp only
  split
  · split
    · exact .inl rfl
    · exact delete_result _ _ _
  · exact .inl rfl

theorem deletePeer_result (nf : Netfilter) :
    (deletePeer eport proto nf).1 = 0 ∨ (deletePeer eport proto nf).1 = -1 := by
  unfold deletePeer
  dsimp only
  split
  · split
    · exact .inr rfl
    · rename_i index e _
      rcases delete_result index .postrouting (iptcCall nf).2 with zero | negative
      · rw [if_pos zero]
        exact deleteDscp_result proto e.spts.1 e.src _
      · rw [if_neg (by omega)]
        exact .inr negative
  · exact .inr rfl

/-- The two results are multiplied, so only the first call of all makes the product
    negative. -/
theorem deleteRedirectAndFilterRules_negative (nf : Netfilter) :
    (deleteRedirectAndFilterRules eport proto nf).1 < 0 ↔
      callsSucceed 1 nf.iptcResults = false := by
  cases opened : callsSucceed 1 nf.iptcResults with
  | false =>
    obtain ⟨results, call⟩ := iptcCall_failed opened
    simp [deleteRedirectAndFilterRules, call]
  | true =>
    simp only [deleteRedirectAndFilterRules, iptcCall_done opened, ↓reduceIte]
    generalize iptcCall (nf.withResults (nf.iptcResults.drop 1)) = check
    generalize (if check.1 then findFirst (redirectMatches proto eport) (check.2.chain .nat)
      else none) = found
    have product : ∀ {r r2 : Int}, r = 0 ∨ r = -1 → r2 = 0 ∨ r2 = -1 → ¬ r * r2 < 0 := by
      rintro r r2 (rfl | rfl) (rfl | rfl) <;> decide
    simp only [Bool.true_eq_false, iff_false]
    cases found with
    | none => exact product (.inr rfl) (deletePeer_result eport proto _)
    | some hit =>
      exact product (deleteNatAndFilter_result proto hit.1 hit.2 _)
        (deletePeer_result eport proto _)

end deletions

section updates
variable (eport : UInt16) (proto : Int) (iport : UInt16) (desc : Option CString) (timestamp : Nat)

def redescribe (t : Tables) : Tables :=
  { t with
    descs := { timestamp, eport, proto := Int16.ofInt proto,
               str := desc.getD "miniupnpd".toList } ::
      t.descs.eraseP (descMatches eport proto) }

/-- The internal port is changed in the redirection and in the first filter rule for the
    old internal host and port. -/
def renumber (t : Tables) : Tables :=
  match t.nat.find? (redirectMatches proto eport) with
  | none => t
  | some e =>
    let nat := updateFirst (redirectMatches proto eport) (withIport iport) t.nat
    match t.forward.find? (filterMatches proto e.target.minAll e.target.minIp) with
    | none => { t with nat }
    | some _ =>
      redescribe eport proto desc timestamp
        { t with
          nat
          forward := updateFirst (filterMatches proto e.target.minAll e.target.minIp)
            (withDpts iport) t.forward }

@[simp] theorem updatePortmappingDescTimestamp_tables (nf : Netfilter) :
    tables (updatePortmappingDescTimestamp eport proto desc timestamp nf).2 =
      redescribe eport proto desc timestamp (tables nf) := rfl

@[simp] theorem quiet_updatePortmappingDescTimestamp :
    (updatePortmappingDescTimestamp eport proto desc timestamp nf).2.Quiet ↔ nf.Quiet := Iff.rfl

theorem updateSnat_tables (oldIport : UInt16) (iaddr : InAddr) (nf : Netfilter) :
    tables (updateSnat eport proto oldIport iaddr iport nf) = tables nf := by
  obtain ⟨done, results, calls⟩ := iptcCalls_cases 2 nf
  cases done with
  | false => simp [updateSnat, calls]
  | true =>
    simp only [updateSnat, calls, ↓reduceIte, chain_withResults]
    cases findFirst (fun e => peerMatches proto eport e && sourceMatches proto oldIport iaddr e)
        (nf.chain .postrouting) with
    | none => simp
    | some hit =>
      obtain ⟨rest, done | failed⟩ :=
        update_cases .postrouting hit.1 (withSpts iport hit.2) (nf.withResults results)
      · simp [done]
      · simp [failed]

theorem updateSnat_quiet (quiet : nf.Quiet) (oldIport : UInt16) (iaddr : InAddr) :
    (updateSnat eport proto oldIport iaddr iport nf).Quiet := by
  simp only [updateSnat, iptcCalls_quiet 2 quiet, ↓reduceIte]
  cases findFirst (fun e => peerMatches proto eport e && sourceMatches proto oldIport iaddr e)
      (nf.chain .postrouting) with
  | none => exact quiet
  | some hit =>
    simp only [update_quiet .postrouting hit.1 (withSpts iport hit.2) quiet]
    simpa using quiet

theorem updateFilter_quiet (quiet : nf.Quiet) (oldIport : UInt16) (iaddr : InAddr) :
    let updated := updateFilter proto oldIport iaddr iport nf
    updated.2.Quiet ∧
      (updated.1 < 0 ↔ (nf.chain .forward).find? (filterMatches proto oldIport iaddr) = none) ∧
      tables updated.2 =
        { tables nf with
          forward := updateFirst (filterMatches proto oldIport iaddr) (withDpts iport)
            (nf.chain .forward) } := by
  simp only [updateFilter, iptcCalls_quiet 2 quiet, ↓reduceIte]
  cases search : findFirst (filterMatches proto oldIport iaddr) (nf.chain .forward) with
  | none =>
    have missing := find?_of_findFirst_none search
    have kept := updateFirst_of_find?_none missing (withDpts iport)
    exact ⟨quiet, by simp [missing], by rw [kept]; rfl⟩
  | some hit =>
    have found := find?_of_findFirst search
    have done := update_quiet .forward hit.1 (withDpts iport hit.2) quiet
    simp only [done, set_of_findFirst search, found]
    exact ⟨by simpa using quiet, by simp, by simp⟩

theorem updateFilter_frame (oldIport : UInt16) (iaddr : InAddr) (nf : Netfilter) :
    let updated := updateFilter proto oldIport iaddr iport nf
    (tables updated.2).nat = nf.chain .nat ∧ (tables updated.2).descs = nf.rdrDescList := by
  obtain ⟨done, results, calls⟩ := iptcCalls_cases 2 nf
  cases done with
  | false => simp [updateFilter, calls]
  | true =>
    simp only [updateFilter, calls, ↓reduceIte, chain_withResults]
    cases findFirst (filterMatches proto oldIport iaddr) (nf.chain .forward) with
    | none => simp
    | some hit =>
      obtain ⟨rest, done | failed⟩ :=
        update_cases .forward hit.1 (withDpts iport hit.2) (nf.withResults results)
      · simp [done]
      · simp [failed]

@[simp] theorem getRedirectDesc_added (nf : Netfilter) :
    getRedirectDesc eport proto (addRedirectDesc eport proto desc timestamp nf) =
      (desc.getD "miniupnpd".toList, timestamp) := by
  simp [getRedirectDesc, addRedirectDesc]

/-- An update that succeeds has recorded the description and the expiry. -/
theorem updatePortmapping_recorded (portTriggering : Bool) (nf : Netfilter)
    (done : (updatePortmapping portTriggering eport proto iport desc timestamp nf).1 = 0) :
    getRedirectDesc eport proto
        (updatePortmapping portTriggering eport proto iport desc timestamp nf).2 =
      (desc.getD "miniupnpd".toList, timestamp) := by
  unfold updatePortmapping at done ⊢
  dsimp only at done ⊢
  split at done
  · rename_i opened
    rw [if_pos opened]
    split at done
    · simp at done
    · rename_i index e found
      split at done
      · rename_i failed
        omega
      · rename_i changed
        rw [if_neg changed]
        split at done
        · rename_i failed
          omega
        · rename_i filtered
          rw [if_neg filtered]
          exact getRedirectDesc_added eport proto desc timestamp _
  · simp at done

theorem updatePortmapping_quiet (quiet : nf.Quiet) (portTriggering : Bool) :
    let updated := updatePortmapping portTriggering eport proto iport desc timestamp nf
    updated.2.Quiet ∧
      tables updated.2 = renumber eport proto iport desc timestamp (tables nf) := by
  simp only [updatePortmapping, iptcCalls_quiet 2 quiet, ↓reduceIte, renumber, tables_nat]
  cases search : findFirst (redirectMatches proto eport) (nf.chain .nat) with
  | none =>
    simp only [find?_of_findFirst_none search]
    exact ⟨quiet, trivial⟩
  | some hit =>
    have nat := update_quiet .nat hit.1 (withIport iport hit.2) quiet
    rw [set_of_findFirst search] at nat
    generalize here : nf.setChain .nat
      (updateFirst (redirectMatches proto eport) (withIport iport) (nf.chain .nat)) = mid at nat
    have next : mid.Quiet := by simpa [← here] using quiet
    have view : tables mid = { tables nf with
        nat := updateFirst (redirectMatches proto eport) (withIport iport) (nf.chain .nat) } := by
      simp [← here]
    have forward : mid.chain .forward = nf.chain .forward := congrArg Tables.forward view
    obtain ⟨still, missing, after⟩ :=
      updateFilter_quiet proto iport next hit.2.target.minAll hit.2.target.minIp
    rw [forward] at missing
    simp only [nat, find?_of_findFirst search, tables_forward]
    cases filter : (nf.chain .forward).find?
        (filterMatches proto hit.2.target.minAll hit.2.target.minIp) with
    | none =>
      have kept := updateFirst_of_find?_none filter (withDpts iport)
      rw [forward, kept, view] at after
      simp only [missing.mpr filter, ↓reduceIte, Int.reduceLT]
      exact ⟨still, after⟩
    | some f =>
      have done : ¬ (updateFilter proto hit.2.target.minAll hit.2.target.minIp iport mid).1 < 0 := by
        rw [missing, filter]
        simp
      simp only [done, ↓reduceIte, Int.reduceLT]
      rw [forward, view] at after
      cases portTriggering with
      | false => exact ⟨still, by simp [after]⟩
      | true =>
        have snat := updateSnat_quiet eport proto iport still hit.2.target.minAll hit.2.target.minIp
        exact ⟨snat, by simp [updateSnat_tables, after]⟩

theorem updatePortmapping_cases (portTriggering : Bool) (nf : Netfilter) :
    let updated := updatePortmapping portTriggering eport proto iport desc timestamp nf
    ((tables updated.2).nat = nf.chain .nat ∨
        (tables updated.2).nat =
          updateFirst (redirectMatches proto eport) (withIport iport) (nf.chain .nat)) ∧
      ((tables updated.2).descs = nf.rdrDescList ∨
        (tables updated.2).descs = (redescribe eport proto desc timestamp (tables nf)).descs) := by
  obtain ⟨done, results, calls⟩ := iptcCalls_cases 2 nf
  cases done with
  | false => simp [updatePortmapping, calls]
  | true =>
    simp only [updatePortmapping, calls, ↓reduceIte, chain_withResults]
    cases search : findFirst (redirectMatches proto eport) (nf.chain .nat) with
    | none => simp
    | some hit =>
      obtain ⟨rest, done | failed⟩ :=
        update_cases .nat hit.1 (withIport iport hit.2) (nf.withResults results)
      · rw [chain_withResults, set_of_findFirst search] at done
        generalize here : ((nf.withResults results).withResults rest).setChain .nat
          (updateFirst (redirectMatches proto eport) (withIport iport) (nf.chain .nat)) = mid
          at done
        have view : tables mid = { tables nf with
            nat := updateFirst (redirectMatches proto eport) (withIport iport)
              (nf.chain .nat) } := by
          simp [← here]
        obtain ⟨nat, descs⟩ :=
          updateFilter_frame proto iport hit.2.target.minAll hit.2.target.minIp mid
        have nat' := nat.trans (congrArg Tables.nat view)
        have descs' := descs.trans (congrArg Tables.descs view)
        simp only [done, Int.reduceLT, ↓reduceIte]
        split
        · exact ⟨Or.inr nat', Or.inl descs'⟩
        · refine ⟨Or.inr ?_, Or.inr ?_⟩
          · cases portTriggering with
            | false => simpa [redescribe] using nat'
            | true => simpa [redescribe, updateSnat_tables] using nat'
          · have kept : (if portTriggering = true then
                updateSnat eport proto hit.2.target.minAll hit.2.target.minIp iport
                  (updateFilter proto hit.2.target.minAll hit.2.target.minIp iport mid).2
              else (updateFilter proto hit.2.target.minAll hit.2.target.minIp iport mid).2).rdrDescList =
                nf.rdrDescList := by
              cases portTriggering with
              | false => exact descs'
              | true => exact (congrArg Tables.descs (updateSnat_tables ..)).trans descs'
            simp [redescribe, kept]
      · simp [failed]

end updates

end IptcrdrSpec
