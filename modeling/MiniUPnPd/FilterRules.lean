import MiniUPnPd.Lib.Runs
import MiniUPnPd.UpnpRedirectSpec

/-!
Every redirection has its own rule in the filter table. The filter rule does not carry
the external port: removing or renumbering a mapping takes the first filter rule for its
protocol, internal host and internal port. The tables stay in step exactly as long as
that first rule has the remote host of the mapping.
-/
namespace FilterRules
open FirstMatch Inet Iptc Iptcrdr IptcrdrSpec LeaseFile RuleKeys Runs UpnpPermissions
open UpnpRedirect
open UpnpRedirectSpec

abbrev RuleKey := UInt16 × (InAddr × InAddr) × InAddr × UInt16

def mappingKey (e : IptEntry) : RuleKey :=
  (e.proto, (e.src, e.smsk), e.target.minIp, e.target.minAll)

def filterKey (f : IptEntry) : RuleKey := (f.proto, (f.src, f.smsk), f.dst, f.dpts.1)

def OwnFilters (t : Tables) : Prop :=
  (t.nat : Multiset IptEntry).map mappingKey = (t.forward : Multiset IptEntry).map filterKey

def OwnFilterFirst (eport : UInt16) (proto : Int) (t : Tables) : Prop :=
  ∀ e f, t.nat.find? (redirectMatches proto eport) = some e →
    t.forward.find? (filterMatches proto e.target.minAll e.target.minIp) = some f →
    f.src = e.src ∧ f.smsk = e.smsk

section tables
variable {t : Tables} {e f : IptEntry} {eport : UInt16} {proto : Int} {iport : UInt16}

theorem shaped_of_own (own : OwnFilters t) : Shaped t := by
  have projected := congrArg (Multiset.map fun key : RuleKey => (key.1, key.2.2)) own
  simp only [Multiset.map_map] at projected
  exact projected

theorem same_key_iff (found : t.nat.find? (redirectMatches proto eport) = some e)
    (first : t.forward.find? (filterMatches proto e.target.minAll e.target.minIp) = some f) :
    mappingKey e = filterKey f ↔ f.src = e.src ∧ f.smsk = e.smsk := by
  have shape := shape_of_first found first
  simp only [natShape, filterShape, Prod.mk.injEq] at shape
  simp only [mappingKey, filterKey, Prod.mk.injEq, shape, true_and, and_true]
  constructor
  · intro same
    exact ⟨same.1.symm, same.2.symm⟩
  · intro same
    exact ⟨same.1.symm, same.2.symm⟩

theorem ownFilterFirst_iff (found : t.nat.find? (redirectMatches proto eport) = some e)
    (first : t.forward.find? (filterMatches proto e.target.minAll e.target.minIp) = some f) :
    OwnFilterFirst eport proto t ↔ mappingKey e = filterKey f := by
  rw [same_key_iff found first]
  constructor
  · intro own
    exact own e f found first
  · intro same e' f' found' first'
    rw [found, Option.some.injEq] at found'
    subst found'
    rw [first, Option.some.injEq] at first'
    subst first'
    exact same

theorem ownFilters_remove (own : OwnFilters t) :
    OwnFilters (remove eport proto t) ↔ OwnFilterFirst eport proto t := by
  cases found : t.nat.find? (redirectMatches proto eport) with
  | none =>
    have vacuous : OwnFilterFirst eport proto t := by
      intro e f hit
      simp [found] at hit
    have kept : OwnFilters (remove eport proto t) := by
      simpa [OwnFilters, remove, found, eraseP_of_find?_none found] using own
    exact ⟨fun _ => vacuous, fun _ => kept⟩
  | some e =>
    obtain ⟨f, first⟩ := filter_exists (shaped_of_own own) found
    rw [ownFilterFirst_iff found first]
    have left := map_eq_cons_eraseP mappingKey found
    have right := map_eq_cons_eraseP filterKey first
    unfold OwnFilters at own
    rw [left, right] at own
    simp only [OwnFilters, remove, found]
    constructor
    · intro rest
      rw [rest] at own
      exact (Multiset.cons_inj_left _).mp own
    · intro same
      rw [same] at own
      exact (Multiset.cons_inj_right _).mp own

theorem ownFilters_renumber (own : OwnFilters t) (desc : Option CString) (timestamp : Nat)
    (found : t.nat.find? (redirectMatches proto eport) = some e)
    (other : iport ≠ e.target.minAll) :
    OwnFilters (renumber eport proto iport desc timestamp t) ↔ OwnFilterFirst eport proto t := by
  obtain ⟨f, first⟩ := filter_exists (shaped_of_own own) found
  rw [ownFilterFirst_iff found first]
  have left := map_updateFirst mappingKey (withIport iport) found
  have right := map_updateFirst filterKey (withDpts iport) first
  simp only [OwnFilters, renumber_nat, renumber_forward desc timestamp found]
  unfold OwnFilters at own
  constructor
  · intro both
    rw [both, own] at left
    -- the two key pairs are swapped for one another in the same multiset
    have swapped : mappingKey e ::ₘ filterKey (withDpts iport f) ::ₘ
          (t.forward : Multiset IptEntry).map filterKey =
        filterKey f ::ₘ mappingKey (withIport iport e) ::ₘ
          (t.forward : Multiset IptEntry).map filterKey := by
      rw [← right, Multiset.cons_swap, left]
    have member : mappingKey e ∈ mappingKey (withIport iport e) ::ₘ
        {filterKey f} := by
      have pairs : mappingKey e ::ₘ {filterKey (withDpts iport f)} =
          (filterKey f ::ₘ {mappingKey (withIport iport e)} : Multiset RuleKey) := by
        have sums : (mappingKey e ::ₘ {filterKey (withDpts iport f)}) +
              (t.forward : Multiset IptEntry).map filterKey =
            (filterKey f ::ₘ {mappingKey (withIport iport e)}) +
              (t.forward : Multiset IptEntry).map filterKey := by
          simpa [Multiset.cons_add] using swapped
        exact Multiset.add_left_inj.mp sums
      have inside : mappingKey e ∈ (mappingKey e ::ₘ {filterKey (withDpts iport f)} :
          Multiset RuleKey) := Multiset.mem_cons_self _ _
      rw [pairs] at inside
      simpa [or_comm] using inside
    simp only [Multiset.mem_cons, Multiset.mem_singleton] at member
    rcases member with renamed | same
    · simp only [mappingKey, withIport, Prod.mk.injEq] at renamed
      exact absurd renamed.2.2.2.symm other
    · exact same
  · intro same
    have renamed : mappingKey (withIport iport e) = filterKey (withDpts iport f) := by
      simp only [mappingKey, filterKey, Prod.mk.injEq] at same
      simp only [mappingKey, filterKey, withIport, withDpts, Prod.mk.injEq]
      exact ⟨same.1, same.2.1, same.2.2.1, trivial⟩
    rw [own, same, renamed, ← right] at left
    exact (Multiset.cons_inj_right _).mp left

/-- The second of the two updates finds the new internal port already in place. -/
theorem ownFilters_renumber_again (desc : Option CString) (timestamp : Nat)
    (found : t.nat.find? (redirectMatches proto eport) = some e)
    (same : e.target.minAll = iport) :
    OwnFilters (renumber eport proto iport desc timestamp t) ↔ OwnFilters t := by
  have left : (renumber eport proto iport desc timestamp t).nat.map mappingKey =
      (t.nat : Multiset IptEntry).map mappingKey := by
    rw [renumber_nat]
    exact map_updateFirst_same mappingKey (withIport iport) found (by
      simp [mappingKey, withIport, same])
  have right : ((renumber eport proto iport desc timestamp t).forward : Multiset IptEntry).map
      filterKey = (t.forward : Multiset IptEntry).map filterKey := by
    rw [renumber_forward desc timestamp found]
    cases first : t.forward.find? (filterMatches proto e.target.minAll e.target.minIp) with
    | none => rw [updateFirst_of_find?_none first]
    | some f =>
      have port := (filter_fields first).2.1
      exact map_updateFirst_same filterKey (withDpts iport) first (by
        simp [filterKey, withDpts, ← port, same])
  simp only [OwnFilters, right]
  simp only [Multiset.map_coe] at left ⊢
  rw [left]

theorem ownFilters_renumber_twice (own : OwnFilters t) (desc : Option CString) (timestamp : Nat)
    (found : t.nat.find? (redirectMatches proto eport) = some e)
    (other : iport ≠ e.target.minAll) :
    OwnFilters (renumber eport proto iport desc timestamp
      (renumber eport proto iport desc timestamp t)) ↔ OwnFilterFirst eport proto t := by
  have again : (renumber eport proto iport desc timestamp t).nat.find?
      (redirectMatches proto eport) = some (withIport iport e) := by
    rw [renumber_nat, find?_updateFirst (withIport iport) (fun _ => rfl), found]
    rfl
  have settled : OwnFilters (renumber eport proto iport desc timestamp
      (renumber eport proto iport desc timestamp t)) ↔
        OwnFilters (renumber eport proto iport desc timestamp t) :=
    ownFilters_renumber_again desc timestamp again rfl
  rw [settled]
  exact ownFilters_renumber own desc timestamp found other

theorem ownFilters_addMapping (own : OwnFilters t) (rhost : Option CString) (eport : UInt16)
    (iaddr : CString) (iport : UInt16) (proto : Int) (desc : CString) (timestamp : Nat) :
    OwnFilters (addMapping rhost eport iaddr iport proto desc timestamp t) := by
  unfold OwnFilters at own ⊢
  simp only [addMapping, describe, ← Multiset.coe_add, Multiset.map_add, own,
    Multiset.coe_singleton, Multiset.map_singleton, mappingKey, filterKey, natRule, filterRule,
    portRange_fst]

end tables

inductive Op where
  | upnpRedirect (env : Env) (rhost : Option CString) (eport : UInt16) (iaddr : CString)
      (iport : UInt16) (protocol : CString) (desc : Option CString) (leaseduration : Nat)
  | upnpRedirectInternal (env : Env) (rhost : Option CString) (eport : UInt16) (iaddr : CString)
      (iport : UInt16) (proto : Int) (desc : CString) (timestamp : Nat)
  | upnpDeleteRedir (env : Env) (eport : UInt16) (proto : Int)

def step (d : Daemon) : Op → Daemon
  | .upnpRedirect env rhost eport iaddr iport protocol desc leaseduration =>
      (UpnpRedirect.upnpRedirect env rhost eport iaddr iport protocol desc leaseduration d).2
  | .upnpRedirectInternal env rhost eport iaddr iport proto desc timestamp =>
      (UpnpRedirect.upnpRedirectInternal env rhost eport iaddr iport proto desc timestamp d).2
  | .upnpDeleteRedir env eport proto => (UpnpRedirect.upnpDeleteRedir env eport proto d).2

/-- Overwriting a mapping with another internal port, and removing one, must meet its own
    filter rule first. -/
def Admits (d : Daemon) : Op → Prop
  | .upnpRedirect env rhost eport iaddr iport protocol _ _ =>
      ∀ address e, inetAton iaddr = some address →
        checkUpnpRuleAgainstPermissions env.upnppermlist eport address iport = true →
        Overwrites rhost eport iaddr (protoAtoi protocol) e (tables d.nf) →
        iport ≠ e.target.minAll → OwnFilterFirst eport (protoAtoi protocol) (tables d.nf)
  | .upnpRedirectInternal .. => True
  | .upnpDeleteRedir _ eport proto => OwnFilterFirst eport proto (tables d.nf)

def Holds (d : Daemon) : Prop := OwnFilters (tables d.nf)

theorem step_quiet (d : Daemon) (op : Op) (quiet : d.nf.Quiet) : (step d op).nf.Quiet := by
  cases op with
  | upnpRedirect env rhost eport iaddr iport protocol desc leaseduration =>
    exact (upnpRedirect_quiet env rhost eport iaddr iport quiet protocol desc leaseduration).1
  | upnpRedirectInternal env rhost eport iaddr iport proto desc timestamp =>
    exact (upnpRedirectInternal_quiet env rhost eport iaddr iport quiet proto desc timestamp).1
  | upnpDeleteRedir env eport proto => exact (upnpDeleteRedir_quiet env eport quiet proto).1

theorem redirectTables_iff {t : Tables} (own : OwnFilters t) (env : Env) (rhost : Option CString)
    (eport : UInt16) (iaddr : CString) (iport : UInt16) (protocol : CString)
    (desc : Option CString) (leaseduration : Nat) :
    OwnFilters (redirectTables env rhost eport iaddr iport protocol desc leaseduration t) ↔
      ∀ address e, inetAton iaddr = some address →
        checkUpnpRuleAgainstPermissions env.upnppermlist eport address iport = true →
        Overwrites rhost eport iaddr (protoAtoi protocol) e t →
        iport ≠ e.target.minAll → OwnFilterFirst eport (protoAtoi protocol) t := by
  unfold redirectTables
  cases parsed : inetAton iaddr with
  | none => simp [own]
  | some address =>
    by_cases permitted : checkUpnpRuleAgainstPermissions env.upnppermlist eport address iport
    · simp only [permitted, ↓reduceIte]
      cases found : t.nat.find? (redirectMatches (protoAtoi protocol) eport) with
      | none =>
        have added := ownFilters_addMapping own rhost eport iaddr iport (protoAtoi protocol)
          (desc.getD []) (expiryTime env leaseduration)
        simp only [Overwrites, found]
        split
        · simp [own]
        · split
          · simp [own]
          · simp [added]
      | some e =>
        by_cases same : iaddr = inetNtoa e.target.minIp ∧
            sameRhost rhost (rhostOf e)
        · by_cases other : iport = e.target.minAll
          · simp only [same, and_self, ↓reduceIte, other, ne_eq, not_true_eq_false]
            have kept : OwnFilters (redescribe eport (protoAtoi protocol) (some (desc.getD []))
                (expiryTime env leaseduration) (redescribe eport (protoAtoi protocol)
                  (some (desc.getD [])) (expiryTime env leaseduration) t)) := own
            simp only [kept, true_iff]
            intro _ e' _ _ overwrites different
            rw [Overwrites, found, Option.some.injEq] at overwrites
            rw [overwrites.1] at different
            exact absurd rfl different
          · have renumbered := ownFilters_renumber_twice own (some (desc.getD []))
              (expiryTime env leaseduration) found other
            dsimp only
            rw [if_pos same, if_pos other, renumbered]
            constructor
            · intro first _ _ _ _ _ _
              exact first
            · intro all
              exact all address e rfl permitted ⟨found, same⟩ other
        · simp only [same, ↓reduceIte, own, true_iff]
          intro _ e' _ _ overwrites
          rw [Overwrites, found, Option.some.injEq] at overwrites
          rw [overwrites.1] at same
          exact absurd overwrites.2 same
    · simp only [permitted, Bool.false_eq_true, ↓reduceIte, own, true_iff]
      intro _ _ same check
      rw [Option.some.injEq] at same
      rw [same] at permitted
      exact absurd check permitted

theorem step_iff (d : Daemon) (op : Op) (quiet : d.nf.Quiet) (own : Holds d) :
    Holds (step d op) ↔ Admits d op := by
  cases op with
  | upnpRedirect env rhost eport iaddr iport protocol desc leaseduration =>
    have changed :=
      (upnpRedirect_quiet env rhost eport iaddr iport quiet protocol desc leaseduration).2
    simp only [Holds, step, changed, Admits]
    exact redirectTables_iff own env rhost eport iaddr iport protocol desc leaseduration
  | upnpRedirectInternal env rhost eport iaddr iport proto desc timestamp =>
    have changed :=
      (upnpRedirectInternal_quiet env rhost eport iaddr iport quiet proto desc timestamp).2
    simp only [Holds, step, changed, Admits, iff_true]
    split
    · exact own
    · exact ownFilters_addMapping own rhost eport iaddr iport proto desc timestamp
  | upnpDeleteRedir env eport proto =>
    have changed := (upnpDeleteRedir_quiet env eport quiet proto).2
    simp only [Holds, step, changed, Admits]
    exact ownFilters_remove own

/-- From empty chains, the filter rules are those of the mappings throughout a run exactly
    when every removal and every renumbering meets its own filter rule first. -/
theorem filters_follow_mappings_iff (leaseFile : Option CString) (ops : List Op) :
    Always step Holds (Daemon.start leaseFile) ops ↔
      Admitted step Admits (Daemon.start leaseFile) ops := by
  apply always_iff_admitted fun d => d.nf.Quiet
  · exact step_quiet
  · exact step_iff
  · rfl
  · rfl

/-- Two mappings to one host and port for different remote hosts: removing the second
    takes the filter rule of the first. -/
def twoRemoteHosts : List Op :=
  [.upnpRedirect (Env.plain 0) (some "198.51.100.1".toList) 1001 "192.168.1.2".toList 80
     "TCP".toList none 0,
   .upnpRedirect (Env.plain 0) (some "198.51.100.2".toList) 1002 "192.168.1.2".toList 80
     "TCP".toList none 0,
   .upnpDeleteRedir (Env.plain 0) 1002 6]

theorem filter_of_other_mapping_removed :
    ¬ Holds (twoRemoteHosts.foldl step (Daemon.start none)) := by
  unfold Holds OwnFilters
  decide +kernel

end FilterRules
