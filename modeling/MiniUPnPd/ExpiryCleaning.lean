import MiniUPnPd.MappingRemovals

/-!
What a cleaning does to a mapping table. The rules are scanned by index first, while the earliest
expiry to come is kept; the removals come afterwards, by key, from the list that the scan has
left. `now` is the time as the code compares it, an unsigned 32-bit number.
-/
namespace ExpiryCleaning
open Iptc Iptcrdr IptcrdrSpec MappingRemovals Mappings RuleCleaning RuleKeys UpnpRedirect
  UpnpRedirectSpec

def expired (now : Nat) (rule : RedirectRule) : Bool := 0 < rule.timestamp ∧ rule.timestamp ≤ now

/-- The smallest expiry time of these mappings, 0 where none has one. -/
def nextExpiry (rules : List RedirectRule) : Nat :=
  (((rules.map (·.timestamp)).filter (0 < ·)).min?).getD 0

/-- The record of a mapping that stays. -/
def keptState (rule : RedirectRule) : RuleState :=
  { packets := rule.packets
    bytes := rule.bytes
    eport := rule.eport
    proto := Int16.ofInt rule.proto
    toRemove := false }

section scan
variable {now : Nat}

theorem earliest_mem (times : List Nat) (next : Nat) :
    earliest now times next = next ∨ earliest now times next ∈ times := by
  induction times generalizing next with
  | nil => exact .inl rfl
  | cons first times ih =>
    have step : cleanTimestamp now first next = first ∨ cleanTimestamp now first next = next := by
      unfold cleanTimestamp
      split
      · exact .inl rfl
      · exact .inr rfl
    rcases ih (cleanTimestamp now first next) with same | later
    · rcases step with taken | kept
      · right
        rw [earliest, List.foldl_cons, ← earliest, same, taken]
        exact List.mem_cons_self
      · left
        rw [earliest, List.foldl_cons, ← earliest, same, kept]
    · right
      exact List.mem_cons_of_mem _ later

/-- The scan keeps the minimum of the times after `now`, though it tells a time that is not
    set from one that is past only by comparing with `now`. -/
theorem earliest_min (times : List Nat) :
    earliest now times 0 = ((times.filter (now < ·)).min?).getD 0 := by
  obtain ⟨range, _, below⟩ := @clean_fold now times 0 (.inl rfl)
  cases least : (times.filter (now < ·)).min? with
  | none =>
    have none_ : times.filter (now < ·) = [] := List.min?_eq_none_iff.mp least
    rw [Option.getD_none]
    rcases @earliest_mem now times 0 with zero | member
    · exact zero
    · rcases range with zero | later
      · exact zero
      · have inside : earliest now times 0 ∈ times.filter (now < ·) :=
          List.mem_filter.mpr ⟨member, by simpa using later⟩
        simp [none_] at inside
  | some first =>
    obtain ⟨member, smallest⟩ := List.min?_eq_some_iff.mp least
    obtain ⟨inside, later⟩ := List.mem_filter.mp member
    obtain ⟨positive, bound⟩ := below first inside (by simpa using later)
    rw [Option.getD_some]
    have past : now < earliest now times 0 := by
      rcases range with zero | past
      · omega
      · exact past
    rcases @earliest_mem now times 0 with zero | here
    · omega
    · have least' := smallest _ (List.mem_filter.mpr ⟨here, by simpa using past⟩)
      omega

end scan

section removals
variable {d : Daemon}

/-- The list asks for the removal of the mapping. -/
def listed (list : List RuleState) (rule : RedirectRule) : Bool :=
  list.any fun state => state.toRemove && decide ((state.eport, state.proto.toInt) = ruleKey rule)

theorem removeExpired_mappings (env : Env) (quiet : d.nf.Quiet) (table : MappingTable d.nf)
    (list : List RuleState) (bytes : ∀ state ∈ list, isByte state.proto.toInt) :
    mappings (removeExpired env list d).nf = (mappings d.nf).filter fun rule => !listed list rule := by
  induction list generalizing d with
  | nil =>
    simp [removeExpired, listed]
  | cons state list ih =>
    simp only [List.mem_cons, forall_eq_or_imp] at bytes
    simp only [removeExpired, List.foldl_cons]
    cases marked : state.toRemove with
    | false =>
      have rest := ih quiet table bytes.2
      simp only [removeExpired] at rest
      simp only [Bool.false_eq_true, ↓reduceIte, rest, listed, List.any_cons, marked,
        Bool.false_and, Bool.false_or]
    | true =>
      obtain ⟨still, removed⟩ := upnpDeleteRedir_quiet env state.eport quiet state.proto.toInt
      have rest := ih still (mappingTable_remove table removed) bytes.2
      simp only [removeExpired] at rest
      simp only [↓reduceIte]
      rw [rest, mappings_remove table bytes.1 removed, List.filter_filter]
      apply List.filter_congr
      intro rule _
      by_cases here : ruleKey rule = (state.eport, state.proto.toInt)
      · simp [listed, marked, here]
      · have other : ¬ (state.eport, state.proto.toInt) = ruleKey rule := fun same => here same.symm
        simp [listed, marked, here, other]

end removals

section cleaning
variable {d : Daemon} {now : Nat}

theorem expired_readRule (nf : Netfilter) (e : IptEntry) :
    expired now (readRule nf e) = (ruleState now nf.rdrDescList e).toRemove := by
  simp only [expired, readRule_timestamp, ruleState]

/-- The expiry time belongs to the key, so that the list asks for what has expired. -/
theorem listed_states (table : MappingTable d.nf) {rule : RedirectRule} (member : rule ∈ mappings d.nf) :
    listed ((d.nf.chain .nat).map (ruleState now d.nf.rdrDescList)).reverse rule =
      expired now rule := by
  obtain ⟨e, inside, rfl⟩ := List.mem_map.mp member
  have key : ∀ e' ∈ d.nf.chain .nat, ((ruleState now d.nf.rdrDescList e').eport,
      (ruleState now d.nf.rdrDescList e').proto.toInt) = entryKey e' := by
    intro e' inside'
    have byte := byte_of_entry table.bytes inside'
    exact Prod.ext rfl (toInt_of_byte byte)
  rw [listed, List.any_reverse, List.any_map, Bool.eq_iff_iff, List.any_eq_true]
  constructor
  · rintro ⟨e', inside', both⟩
    rw [Function.comp, Bool.and_eq_true, decide_eq_true_eq, key e' inside',
      ruleKey_readRule] at both
    obtain ⟨ports, protos⟩ := Prod.mk.inj both.2
    have same : expiry d.nf.rdrDescList e = expiry d.nf.rdrDescList e' := by
      simp only [expiry, ports, protos]
    rw [expired_readRule, ← both.1]
    simp only [ruleState, same]
  · intro past
    refine ⟨e, inside, ?_⟩
    rw [Function.comp, Bool.and_eq_true, decide_eq_true_eq, key e inside, ruleKey_readRule,
      ← expired_readRule]
    exact ⟨past, rfl⟩

theorem left_states (nf : Netfilter) :
    ((nf.chain .nat).map (ruleState now nf.rdrDescList)).reverse.filter
        (fun state => !state.toRemove) =
      (((mappings nf).filter fun rule => !expired now rule).map keptState).reverse := by
  rw [List.filter_reverse, List.filter_map, mappings, List.filter_map, List.map_map]
  congr 1
  have same : (List.filter ((fun state : RuleState => !state.toRemove) ∘
      ruleState now nf.rdrDescList) (nf.chain .nat)) =
      List.filter ((fun rule => !expired now rule) ∘ readRule nf) (nf.chain .nat) := by
    apply List.filter_congr
    intro e _
    simp only [Function.comp, expired_readRule]
  rw [same]
  apply List.map_congr_left
  intro e member
  have kept := (List.mem_filter.mp member).2
  simp only [Function.comp, expired_readRule, Bool.not_eq_true'] at kept
  simp only [Function.comp, keptState, readRule, ruleState] at kept ⊢
  rw [kept]

theorem nextExpiry_left (nf : Netfilter) :
    earliest now ((nf.chain .nat).map (expiry nf.rdrDescList)) 0 =
      nextExpiry ((mappings nf).filter fun rule => !expired now rule) := by
  have times : (nf.chain .nat).map (expiry nf.rdrDescList) =
      (mappings nf).map (·.timestamp) := by
    rw [mappings, List.map_map]
    apply List.map_congr_left
    intro e _
    exact (readRule_timestamp nf e).symm
  rw [earliest_min, times, nextExpiry, List.filter_map, List.filter_map, List.filter_filter]
  congr 3
  apply List.filter_congr
  intro rule _
  rw [Bool.eq_iff_iff]
  simp only [Function.comp, expired, decide_eq_true_eq, Bool.and_eq_true, Bool.not_eq_true',
    decide_eq_false_iff_not]
  omega

end cleaning

/-- Two mappings of one client, of which the first has expired at time 2000. -/
def twoMappings : Daemon :=
  let redirect eport timestamp (d : Daemon) := (upnpRedirectInternal (Env.plain 1000) none eport
    "192.168.0.2".toList 80 IPPROTO_TCP "web".toList timestamp d).2
  redirect 8081 3000 (redirect 8080 1500 (Daemon.start none))

theorem twoMappings_table : MappingTable twoMappings.nf := by
  constructor
  · decide +kernel
  · have all : (twoMappings.nf.chain .nat).all (fun e => e.proto.toNat < 256) = true := by
      decide +kernel
    simpa [ByteProtos] using all

end ExpiryCleaning
