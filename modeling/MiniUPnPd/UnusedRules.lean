import MiniUPnPd.ExpiryCleaning

/-!
The removal of unused mappings. The list holds the packet and byte counters of an earlier scan;
a mapping whose counters are still the same is to go. Each round compares the mapping of its own
state, but deletes the port that it reads through a pointer to the state before, which is freed.
-/
namespace UnusedRules
open ExpiryCleaning FirstMatch Iptc Iptcrdr IptcrdrSpec MappingRemovals Mappings RuleCleaning
  RuleKeys UpnpRedirect UpnpRedirectSpec

def stateKey (state : RuleState) : UInt16 × Int := (state.eport, state.proto.toInt)

/-- The counters are those of the state. -/
def unusedSince (state : RuleState) (rule : RedirectRule) : Bool :=
  ruleKey rule = stateKey state ∧ rule.packets = state.packets ∧ rule.bytes = state.bytes

def unused (list : List RuleState) (rule : RedirectRule) : Bool :=
  list.any fun state => unusedSince state rule

/-- The unused mappings are gone, and the others as they were. -/
def RemovesUnused (list : List RuleState) (nf nf' : Netfilter) : Prop :=
  mappings nf' = (mappings nf).filter fun rule => !unused list rule

/-- The mapping of the state is there and unused. -/
def present (state : RuleState) (nf : Netfilter) : Bool := (mappings nf).any (unusedSince state)

/-- One round of the loop, for the port that is read. -/
def round (env : Env) (port : UInt16) (state : RuleState) (d : Daemon) : Daemon :=
  match d.lookup state.eport state.proto.toInt with
  | (some rule, d) =>
      if rule.packets = state.packets ∧ rule.bytes = state.bytes then
        (upnpDeleteRedir env port state.proto.toInt d).2
      else d
  | (none, d) => d

/-- The right port is read if a mapping is to go, and then no libiptc call fails before the
    redirection is out of the nat table. -/
def RightRound (port : UInt16) (state : RuleState) (d : Daemon) : Prop :=
  present state d.nf = true → port = state.eport ∧ callsSucceed 7 d.nf.iptcResults = true

def RightRounds (env : Env) (stale : Nat → UInt16) : Nat → List RuleState → Daemon → Prop
  | _, [], _ => True
  | n, state :: next, d =>
      RightRound (stale n) state d ∧
        RightRounds env stale (n + 1) next (round env (stale n) state d)

section round
variable {env : Env} {port : UInt16} {state : RuleState} {d : Daemon}

theorem removeUnusedRules_cons (stale : Nat → UInt16) (n : Nat) (next : List RuleState) :
    removeUnusedRules env stale n (state :: next) d =
      removeUnusedRules env stale (n + 1) next (round env (stale n) state d) := by
  rw [removeUnusedRules, round]
  rcases d.lookup state.eport state.proto.toInt with ⟨_ | rule, after⟩
  · rfl
  · rfl

theorem unusedSince_readRule (nf : Netfilter) (e : IptEntry) :
    unusedSince state (readRule nf e) = true ↔
      redirectMatches state.proto.toInt state.eport e = true ∧ e.pcnt = state.packets ∧
        e.bcnt = state.bytes := by
  rw [redirectMatches_entryKey, unusedSince, decide_eq_true_eq, decide_eq_true_eq]
  exact Iff.rfl

/-- The lookup finds the mapping of the state, when its calls succeed. -/
theorem present_iff (table : MappingTable d.nf) :
    present state d.nf = true ↔
      ∃ e, (d.nf.chain .nat).find? (redirectMatches state.proto.toInt state.eport) = some e ∧
        e.pcnt = state.packets ∧ e.bcnt = state.bytes := by
  rw [present, List.any_eq_true]
  constructor
  · rintro ⟨rule, member, unused⟩
    obtain ⟨e, inside, rfl⟩ := List.mem_map.mp member
    obtain ⟨key, counters⟩ := (unusedSince_readRule d.nf e).mp unused
    cases found : (d.nf.chain .nat).find? (redirectMatches state.proto.toInt state.eport) with
    | none =>
      exact absurd key (List.find?_eq_none.mp found e inside)
    | some first =>
      have inside' := List.mem_of_find?_eq_some found
      have key' := List.find?_some found
      rw [redirectMatches_entryKey, decide_eq_true_eq] at key key'
      obtain rfl := entry_unique table inside' inside (key'.trans key.symm)
      exact ⟨first, rfl, counters⟩
  · rintro ⟨e, found, counters⟩
    refine ⟨readRule d.nf e, List.mem_map_of_mem (List.mem_of_find?_eq_some found), ?_⟩
    exact (unusedSince_readRule d.nf e).mpr ⟨List.find?_some found, counters⟩

theorem lookup_cases (eport : UInt16) (proto : Int) :
    ∃ results, d.lookup eport proto =
        (if callsSucceed 2 d.nf.iptcResults then
          ((d.nf.chain .nat).find? (redirectMatches proto eport)).map (readRule d.nf) else none,
          d.withNf (d.nf.withResults results)) ∧
      (callsSucceed 2 d.nf.iptcResults = true → results = d.nf.iptcResults.drop 2) := by
  cases done : callsSucceed 2 d.nf.iptcResults with
  | true =>
    refine ⟨d.nf.iptcResults.drop 2, ?_, fun _ => rfl⟩
    simp only [Daemon.lookup, getRedirectRule, iptcCalls_done done, ↓reduceIte]
    rfl
  | false =>
    obtain ⟨results, failed⟩ := iptcCalls_failed done
    refine ⟨results, ?_, by simp⟩
    simp [Daemon.lookup, getRedirectRule, failed]

/-- What a round does to the redirections and the descriptions. -/
theorem round_tables (table : MappingTable d.nf) :
    let d' := round env port state d
    let acts := present state d.nf && callsSucceed 2 d.nf.iptcResults
    d'.nf.chain .nat =
        (if acts && callsSucceed 5 (d.nf.iptcResults.drop 2) then
          (d.nf.chain .nat).eraseP (redirectMatches state.proto.toInt port)
        else d.nf.chain .nat) ∧
      d'.nf.rdrDescList =
        if acts && callsSucceed 1 (d.nf.iptcResults.drop 2) then
          d.nf.rdrDescList.eraseP (descMatches port state.proto.toInt)
        else d.nf.rdrDescList := by
  intro d' acts
  obtain ⟨results, looked, rest⟩ := @lookup_cases d state.eport state.proto.toInt
  have there := @present_iff state d table
  cases done : callsSucceed 2 d.nf.iptcResults with
  | false =>
    rw [done] at looked
    simp [d', acts, round, looked, done]
  | true =>
    rw [done, rest done] at looked
    simp only [↓reduceIte] at looked
    cases found : (d.nf.chain .nat).find? (redirectMatches state.proto.toInt state.eport) with
    | none =>
      have missing : present state d.nf = false := by
        rw [found] at there
        simpa using there
      rw [found] at looked
      simp [d', acts, round, looked, missing]
    | some e =>
      rw [found] at looked there
      simp only [Option.map_some] at looked
      by_cases counters : e.pcnt = state.packets ∧ e.bcnt = state.bytes
      · have here : present state d.nf = true := there.mpr ⟨e, rfl, counters⟩
        have same : (readRule d.nf e).packets = state.packets ∧
            (readRule d.nf e).bytes = state.bytes := counters
        obtain ⟨_, descs, nat⟩ := upnpDeleteRedir_exact env port state.proto.toInt
          (d.withNf (d.nf.withResults (d.nf.iptcResults.drop 2)))
        simp only [d', acts, round, looked, same, and_self, ↓reduceIte, here, done, Bool.true_and]
        exact ⟨nat, descs⟩
      · have missing : present state d.nf = false := by
          rw [← Bool.not_eq_true, there]
          rintro ⟨e', here, again⟩
          obtain rfl := Option.some.inj here
          exact counters again
        have other : ¬ ((readRule d.nf e).packets = state.packets ∧
            (readRule d.nf e).bytes = state.bytes) := counters
        simp [d', acts, round, looked, other, missing]

theorem round_absent (table : MappingTable d.nf) (absent : present state d.nf = false) :
    mappings (round env port state d).nf = mappings d.nf := by
  obtain ⟨nat, descs⟩ := @round_tables env port state d table
  rw [absent] at nat descs
  exact mappings_congr (by simpa using nat) (by simpa using descs)

/-- The rule that is looked for goes from the nat table, or none does. -/
theorem round_nat (table : MappingTable d.nf) :
    (round env port state d).nf.chain .nat = d.nf.chain .nat ∨
      present state d.nf = true ∧ callsSucceed 7 d.nf.iptcResults = true ∧
        (round env port state d).nf.chain .nat =
          (d.nf.chain .nat).eraseP (redirectMatches state.proto.toInt port) := by
  have seven := callsSucceed_add 2 5 d.nf.iptcResults
  obtain ⟨nat, _⟩ := @round_tables env port state d table
  split at nat
  · rename_i acts
    simp only [Bool.and_eq_true] at acts
    exact .inr ⟨acts.1.1, by rw [seven, acts.1.2, acts.2]; rfl, nat⟩
  · exact .inl nat

theorem round_sublist (table : MappingTable d.nf) :
    ((round env port state d).nf.chain .nat).Sublist (d.nf.chain .nat) := by
  rcases @round_nat env port state d table with same | ⟨_, _, erased⟩
  · rw [same]
  · rw [erased]
    exact List.eraseP_sublist

theorem round_removed (table : MappingTable d.nf) (here : present state d.nf = true)
    (seven : callsSucceed 7 d.nf.iptcResults = true) :
    mappings (round env port state d).nf =
      (mappings d.nf).filter fun rule => ruleKey rule ≠ (port, state.proto.toInt) := by
  rw [callsSucceed_add 2 5, Bool.and_eq_true] at seven
  have one := seven.2
  rw [callsSucceed_add 1 4, Bool.and_eq_true] at one
  obtain ⟨nat, descs⟩ := @round_tables env port state d table
  rw [here, seven.1, Bool.true_and, seven.2] at nat
  rw [here, seven.1, Bool.true_and, one.1] at descs
  have byte : isByte state.proto.toInt := by
    obtain ⟨e, found, _⟩ := (present_iff table).mp here
    have key := (redirectMatches_iff e).mp (List.find?_some found)
    rw [key.1]
    exact byte_of_entry table.bytes (List.mem_of_find?_eq_some found)
  exact mappings_erase table byte (by simpa using nat) (by simpa using descs)

/-- The mapping of the state is the only one under its key. -/
theorem unused_erased (table : MappingTable d.nf) (here : present state d.nf = true)
    (next : List RuleState) :
    ((mappings d.nf).filter fun rule => ruleKey rule ≠ stateKey state).filter
        (fun rule => !unused next rule) =
      (mappings d.nf).filter fun rule => !unused (state :: next) rule := by
  rw [List.filter_filter]
  apply List.filter_congr
  intro rule member
  obtain ⟨rule', member', unused'⟩ := List.any_eq_true.mp here
  have key' : ruleKey rule' = stateKey state := (of_decide_eq_true unused').1
  by_cases key : ruleKey rule = stateKey state
  · have same := List.inj_on_of_nodup_map table.keyed member member' (key.trans key'.symm)
    rw [← same] at unused'
    simp [unused, unused', key]
  · have other : unusedSince state rule = false := by simp [unusedSince, key]
    simp [unused, other, key]

theorem unused_absent (absent : present state d.nf = false) (next : List RuleState) :
    (mappings d.nf).filter (fun rule => !unused next rule) =
      (mappings d.nf).filter fun rule => !unused (state :: next) rule := by
  apply List.filter_congr
  intro rule member
  have other : unusedSince state rule = false := by
    have none_ := List.any_eq_false.mp absent rule member
    simpa using none_
  simp [unused, other]

end round

section rounds
variable {env : Env} {stale : Nat → UInt16}

theorem right_removes {list : List RuleState} {n : Nat} {d : Daemon} (table : MappingTable d.nf)
    (right : RightRounds env stale n list d) :
    RemovesUnused list d.nf (removeUnusedRules env stale n list d).nf := by
  induction list generalizing n d with
  | nil => simp [RemovesUnused, removeUnusedRules, unused]
  | cons state next ih =>
    obtain ⟨first, rest⟩ := right
    have table' := mappingTable_sublist table (@round_sublist env (stale n) state d table)
    have later := ih table' rest
    rw [removeUnusedRules_cons, RemovesUnused]
    rw [RemovesUnused] at later
    rw [later]
    cases here : present state d.nf with
    | false => rw [round_absent table here, unused_absent here]
    | true =>
      obtain ⟨port, seven⟩ := first here
      rw [round_removed table here seven, port]
      exact unused_erased table here next

theorem present_sublist {state : RuleState} {nf nf' : Netfilter}
    (sub : (nf'.chain .nat).Sublist (nf.chain .nat)) (here : present state nf' = true) :
    present state nf = true := by
  obtain ⟨rule, member, unused⟩ := List.any_eq_true.mp here
  obtain ⟨e, inside, rfl⟩ := List.mem_map.mp member
  rw [unusedSince_readRule] at unused
  apply List.any_eq_true.mpr
  exact ⟨readRule nf e, List.mem_map_of_mem (sub.subset inside),
    (unusedSince_readRule nf e).mpr unused⟩

/-- Each round takes out at most one redirection, and only for a mapping that is unused at
    the start. -/
theorem rounds_count {list : List RuleState} {n : Nat} {d : Daemon} (table : MappingTable d.nf) :
    (d.nf.chain .nat).length ≤
        ((removeUnusedRules env stale n list d).nf.chain .nat).length +
          list.countP (fun state => present state d.nf) ∧
      ((removeUnusedRules env stale n list d).nf.chain .nat).Sublist (d.nf.chain .nat) := by
  induction list generalizing n d with
  | nil => simp [removeUnusedRules]
  | cons state next ih =>
    have sub := @round_sublist env (stale n) state d table
    obtain ⟨count, sub'⟩ := @ih (n + 1) (round env (stale n) state d) (mappingTable_sublist table sub)
    rw [removeUnusedRules_cons]
    refine ⟨?_, sub'.trans sub⟩
    have fewer : next.countP (fun state' => present state' (round env (stale n) state d).nf) ≤
        next.countP (fun state' => present state' d.nf) :=
      List.countP_mono_left fun _ _ here => present_sublist sub here
    rcases @round_nat env (stale n) state d table with same | ⟨here, _, erased⟩
    · rw [same] at count
      have more : next.countP (fun state' => present state' d.nf) ≤
          (state :: next).countP (fun state' => present state' d.nf) :=
        (List.sublist_cons_self state next).countP_le
      omega
    · have one := @List.le_length_eraseP _ (redirectMatches state.proto.toInt (stale n))
        (d.nf.chain .nat)
      have more : (state :: next).countP (fun state' => present state' d.nf) =
          next.countP (fun state' => present state' d.nf) + 1 :=
        List.countP_cons_of_pos here
      rw [erased] at count
      omega

theorem countP_disjoint {α : Type*} {p q : α → Bool} {l : List α}
    (apart : ∀ a ∈ l, p a = true → q a = false) :
    l.countP (fun a => p a || q a) = l.countP p + l.countP q := by
  induction l with
  | nil => rfl
  | cons a l ih =>
    simp only [List.mem_cons, forall_eq_or_imp] at apart
    have rest := ih apart.2
    simp only [List.countP_cons, rest]
    cases left : p a with
    | true =>
      have right := apart.1 left
      simp only [right, Bool.or_false, ↓reduceIte, Bool.false_eq_true]
      omega
    | false =>
      simp only [Bool.false_or, Bool.false_eq_true, ↓reduceIte]
      omega

theorem all_of_countP {α : Type*} {p q : α → Bool} {l : List α}
    (weaker : ∀ a ∈ l, p a = true → q a = true) (count : l.countP q ≤ l.countP p) :
    ∀ a ∈ l, q a = true → p a = true := by
  induction l with
  | nil => simp
  | cons a l ih =>
    simp only [List.mem_cons, forall_eq_or_imp] at weaker ⊢
    have below := List.countP_mono_left weaker.2
    simp only [List.countP_cons] at count
    cases left : p a with
    | true =>
      have right := weaker.1 left
      simp only [left, right, ↓reduceIte] at count
      exact ⟨fun _ => rfl, ih weaker.2 (by omega)⟩
    | false =>
      cases right : q a with
      | true =>
        simp only [left, right, ↓reduceIte, Bool.false_eq_true] at count
        omega
      | false =>
        simp only [left, right, Bool.false_eq_true, ↓reduceIte] at count
        exact ⟨by simp, ih weaker.2 count⟩

/-- There are at least as many unused mappings as states that list one. -/
theorem present_countP {list : List RuleState} (distinct : (list.map stateKey).Nodup)
    (nf : Netfilter) :
    list.countP (fun state => present state nf) ≤ (mappings nf).countP (unused list) := by
  induction list with
  | nil => simp
  | cons state next ih =>
    rw [List.map_cons, List.nodup_cons] at distinct
    have apart : ∀ rule ∈ mappings nf, unusedSince state rule = true → unused next rule = false := by
      intro rule _ first
      by_contra later
      rw [Bool.not_eq_false] at later
      obtain ⟨state', member, again⟩ := List.any_eq_true.mp later
      have key : ruleKey rule = stateKey state := (of_decide_eq_true first).1
      have key' : ruleKey rule = stateKey state' := (of_decide_eq_true again).1
      exact distinct.1 (List.mem_map.mpr ⟨state', member, key'.symm.trans key⟩)
    have split : (mappings nf).countP (unused (state :: next)) =
        (mappings nf).countP (unusedSince state) + (mappings nf).countP (unused next) :=
      countP_disjoint apart
    have rest := ih distinct.2
    rw [split, List.countP_cons]
    split
    · rename_i here
      have one : 0 < (mappings nf).countP (unusedSince state) := by
        rw [List.countP_pos_iff]
        exact List.any_eq_true.mp here
      omega
    · omega

/-- A mapping that is taken out has to be unused. If it is not the one of the state, it is one
    that is listed later, and missing then. -/
theorem port_of_removed {state : RuleState} {next : List RuleState} {port : UInt16} {proto : Int}
    {nf mid nf' : Netfilter} {x : IptEntry} (same : proto = state.proto.toInt)
    (found : (nf.chain .nat).find? (redirectMatches proto port) = some x)
    (removed : mappings mid = (mappings nf).filter fun rule => ruleKey rule ≠ (port, proto))
    (sub : (nf'.chain .nat).Sublist (mid.chain .nat))
    (removes : mappings nf' = (mappings nf).filter fun rule => !unused (state :: next) rule)
    (stay : ∀ state' ∈ next, present state' nf = true → present state' mid = true) :
    port = state.eport := by
  have inside := List.mem_of_find?_eq_some found
  have key := List.find?_some found
  rw [redirectMatches_entryKey, decide_eq_true_eq] at key
  have gone : ∀ rule ∈ mappings mid, ruleKey rule ≠ (port, proto) := by
    intro rule member
    rw [removed] at member
    exact of_decide_eq_true (List.mem_filter.mp member).2
  have listed : unused (state :: next) (readRule nf x) = true := by
    by_contra used
    have kept : readRule nf x ∈ mappings nf' := by
      rw [removes]
      exact List.mem_filter.mpr ⟨List.mem_map_of_mem inside, by simpa using used⟩
    obtain ⟨e, left, again⟩ := List.mem_map.mp kept
    apply gone (readRule mid e) (List.mem_map_of_mem (sub.subset left))
    rw [ruleKey_readRule, ← ruleKey_readRule nf', again]
    exact key
  obtain ⟨state', member, since⟩ := List.any_eq_true.mp listed
  have key' : entryKey x = stateKey state' := (of_decide_eq_true since).1
  rcases List.mem_cons.mp member with rfl | later
  · exact (Prod.mk.inj (key.symm.trans key')).1
  · have here : present state' nf = true :=
      List.any_eq_true.mpr ⟨readRule nf x, List.mem_map_of_mem inside, since⟩
    obtain ⟨rule, there, since'⟩ := List.any_eq_true.mp (stay state' later here)
    have again : ruleKey rule = stateKey state' := (of_decide_eq_true since').1
    exact absurd (again.trans (key'.symm.trans key)) (gone rule there)

theorem removes_right {list : List RuleState} {n : Nat} {d : Daemon} (table : MappingTable d.nf)
    (distinct : (list.map stateKey).Nodup)
    (removes : RemovesUnused list d.nf (removeUnusedRules env stale n list d).nf) :
    RightRounds env stale n list d := by
  induction list generalizing n d with
  | nil => trivial
  | cons state next ih =>
    have sub := @round_sublist env (stale n) state d table
    have table' := mappingTable_sublist table sub
    obtain ⟨count, final⟩ := @rounds_count env stale next (n + 1) (round env (stale n) state d) table'
    have listed := present_countP distinct d.nf
    rw [List.map_cons, List.nodup_cons] at distinct
    rw [removeUnusedRules_cons, RemovesUnused] at removes
    cases here : present state d.nf with
    | false =>
      refine ⟨by simp [RightRound, here], ih table' distinct.2 ?_⟩
      rw [RemovesUnused, round_absent table here, removes]
      exact (unused_absent here next).symm
    | true =>
      have lengths := congrArg List.length removes
      rw [← List.countP_eq_length_filter] at lengths
      have total := @List.length_eq_countP_add_countP _ (unused (state :: next)) (mappings d.nf)
      simp only [Bool.not_eq_true, Bool.decide_eq_false] at total
      rw [← lengths] at total
      simp only [mappings, List.length_map] at total
      rw [← mappings] at total
      have more : (state :: next).countP (fun state' => present state' d.nf) =
          next.countP (fun state' => present state' d.nf) + 1 :=
        List.countP_cons_of_pos here
      have weaker : ∀ state' ∈ next, present state' (round env (stale n) state d).nf = true →
          present state' d.nf = true := fun _ _ => present_sublist sub
      have fewer := List.countP_mono_left weaker
      rcases @round_nat env (stale n) state d table with same | ⟨_, seven, erased⟩
      · rw [same] at count
        omega
      · have one := @List.le_length_eraseP _ (redirectMatches state.proto.toInt (stale n))
          (d.nf.chain .nat)
        rw [erased] at count
        have stay := all_of_countP weaker (by omega)
        have removed := @round_removed env (stale n) state d table here seven
        have port : stale n = state.eport := by
          cases found : (d.nf.chain .nat).find? (redirectMatches state.proto.toInt (stale n)) with
          | none =>
            rw [eraseP_of_find?_none found] at count
            omega
          | some x => exact port_of_removed rfl found removed final removes stay
        refine ⟨fun _ => ⟨port, seven⟩, ih table' distinct.2 ?_⟩
        rw [RemovesUnused, removes, removed, port]
        exact (unused_erased table here next).symm

theorem round_quiet {port : UInt16} {state : RuleState} {d : Daemon} (quiet : d.nf.Quiet) :
    (round env port state d).nf.Quiet := by
  rw [round, lookup_quiet state.eport quiet]
  cases (d.nf.chain .nat).find? (redirectMatches state.proto.toInt state.eport) with
  | none => exact quiet
  | some e =>
    simp only [Option.map_some]
    split
    · exact (upnpDeleteRedir_quiet env port quiet state.proto.toInt).1
    · exact quiet

/-- Where no libiptc call fails, the rounds are right if every listed mapping that is unused is
    deleted by its own port. -/
theorem rightRounds_quiet {list : List RuleState} {n : Nat} {d : Daemon} (quiet : d.nf.Quiet)
    (table : MappingTable d.nf) (distinct : (list.map stateKey).Nodup) :
    RightRounds env stale n list d ↔
      ∀ i state, list[i]? = some state → present state d.nf = true → stale (n + i) = state.eport := by
  induction list generalizing n d with
  | nil => simp [RightRounds]
  | cons state next ih =>
    rw [List.map_cons, List.nodup_cons] at distinct
    have table' := mappingTable_sublist table (@round_sublist env (stale n) state d table)
    have quiet' := @round_quiet env (stale n) state d quiet
    have seven := callsSucceed_quiet 7 quiet
    have rest := @ih (n + 1) (round env (stale n) state d) quiet' table' distinct.2
    have later : (present state d.nf = true → stale n = state.eport) → ∀ state' ∈ next,
        present state' (round env (stale n) state d).nf = present state' d.nf := by
      intro right state' member
      cases here : present state d.nf with
      | false => rw [present, round_absent table here, present]
      | true =>
        rw [present, round_removed table here seven, right here, List.any_filter, present]
        rw [Bool.eq_iff_iff, List.any_eq_true, List.any_eq_true]
        constructor
        · rintro ⟨rule, inside, both⟩
          exact ⟨rule, inside, (Bool.and_eq_true _ _ ▸ both).2⟩
        · rintro ⟨rule, inside, since⟩
          refine ⟨rule, inside, ?_⟩
          have key : ruleKey rule = stateKey state' := (of_decide_eq_true since).1
          have other : ruleKey rule ≠ (state.eport, state.proto.toInt) := by
            intro same
            exact distinct.1 (List.mem_map.mpr ⟨state', member, key.symm.trans same⟩)
          rw [since, decide_eq_true other]
          rfl
    constructor
    · rintro ⟨first, after⟩ i state' found here
      have others := rest.mp after
      have right : present state d.nf = true → stale n = state.eport := fun h => (first h).1
      cases i with
      | zero =>
        rw [List.getElem?_cons_zero, Option.some.injEq] at found
        subst found
        exact right here
      | succ i =>
        rw [List.getElem?_cons_succ] at found
        rw [← later right state' (List.mem_of_getElem? found)] at here
        have port := others i state' found here
        rwa [show n + 1 + i = n + (i + 1) by omega] at port
    · intro all
      have right : present state d.nf = true → stale n = state.eport := all 0 state rfl
      refine ⟨fun here => ⟨right here, seven⟩, rest.mpr ?_⟩
      intro i state' found here
      rw [later right state' (List.mem_of_getElem? found)] at here
      have port := all (i + 1) state' (by rw [List.getElem?_cons_succ, found]) here
      rwa [show n + (i + 1) = n + 1 + i by omega] at port

end rounds

section scan
variable {env : Env} {d : Daemon} {now : Nat}

/-- Whatever fails, the scan has seen the first rules of the chain. -/
theorem collect_first (fuel i : Nat) (list : List RuleState) :
    ∃ k, (collectRuleStates now fuel i list d).1 =
      ((((d.nf.chain .nat).drop i).take k).map (ruleState now d.nf.rdrDescList)).reverse ++ list := by
  induction fuel generalizing i list d with
  | zero => exact ⟨0, by simp [collectRuleStates]⟩
  | succ fuel ih =>
    obtain ⟨done, results, calls⟩ := iptcCalls_cases 2 d.nf
    rw [collectRuleStates]
    simp only [getRedirectRuleByIndex, calls, Int.toNat_natCast]
    cases here : (if done = true ∧ (0 : Int) ≤ (i : Int) then
        (((d.nf.withResults results).chain .nat)[i]?).map (readRule (d.nf.withResults results))
        else none) with
    | none => exact ⟨0, by simp⟩
    | some rule =>
      split at here
      · obtain ⟨e, at', rfl⟩ := Option.map_eq_some_iff.mp here
        rw [chain_withResults] at at'
        obtain ⟨bound, value⟩ := List.getElem?_eq_some_iff.mp at'
        dsimp only
        obtain ⟨k, rest⟩ := @ih { d with
            nf := d.nf.withResults results
            nextruletocleanTimestamp := cleanTimestamp now
              (readRule (d.nf.withResults results) e).timestamp d.nextruletocleanTimestamp } (i + 1)
          ({ packets := e.pcnt, bytes := e.bcnt, eport := e.dpts.1,
             proto := Int16.ofInt e.proto.toNat,
             toRemove := 0 < (readRule (d.nf.withResults results) e).timestamp ∧
               (readRule (d.nf.withResults results) e).timestamp ≤ now } :: list)
        refine ⟨k + 1, rest.trans ?_⟩
        rw [chain_withResults, List.drop_eq_getElem_cons bound, value, List.take_succ_cons]
        simp [readRule_timestamp, ruleState]
      · simp at here

theorem states_distinct (table : MappingTable d.nf) (maxRulesNumberTarget : Int) :
    ((getUpnpRulesStateList env maxRulesNumberTarget d).1.map stateKey).Nodup := by
  obtain ⟨k, states⟩ := @collect_first { d with nextruletocleanTimestamp := 0 }
    (env.clock.upnpTime % 2 ^ 32) ((d.nf.chain .nat).length + 1) 0 []
  rw [List.drop_zero, List.append_nil] at states
  simp only [getUpnpRulesStateList, states]
  split
  · exact List.nodup_nil
  · have keyed := table.keyed
    rw [map_ruleKey] at keyed
    have keys : (((d.nf.chain .nat).take k).map
        (ruleState (env.clock.upnpTime % 2 ^ 32) d.nf.rdrDescList)).map stateKey =
        ((d.nf.chain .nat).take k).map entryKey := by
      rw [List.map_map]
      apply List.map_congr_left
      intro e member
      have byte := byte_of_entry table.bytes (List.mem_of_mem_take member)
      exact Prod.ext rfl (toInt_of_byte byte)
    refine (List.filter_sublist.map stateKey).nodup ?_
    rw [List.map_reverse, List.nodup_reverse, keys]
    exact ((List.take_sublist k _).map entryKey).nodup keyed

end scan

/-- For a list from a scan of a mapping table, exactly the unused mappings of a later one are
    removed if and only if every round that has something to remove reads the right port, and
    libiptc does not fail it. -/
theorem unused_removed_iff (env env' : Env) (maxRulesNumberTarget : Int) (stale : Nat → UInt16)
    (earlier d : Daemon) (scanned : MappingTable earlier.nf) (table : MappingTable d.nf) :
    let list := (getUpnpRulesStateList env' maxRulesNumberTarget earlier).1
    RemovesUnused list d.nf (removeUnusedRules env stale 0 list d).nf ↔
      RightRounds env stale 0 list d := by
  intro list
  constructor
  · exact removes_right table (states_distinct scanned maxRulesNumberTarget)
  · exact right_removes table

/-- The same two mappings later, the second of them in use. -/
def laterMappings : Daemon :=
  twoMappings.withNf (twoMappings.nf.setChain .nat ((twoMappings.nf.chain .nat).map fun e =>
    if e.dpts.1 = 8081 then { e with pcnt := 5, bcnt := 600 } else e))

theorem laterMappings_table : MappingTable laterMappings.nf := by
  constructor
  · decide +kernel
  · have all : (laterMappings.nf.chain .nat).all (fun e => e.proto.toNat < 256) = true := by
      decide +kernel
    simpa [RuleCleaning.ByteProtos] using all

def earlierStates : List RuleState := (getUpnpRulesStateList (Env.plain 1200) 0 twoMappings).1

theorem unused_removed_later :
    RemovesUnused earlierStates laterMappings.nf
        (removeUnusedRules (Env.plain 1200) (fun _ => 8080) 0 earlierStates laterMappings).nf ↔
      RightRounds (Env.plain 1200) (fun _ => 8080) 0 earlierStates laterMappings :=
  unused_removed_iff (Env.plain 1200) (Env.plain 1200) 0 (fun _ => 8080) twoMappings laterMappings
    twoMappings_table laterMappings_table

/-- The second round reads the port of the first state, whose memory still holds it: the mapping
    in use goes and the unused one stays. -/
theorem used_mapping_removed :
    let after := removeUnusedRules (Env.plain 1200) (fun _ => 8081) 0 earlierStates laterMappings
    earlierStates.map (·.eport) = [8081, 8080] ∧
      (mappings after.nf).map (·.eport) = [8080] ∧
      ¬ RemovesUnused earlierStates laterMappings.nf after.nf := by
  refine ⟨by decide +kernel, by decide +kernel, ?_⟩
  unfold RemovesUnused
  decide +kernel

end UnusedRules
