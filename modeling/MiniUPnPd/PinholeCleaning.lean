import MiniUPnPd.Netfilter.Iptpinhole

/-!
The cleaning of the pinhole list, with no libip6tc call failing. An expired pinhole whose rule is
gone leaves the list, but the removal is reported as an error and ends the loop.
-/
namespace PinholeCleaning
open FirstMatch Iptpinhole

/-- No call fails. -/
def Quiet (fw : Firewall) : Prop := ∀ result ∈ fw.ip6tcResults, result = true

abbrev FlowKey := UInt8 × BitVec 128 × BitVec 128 × UInt16 × UInt16

/-- What the rule of a pinhole is searched for by. -/
def pinholeFlow (p : PinholeT) : FlowKey := (p.proto, p.saddr, p.daddr, p.sport, p.dport)

def ruleFlow (e : Ip6tEntry) : FlowKey := (e.proto, e.src, e.dst, e.spts.1, e.dpts.1)

/-- The pinholes that expire later. -/
def alive (now : Nat) (list : List PinholeT) : List PinholeT :=
  list.filter fun p => now < p.timestamp

def expired (now : Nat) (list : List PinholeT) : List PinholeT :=
  list.filter fun p => p.timestamp ≤ now

/-- The chain has no rule for this pinhole once the rules of the expired ones in front of it in
    the list are removed. -/
def Orphan (now : Nat) (chain : List Ip6tEntry) (front : List PinholeT) (p : PinholeT) : Prop :=
  (chain.map ruleFlow).count (pinholeFlow p) ≤
    ((expired now front).map pinholeFlow).count (pinholeFlow p)

/-- What a cleaning is for. -/
structure Cleaned (now : Nat) (before : List PinholeT) (nextTimestamp : Option Nat)
    (after : List PinholeT) : Prop where
  gone : ∀ p ∈ after, now < p.timestamp
  kept : ∀ p ∈ before, now < p.timestamp → p ∈ after
  earliest : after ≠ [] → ∃ t, nextTimestamp = some t ∧ (∃ p ∈ after, p.timestamp = t) ∧
    ∀ p ∈ after, t ≤ p.timestamp

/-- Behind an expired pinhole whose rule is gone no other has expired, and none expires before one
    in front of it. -/
def StopsLate (now : Nat) (fw : Firewall) : Prop :=
  ∀ front p back, fw.pinholeList = front ++ p :: back → p.timestamp ≤ now →
    Orphan now fw.chain front p →
      ∀ q ∈ back, now < q.timestamp ∧ ∃ s ∈ front, now < s.timestamp ∧ s.timestamp ≤ q.timestamp

/-- The pinholes that are left do not all expire at the last second there is. -/
def Written (now : Nat) (fw : Firewall) : Prop :=
  alive now fw.pinholeList ≠ [] → ∃ p ∈ alive now fw.pinholeList, p.timestamp < UINT_MAX

/-- The time is compared in 32 bits. -/
def SameTime (now : Nat) (fw : Firewall) : Prop :=
  ∀ p ∈ fw.pinholeList, p.timestamp ≤ now → p.timestamp ≤ now % 2 ^ 32

section flows
variable {now : Nat} {p q : PinholeT} {chain : List Ip6tEntry} {front : List PinholeT}

theorem mem_alive {list : List PinholeT} : p ∈ alive now list ↔ p ∈ list ∧ now < p.timestamp := by
  simp [alive]

theorem ruleMatches_iff (p : PinholeT) (e : Ip6tEntry) :
    ruleMatches p e = true ↔ ruleFlow e = pinholeFlow p := by
  simp only [ruleMatches, ruleFlow, pinholeFlow, decide_eq_true_eq, Prod.mk.injEq]

theorem erased_flows (p : PinholeT) (chain : List Ip6tEntry) :
    (chain.eraseP (ruleMatches p)).map ruleFlow = (chain.map ruleFlow).erase (pinholeFlow p) := by
  rw [List.erase_eq_eraseP, List.eraseP_map]
  congr 2
  funext e
  rw [Bool.eq_iff_iff, ruleMatches_iff, Function.comp_apply, beq_iff_eq]
  exact eq_comm

theorem orphan_alive (later : now < p.timestamp) :
    Orphan now chain (p :: front) q ↔ Orphan now chain front q := by
  have skipped : expired now (p :: front) = expired now front :=
    List.filter_cons_of_neg (by simpa using later)
  rw [Orphan, Orphan, skipped]

/-- A rule of the pinhole in front is removed with it. -/
theorem orphan_removed (old : p.timestamp ≤ now) (present : pinholeFlow p ∈ chain.map ruleFlow) :
    Orphan now (chain.eraseP (ruleMatches p)) front q ↔ Orphan now chain (p :: front) q := by
  have counted : expired now (p :: front) = p :: expired now front :=
    List.filter_cons_of_pos (by simpa using old)
  unfold Orphan
  rw [counted, List.map_cons, List.count_cons, erased_flows, List.count_erase]
  by_cases same : pinholeFlow p = pinholeFlow q
  · have positive := List.count_pos_iff.mpr present
    rw [same] at positive ⊢
    simp only [BEq.rfl, ↓reduceIte]
    omega
  · have differs : (pinholeFlow p == pinholeFlow q) = false := by simpa using same
    rw [differs]
    simp

end flows

section removal
variable {fw : Firewall} {p : PinholeT}

theorem called_quiet (n : Nat) (quiet : Quiet fw) :
    ∃ results, fw.called n = (true, { fw with ip6tcResults := results }) ∧
      ∀ result ∈ results, result = true := by
  have calls : ∀ (n : Nat) (results : List Bool), (∀ result ∈ results, result = true) →
      ∃ rest, ip6tcCalls n results = (true, rest) ∧ ∀ result ∈ rest, result = true := by
    intro n
    induction n with
    | zero => exact fun results all => ⟨results, rfl, all⟩
    | succ n ih =>
      intro results all
      cases results with
      | nil => exact ⟨[], rfl, all⟩
      | cons result results =>
        simp only [List.mem_cons, forall_eq_or_imp] at all
        rw [ip6tcCalls, if_pos all.1]
        exact ih results all.2
  obtain ⟨rest, same, all⟩ := calls n fw.ip6tcResults quiet
  exact ⟨rest, by rw [Firewall.called, same], all⟩

/-- The removal succeeds exactly if there is a rule, and the pinhole leaves the list anyway. -/
theorem deletePinhole_quiet (quiet : Quiet fw) (member : p ∈ fw.pinholeList) :
    let deleted := deletePinhole p.uid fw
    Quiet deleted.2 ∧
      deleted.2.pinholeList = fw.pinholeList.eraseP (fun q => q.uid = p.uid) ∧
      deleted.2.chain = fw.chain.eraseP (ruleMatches p) ∧
      (deleted.1 = 0 ↔ pinholeFlow p ∈ fw.chain.map ruleFlow) := by
  obtain ⟨results, opened, quiet'⟩ := called_quiet 2 quiet
  have again : Quiet { fw with ip6tcResults := results } := quiet'
  unfold deletePinhole
  rw [getPinhole_of_mem member]
  dsimp only
  rw [opened]
  dsimp only
  rw [if_pos rfl]
  cases search : findFirst (ruleMatches p) fw.chain with
  | none =>
    have missing := find?_of_findFirst_none search
    have absent : pinholeFlow p ∉ fw.chain.map ruleFlow := by
      intro inside
      obtain ⟨e, there, same⟩ := List.mem_map.mp inside
      exact List.find?_eq_none.mp missing e there ((ruleMatches_iff p e).mpr same)
    exact ⟨quiet', rfl, (eraseP_of_find?_none missing).symm, by simp [absent]⟩
  | some hit =>
    obtain ⟨index, e⟩ := hit
    have found := find?_of_findFirst search
    have present : pinholeFlow p ∈ fw.chain.map ruleFlow := by
      rw [← (ruleMatches_iff p e).mp (List.find?_some found)]
      exact List.mem_map_of_mem (List.mem_of_find?_eq_some found)
    obtain ⟨results', done, quiet''⟩ := called_quiet 2 again
    dsimp only
    rw [done]
    exact ⟨quiet'', rfl, eraseIdx_of_findFirst search, by simp [present]⟩

theorem erased_middle {front back : List PinholeT} (list : fw.pinholeList = front ++ p :: back) :
    fw.pinholeList.eraseP (fun q => q.uid = p.uid) = front ++ back := by
  have distinct := fw.distinct
  rw [list, List.map_append, List.map_cons, List.nodup_middle, List.nodup_cons] at distinct
  have others : ∀ q ∈ front, ¬ decide (q.uid = p.uid) = true := by
    intro q inside same
    apply distinct.1
    rw [← of_decide_eq_true same]
    exact List.mem_append_left _ (List.mem_map_of_mem inside)
  rw [list, List.eraseP_append_right _ others, List.eraseP_cons_of_pos (by simp)]

end removal

/-- The earliest of these expiry times and `minTs`. -/
def earliestOf (list : List PinholeT) (minTs : Nat) : Nat :=
  list.foldl (fun minTs p => min p.timestamp minTs) minTs

theorem earliestOf_spec (list : List PinholeT) (minTs : Nat) :
    earliestOf list minTs ≤ minTs ∧ (∀ p ∈ list, earliestOf list minTs ≤ p.timestamp) ∧
      (earliestOf list minTs = minTs ∨ ∃ p ∈ list, p.timestamp = earliestOf list minTs) := by
  induction list generalizing minTs with
  | nil => simp [earliestOf]
  | cons p rest ih =>
    obtain ⟨most, least, attained⟩ := ih (min p.timestamp minTs)
    have step : earliestOf (p :: rest) minTs = earliestOf rest (min p.timestamp minTs) := rfl
    rw [step]
    refine ⟨by omega, ?_, ?_⟩
    · intro q member
      rcases List.mem_cons.mp member with rfl | later
      · omega
      · exact least q later
    · rcases attained with start | ⟨q, later, same⟩
      · rcases Nat.le_total p.timestamp minTs with here | before
        · exact .inr ⟨p, List.mem_cons_self, by omega⟩
        · exact .inl (by omega)
      · exact .inr ⟨q, List.mem_cons_of_mem p later, same⟩

/-- No expired pinhole among these has lost its rule. -/
def Unorphaned (now : Nat) (chain : List Ip6tEntry) (list : List PinholeT) : Prop :=
  ∀ front p back, list = front ++ p :: back → p.timestamp ≤ now → ¬ Orphan now chain front p

section loop
variable {now : Nat} {p : PinholeT} {chain chain' : List Ip6tEntry} {rest : List PinholeT}

theorem unorphaned_cons (first : p.timestamp ≤ now → ¬ Orphan now chain [] p)
    (same : ∀ front q, Orphan now chain (p :: front) q → Orphan now chain' front q)
    (later : Unorphaned now chain' rest) : Unorphaned now chain (p :: rest) := by
  intro front q back split old orphan
  cases front with
  | nil =>
    obtain ⟨rfl, rfl⟩ := List.cons.inj split
    exact first old orphan
  | cons p' front =>
    obtain ⟨rfl, behind⟩ := List.cons.inj split
    exact later front q back behind old (same front q orphan)

/-- The loop goes to the end, or stops at the first expired pinhole whose rule is gone. -/
theorem cleanLoop_cases (back : List PinholeT) (n minTs : Nat) (fw : Firewall)
    (passed : List PinholeT) (quiet : Quiet fw) (list : fw.pinholeList = passed ++ back) :
    let out := cleanLoop now back n minTs fw
    (Unorphaned now fw.chain back ∧ out.2.pinholeList = passed ++ alive now back ∧
        out.1.2 = earliestOf (alive now back) minTs) ∨
      ∃ front p rest, back = front ++ p :: rest ∧ p.timestamp ≤ now ∧
        Unorphaned now fw.chain front ∧ Orphan now fw.chain front p ∧
        out.2.pinholeList = passed ++ (alive now front ++ rest) ∧
        out.1.2 = earliestOf (alive now front) minTs := by
  induction back generalizing n minTs fw passed with
  | nil =>
    refine .inl ⟨?_, list, rfl⟩
    intro front p rest split
    simp at split
  | cons p rest ih =>
    have member : p ∈ fw.pinholeList := by
      rw [list]
      exact List.mem_append_right _ List.mem_cons_self
    unfold cleanLoop
    by_cases old : p.timestamp ≤ now
    · obtain ⟨quiet', listed, chain, done⟩ := deletePinhole_quiet quiet member
      rw [erased_middle list] at listed
      rw [if_pos old]
      have gone : alive now (p :: rest) = alive now rest :=
        List.filter_cons_of_neg (by simpa using old)
      dsimp only
      by_cases present : pinholeFlow p ∈ fw.chain.map ruleFlow
      · rw [if_pos (done.mpr present)]
        have first : p.timestamp ≤ now → ¬ Orphan now fw.chain [] p := by
          intro _
          have positive := List.count_pos_iff.mpr present
          simp only [Orphan, expired, List.filter_nil, List.map_nil, List.count_nil]
          omega
        have same : ∀ front q, Orphan now fw.chain (p :: front) q →
            Orphan now (deletePinhole p.uid fw).2.chain front q := by
          intro front q orphan
          rw [chain]
          exact (orphan_removed old present).mpr orphan
        rcases ih (n + 1) minTs _ passed quiet' listed with
          ⟨whole, left, time⟩ | ⟨front, q, behind, split, stale, before, orphan, left, time⟩
        · refine .inl ⟨unorphaned_cons first same whole, ?_, ?_⟩
          · rw [left, gone]
          · rw [time, gone]
        · have gone' : alive now (p :: front) = alive now front :=
            List.filter_cons_of_neg (by simpa using old)
          refine .inr ⟨p :: front, q, behind, by rw [split]; rfl, stale,
            unorphaned_cons first same before, ?_, ?_, ?_⟩
          · rw [chain] at orphan
            exact (orphan_removed old present).mp orphan
          · rw [left, gone']
          · rw [time, gone']
      · rw [if_neg (fun zero => present (done.mp zero))]
        refine .inr ⟨[], p, rest, rfl, old, ?_, ?_, listed, rfl⟩
        · intro front q behind split
          simp at split
        · rw [Orphan, List.count_eq_zero.mpr present]
          exact Nat.zero_le _
    · have later : now < p.timestamp := Nat.lt_of_not_le old
      have stays : ∀ list, alive now (p :: list) = p :: alive now list := fun list =>
        List.filter_cons_of_pos (by simpa using later)
      have first : p.timestamp ≤ now → ¬ Orphan now fw.chain [] p := fun early => absurd early old
      have same : ∀ front q, Orphan now fw.chain (p :: front) q → Orphan now fw.chain front q :=
        fun front q => (orphan_alive later).mp
      rw [if_neg old]
      have listed : fw.pinholeList = (passed ++ [p]) ++ rest := by
        rw [list, List.append_assoc, List.singleton_append]
      rcases ih n (min p.timestamp minTs) fw (passed ++ [p]) quiet listed with
        ⟨whole, left, time⟩ | ⟨front, q, behind, split, stale, before, orphan, left, time⟩
      · refine .inl ⟨unorphaned_cons first same whole, ?_, ?_⟩
        · rw [left, stays, List.append_assoc, List.singleton_append]
        · rw [time, stays]
          rfl
      · refine .inr ⟨p :: front, q, behind, by rw [split]; rfl, stale,
          unorphaned_cons first same before, (orphan_alive later).mpr orphan, ?_, ?_⟩
        · rw [left, stays, List.append_assoc, List.singleton_append, List.cons_append]
        · rw [time, stays]
          rfl

end loop

/-- What is stored of the earliest expiry time. -/
def stored (minTs : Nat) : Option Nat := if minTs = UINT_MAX then none else some minTs

theorem stored_attained {seen : List PinholeT} {t : Nat}
    (time : stored (earliestOf seen UINT_MAX) = some t) :
    t < UINT_MAX ∧ (∃ s ∈ seen, s.timestamp = t) ∧ ∀ s ∈ seen, t ≤ s.timestamp := by
  obtain ⟨most, least, attained⟩ := earliestOf_spec seen UINT_MAX
  unfold stored at time
  split at time
  · simp at time
  · rename_i other
    obtain rfl := Option.some.inj time
    exact ⟨Nat.lt_of_le_of_ne most other, attained.resolve_left other, least⟩

/-- The expiry times of the pinholes that the loop has passed over are all that is looked at. -/
theorem earliest_iff {seen rest : List PinholeT}
    (behind : ∀ q ∈ rest, ∃ s ∈ seen, s.timestamp ≤ q.timestamp) :
    (seen ++ rest ≠ [] → ∃ t, stored (earliestOf seen UINT_MAX) = some t ∧
        (∃ p ∈ seen ++ rest, p.timestamp = t) ∧ ∀ p ∈ seen ++ rest, t ≤ p.timestamp) ↔
      (seen ++ rest ≠ [] → ∃ p ∈ seen ++ rest, p.timestamp < UINT_MAX) := by
  constructor
  · intro earliest some_left
    obtain ⟨t, time, ⟨p, inside, same⟩, _⟩ := earliest some_left
    have small := (stored_attained time).1
    exact ⟨p, inside, by omega⟩
  · intro written some_left
    obtain ⟨p, inside, small⟩ := written some_left
    have front : ∃ s ∈ seen, s.timestamp < UINT_MAX := by
      rcases List.mem_append.mp inside with passed | later
      · exact ⟨p, passed, small⟩
      · obtain ⟨s, passed, before⟩ := behind p later
        exact ⟨s, passed, by omega⟩
    obtain ⟨s, passed, early⟩ := front
    obtain ⟨_, least, _⟩ := earliestOf_spec seen UINT_MAX
    have below := least s passed
    have time : stored (earliestOf seen UINT_MAX) = some (earliestOf seen UINT_MAX) :=
      if_neg (by omega)
    obtain ⟨_, ⟨s', passed', same⟩, _⟩ := stored_attained time
    refine ⟨_, time, ⟨s', List.mem_append_left _ passed', same⟩, ?_⟩
    intro q inside
    rcases List.mem_append.mp inside with front | later
    · exact least q front
    · obtain ⟨s, passed, before⟩ := behind q later
      exact Nat.le_trans (least s passed) before

section exact
variable {now : Nat} {fw : Firewall}

theorem alive_append (now : Nat) (front back : List PinholeT) :
    alive now (front ++ back) = alive now front ++ alive now back := List.filter_append ..

theorem alive_self {list : List PinholeT} (all : ∀ q ∈ list, now < q.timestamp) :
    alive now list = list := by
  apply List.filter_eq_self.mpr
  intro q inside
  exact decide_eq_true (all q inside)

/-- The place where the loop stops is the only one that matters. -/
theorem stopsLate_at {front rest : List PinholeT} {p : PinholeT}
    (list : fw.pinholeList = front ++ p :: rest) (unorphaned : Unorphaned now fw.chain front)
    (fresh : ∀ q ∈ rest, now < q.timestamp)
    (behind : ∀ q ∈ rest, ∃ s ∈ alive now front, s.timestamp ≤ q.timestamp) :
    StopsLate now fw := by
  intro front' p' back split old orphan
  rw [list] at split
  rcases List.append_eq_append_iff.mp split with ⟨more, rfl, tail⟩ | ⟨more, rfl, tail⟩
  · cases more with
    | nil =>
      obtain ⟨rfl, rfl⟩ := List.cons.inj tail
      intro q inside
      obtain ⟨s, passed, before⟩ := behind q inside
      obtain ⟨there, later⟩ := mem_alive.mp passed
      exact ⟨fresh q inside, s, List.mem_append_left _ there, later, before⟩
    | cons first more =>
      obtain ⟨_, rfl⟩ := List.cons.inj tail
      have later := fresh p' (List.mem_append_right _ List.mem_cons_self)
      omega
  · cases more with
    | nil =>
      obtain ⟨rfl, rfl⟩ := List.cons.inj tail
      intro q inside
      obtain ⟨s, passed, before⟩ := behind q inside
      rw [List.append_nil] at passed
      obtain ⟨there, later⟩ := mem_alive.mp passed
      exact ⟨fresh q inside, s, there, later, before⟩
    | cons first more =>
      obtain ⟨rfl, _⟩ := List.cons.inj tail
      exact absurd orphan (unorphaned front' p' more rfl old)

theorem cleanLoop_exact (quiet : Quiet fw) :
    let out := cleanLoop now fw.pinholeList 0 UINT_MAX fw
    Cleaned now fw.pinholeList (stored out.1.2) out.2.pinholeList ↔
      StopsLate now fw ∧ Written now fw := by
  rcases cleanLoop_cases fw.pinholeList 0 UINT_MAX fw [] quiet rfl with
    ⟨whole, left, time⟩ | ⟨front, p, rest, list, old, unorphaned, orphan, left, time⟩
  · dsimp only
    rw [left, time, List.nil_append]
    have late : StopsLate now fw := by
      intro front p back split old orphan
      exact absurd orphan (whole front p back split old)
    have nobody : ∀ q ∈ ([] : List PinholeT),
        ∃ s ∈ alive now fw.pinholeList, s.timestamp ≤ q.timestamp := by
      intro q inside
      exact absurd inside List.not_mem_nil
    have exact := earliest_iff nobody
    rw [List.append_nil] at exact
    constructor
    · intro cleaned
      exact ⟨late, exact.mp cleaned.earliest⟩
    · intro both
      refine ⟨?_, ?_, exact.mpr both.2⟩
      · intro p inside
        exact (mem_alive.mp inside).2
      · intro p inside later
        exact mem_alive.mpr ⟨inside, later⟩
  · dsimp only
    rw [left, time, List.nil_append]
    have skipped : alive now (p :: rest) = alive now rest :=
      List.filter_cons_of_neg (by simpa using old)
    constructor
    · intro cleaned
      have fresh : ∀ q ∈ rest, now < q.timestamp := by
        intro q inside
        exact cleaned.gone q (List.mem_append_right _ inside)
      have behind : ∀ q ∈ rest, ∃ s ∈ alive now front, s.timestamp ≤ q.timestamp := by
        intro q inside
        have after := List.mem_append_right (alive now front) inside
        obtain ⟨t, stored, _, least⟩ := cleaned.earliest (List.ne_nil_of_mem after)
        obtain ⟨_, ⟨s, passed, same⟩, _⟩ := stored_attained stored
        have below := least q after
        exact ⟨s, passed, by omega⟩
      refine ⟨stopsLate_at list unorphaned fresh behind, ?_⟩
      rw [Written, list, alive_append, skipped, alive_self fresh]
      exact (earliest_iff behind).mp cleaned.earliest
    · intro both
      obtain ⟨late, written⟩ := both
      have stop := late front p rest list old orphan
      have fresh : ∀ q ∈ rest, now < q.timestamp := fun q inside => (stop q inside).1
      have behind : ∀ q ∈ rest, ∃ s ∈ alive now front, s.timestamp ≤ q.timestamp := by
        intro q inside
        obtain ⟨_, s, there, later, before⟩ := stop q inside
        exact ⟨s, mem_alive.mpr ⟨there, later⟩, before⟩
      rw [Written, list, alive_append, skipped, alive_self fresh] at written
      refine ⟨?_, ?_, (earliest_iff behind).mpr written⟩
      · intro q inside
        rcases List.mem_append.mp inside with passed | later
        · exact (mem_alive.mp passed).2
        · exact fresh q later
      · intro q inside later
        rw [list] at inside
        rcases List.mem_append.mp inside with there | there
        · exact List.mem_append_left _ (mem_alive.mpr ⟨there, later⟩)
        · rcases List.mem_cons.mp there with rfl | there
          · omega
          · exact List.mem_append_right _ there

/-- What expires later stays, and nothing comes into the list. -/
theorem cleanLoop_between (quiet : Quiet fw) {p : PinholeT} :
    let out := cleanLoop now fw.pinholeList 0 UINT_MAX fw
    (p ∈ fw.pinholeList → now < p.timestamp → p ∈ out.2.pinholeList) ∧
      (p ∈ out.2.pinholeList → p ∈ fw.pinholeList) := by
  rcases cleanLoop_cases fw.pinholeList 0 UINT_MAX fw [] quiet rfl with
    ⟨_, left, _⟩ | ⟨front, q, rest, list, old, _, _, left, _⟩
  · dsimp only
    rw [left, List.nil_append, mem_alive]
    exact ⟨fun inside later => ⟨inside, later⟩, fun both => both.1⟩
  · dsimp only
    rw [left, list, List.nil_append, List.mem_append, List.mem_append, mem_alive, List.mem_cons]
    constructor
    · intro inside later
      rcases inside with there | rfl | there
      · exact .inl ⟨there, later⟩
      · omega
      · exact .inr there
    · intro inside
      rcases inside with there | there
      · exact .inl there.1
      · exact .inr (.inr there)

section clock
variable {t : Nat} (same : ∀ p ∈ fw.pinholeList, now < p.timestamp ↔ t < p.timestamp)
include same

theorem cleaned_same {next : Option Nat} {after : List PinholeT}
    (inside : ∀ p ∈ after, p ∈ fw.pinholeList) :
    Cleaned now fw.pinholeList next after ↔ Cleaned t fw.pinholeList next after := by
  constructor
  · intro cleaned
    refine ⟨?_, ?_, cleaned.earliest⟩
    · exact fun p left => (same p (inside p left)).mp (cleaned.gone p left)
    · exact fun p there later => cleaned.kept p there ((same p there).mpr later)
  · intro cleaned
    refine ⟨?_, ?_, cleaned.earliest⟩
    · exact fun p left => (same p (inside p left)).mpr (cleaned.gone p left)
    · exact fun p there later => cleaned.kept p there ((same p there).mp later)

theorem alive_same : alive now fw.pinholeList = alive t fw.pinholeList :=
  List.filter_congr fun p inside => decide_eq_decide.mpr (same p inside)

theorem stopsLate_same : StopsLate now fw ↔ StopsLate t fw := by
  have early : ∀ p ∈ fw.pinholeList, p.timestamp ≤ now ↔ p.timestamp ≤ t := by
    intro p inside
    have later := same p inside
    omega
  unfold StopsLate
  apply forall_congr'
  intro front
  apply forall_congr'
  intro p
  apply forall_congr'
  intro back
  apply forall_congr'
  intro list
  have ahead : ∀ q ∈ front, q ∈ fw.pinholeList := by
    intro q inside
    rw [list]
    exact List.mem_append_left _ inside
  have behind : ∀ q ∈ p :: back, q ∈ fw.pinholeList := by
    intro q inside
    rw [list]
    exact List.mem_append_right _ inside
  have removed : expired now front = expired t front :=
    List.filter_congr fun q inside => decide_eq_decide.mpr (early q (ahead q inside))
  have orphan : Orphan now fw.chain front p ↔ Orphan t fw.chain front p := by
    unfold Orphan
    rw [removed]
  apply imp_congr (early p (behind p List.mem_cons_self))
  apply imp_congr orphan
  apply forall₂_congr
  intro q inside
  apply and_congr (same q (behind q (List.mem_cons_of_mem p inside)))
  apply exists_congr
  intro s
  apply and_congr_right
  intro passed
  exact and_congr_left fun _ => same s (ahead s passed)

end clock

/-- A cleaning does what it is for exactly if the time fits in 32 bits as far as the pinholes are
    concerned, the loop does not stop too early, and the earliest expiry time is written. -/
theorem cleaned_iff (now : Nat) (fw : Firewall) (quiet : Quiet fw) :
    Cleaned now fw.pinholeList (cleanPinholeList now fw).1.2
        (cleanPinholeList now fw).2.pinholeList ↔
      SameTime now fw ∧ StopsLate now fw ∧ Written now fw := by
  have below : now % 2 ^ 32 ≤ now := Nat.mod_le _ _
  have exact := @cleanLoop_exact (now % 2 ^ 32) fw quiet
  have between := fun p => @cleanLoop_between (now % 2 ^ 32) fw quiet p
  by_cases sameTime : SameTime now fw
  · have same : ∀ p ∈ fw.pinholeList, now < p.timestamp ↔ now % 2 ^ 32 < p.timestamp := by
      intro p inside
      have early := sameTime p inside
      omega
    have timed := @cleaned_same now fw _ same (cleanPinholeList now fw).1.2
      (cleanPinholeList now fw).2.pinholeList fun p => (between p).2
    rw [timed, stopsLate_same same, Written, alive_same same]
    exact exact.trans (and_iff_right sameTime).symm
  · constructor
    · intro cleaned
      exfalso
      apply sameTime
      intro p inside old
      by_contra later
      have left := (between p).1 inside (Nat.lt_of_not_le later)
      have fresh := cleaned.gone p left
      omega
    · intro both
      exact absurd both.1 sameTime

end exact

def webPinhole (uid : UInt16) (timestamp : Nat) : PinholeT :=
  { saddr := 0, daddr := 2, timestamp, sport := 0, dport := 80 + uid, uid, proto := 6
    desc := "web".toList }

/-- The chain has been flushed. -/
def flushed (list : List PinholeT) (distinct : (list.map PinholeT.uid).Nodup) : Firewall :=
  { chain := [], pinholeList := list, nextUid := 3, ip6tcResults := [], distinct }

/-- The expired one is behind the other. -/
theorem cleaned_last :
    Cleaned 200 [webPinhole 2 300, webPinhole 1 100]
        (cleanPinholeList 200 (flushed [webPinhole 2 300, webPinhole 1 100] (by decide))).1.2
        (cleanPinholeList 200
          (flushed [webPinhole 2 300, webPinhole 1 100] (by decide))).2.pinholeList ↔
      SameTime 200 (flushed [webPinhole 2 300, webPinhole 1 100] (by decide)) ∧
        StopsLate 200 (flushed [webPinhole 2 300, webPinhole 1 100] (by decide)) ∧
        Written 200 (flushed [webPinhole 2 300, webPinhole 1 100] (by decide)) :=
  cleaned_iff 200 (flushed [webPinhole 2 300, webPinhole 1 100] (by decide))
    fun _ inside => absurd inside List.not_mem_nil

/-- The second one has expired too, and stays. -/
theorem expired_left :
    ¬ Cleaned 200 [webPinhole 2 100, webPinhole 1 150]
        (cleanPinholeList 200 (flushed [webPinhole 2 100, webPinhole 1 150] (by decide))).1.2
        (cleanPinholeList 200
          (flushed [webPinhole 2 100, webPinhole 1 150] (by decide))).2.pinholeList := by
  intro cleaned
  have left : webPinhole 1 150 ∈ (cleanPinholeList 200
      (flushed [webPinhole 2 100, webPinhole 1 150] (by decide))).2.pinholeList := by decide
  exact absurd (cleaned.gone _ left) (by decide)

end PinholeCleaning
