import Mathlib.Data.List.Count
import Mathlib.Data.List.TakeWhile
import Mathlib.Data.Set.List
import MiniUPnPd.Lib.FirstMatch

/-!
Entries put in at the end of a table under some keys, and then for every key the first entry
taken out that has it. The table is as it was before exactly if no entry of it has one of the
keys, but for entries at its end that are those put in, from an earlier time, and that come out
in the order in which they stand.
-/
namespace EraseEach
variable {κ α : Type*} {hits : κ → α → Bool} {rule : κ → α} {ks : List κ} {a : α} {l m : List α}

def eraseEach (hits : κ → α → Bool) : List κ → List α → List α
  | [], l => l
  | k :: ks, l => eraseEach hits ks (l.eraseP (hits k))

def Missed (hits : κ → α → Bool) (ks : List κ) (a : α) : Prop := ∀ k ∈ ks, hits k a = false

theorem eraseEach_sublist (ks : List κ) (l : List α) : (eraseEach hits ks l).Sublist l := by
  induction ks generalizing l with
  | nil => exact List.Sublist.refl l
  | cons k ks ih => exact (ih (l.eraseP (hits k))).trans List.eraseP_sublist

/-- An entry without any of the keys stays, and so does what is in front of it and behind it. -/
theorem eraseEach_past (missed : Missed hits ks a) :
    ∃ m', eraseEach hits ks (l ++ a :: m) = eraseEach hits ks l ++ a :: m' := by
  induction ks generalizing l m with
  | nil => exact ⟨m, rfl⟩
  | cons k ks ih =>
    have other : hits k a = false := missed k List.mem_cons_self
    have rest : Missed hits ks a := fun j member => missed j (List.mem_cons_of_mem k member)
    by_cases early : ∃ b ∈ l, hits k b = true
    · obtain ⟨b, member, hit⟩ := early
      simp only [eraseEach, List.eraseP_append_left hit _ member]
      exact ih rest
    · push Not at early
      have kept : l.eraseP (hits k) = l := List.eraseP_of_forall_not (by simpa using early)
      have stays : (a :: m).eraseP (hits k) = a :: m.eraseP (hits k) :=
        List.eraseP_cons_of_neg (by simp [other])
      simp only [eraseEach, List.eraseP_append_right _ (by simpa using early), kept, stays]
      exact ih rest

theorem eraseEach_behind (missed : ∀ a ∈ l, Missed hits ks a) :
    eraseEach hits ks (l ++ m) = l ++ eraseEach hits ks m := by
  induction ks generalizing m with
  | nil => rfl
  | cons k ks ih =>
    have none : ∀ a ∈ l, ¬ hits k a = true := by
      intro a member
      simp [missed a member k List.mem_cons_self]
    simp only [eraseEach, List.eraseP_append_right _ none]
    exact ih fun a member j later => missed a member j (List.mem_cons_of_mem k later)

/-- Something is taken out where an entry has one of the keys. -/
theorem length_eraseEach_lt {k : κ} (asked : k ∈ ks) (member : a ∈ l) (hit : hits k a = true) :
    (eraseEach hits ks l).length < l.length := by
  induction ks with
  | nil => cases asked
  | cons j ks ih =>
    by_cases first : ∃ b ∈ l, hits j b = true
    · obtain ⟨b, inside, early⟩ := first
      have one := List.length_eraseP_of_mem inside early
      have rest := (@eraseEach_sublist κ α hits ks (l.eraseP (hits j))).length_le
      have some := List.length_pos_of_mem inside
      simp only [eraseEach]
      omega
    · push Not at first
      have kept : l.eraseP (hits j) = l := List.eraseP_of_forall_not (by simpa using first)
      rw [eraseEach, kept]
      rcases List.mem_cons.mp asked with here | later
      · subst here
        exact absurd hit (first a member)
      · exact ih later

theorem asked_of_restored (head : ∀ a ∈ l.head?, ¬ Missed hits ks a)
    (restored : eraseEach hits ks (l ++ m) = l) : ∀ a ∈ l, ¬ Missed hits ks a := by
  classical
  intro a member missed
  have some : (l.find? fun b => decide (Missed hits ks b)).isSome := by
    apply List.find?_isSome.mpr
    exact ⟨a, member, decide_eq_true missed⟩
  obtain ⟨x, found⟩ := Option.isSome_iff_exists.mp some
  obtain ⟨free, u, w, rfl, before⟩ := List.find?_eq_some_iff_append.mp found
  obtain ⟨m', erased⟩ := eraseEach_past (l := u) (m := w ++ m) (of_decide_eq_true free)
  rw [List.append_assoc, List.cons_append, erased] at restored
  -- nothing goes from `u`, whose first entry has one of the keys
  have upTo : ∀ {v t : List α}, v.Sublist u →
      (v ++ x :: t).takeWhile (fun b => !decide (Missed hits ks b)) = v := by
    intro v t part
    rw [List.takeWhile_append_of_pos fun b inside => before b (part.subset inside)]
    simp [free]
  have kept := congrArg (List.takeWhile fun b => !decide (Missed hits ks b)) restored
  rw [upTo (eraseEach_sublist ks u), upTo (List.Sublist.refl u)] at kept
  cases u with
  | nil => exact head x rfl (of_decide_eq_true free)
  | cons b u =>
    have hit := head b rfl
    simp only [Missed, not_forall] at hit
    obtain ⟨k, key, hit⟩ := hit
    have own : b ∈ b :: u := List.mem_cons_self
    have fewer := length_eraseEach_lt key own (Bool.eq_true_of_not_eq_false hit)
    rw [kept] at fewer
    exact absurd fewer (Nat.lt_irrefl _)

/-- A list that is again the same after as many copies of one entry are put in behind it as are
    dropped in front of it has nothing but that entry. -/
theorem all_of_drop_append {n : Nat} {s : List α} (pos : 0 < n)
    (same : (s ++ List.replicate n a).drop n = s) : ∀ b ∈ s, b = a := by
  induction size : s.length using Nat.strongRecOn generalizing s with
  | ind len ih =>
    by_cases short : s.length ≤ n
    · rw [List.drop_append, List.drop_eq_nil_of_le short, List.nil_append,
        List.drop_replicate] at same
      intro b member
      rw [← same] at member
      exact List.eq_of_mem_replicate member
    · have front : (s ++ List.replicate n a).drop n = s.drop n ++ List.replicate n a := by
        rw [List.drop_append_of_le_length (by omega)]
      have shift : s.drop n ++ List.replicate n a = s := front.symm.trans same
      have again : (s.drop n ++ List.replicate n a).drop n = s.drop n :=
        congrArg (List.drop n) shift
      have fewer : (s.drop n).length < len := by
        rw [List.length_drop]
        omega
      have back := ih (s.drop n).length fewer again rfl
      intro b member
      rw [← shift] at member
      rcases List.mem_append.mp member with later | new
      · exact back b later
      · exact List.eq_of_mem_replicate new

section keys
variable [DecidableEq κ] (one : ∀ k j a, hits k a = true → hits j a = true → k = j)
include one

/-- Of the entries with one key, as many go as the key is asked for, from the front. -/
theorem filter_eraseEach (k : κ) (ks : List κ) (l : List α) :
    (eraseEach hits ks l).filter (hits k) = (l.filter (hits k)).drop (ks.count k) := by
  induction ks generalizing l with
  | nil => rfl
  | cons j ks ih =>
    rw [eraseEach, ih]
    cases found : l.find? (hits j) with
    | none =>
      rw [FirstMatch.eraseP_of_find?_none found]
      by_cases same : j = k
      · subst same
        have none : l.filter (hits j) = [] := by
          apply List.filter_eq_nil_iff.mpr
          simpa using found
        simp [none]
      · rw [List.count_cons_of_ne same]
    | some b =>
      have hit : hits j b = true := List.find?_some found
      by_cases same : j = k
      · subst same
        have fewer : (l.eraseP (hits j)).filter (hits j) = (l.filter (hits j)).drop 1 := by
          obtain ⟨_, u, w, whole, before⟩ := List.find?_eq_some_iff_append.mp found
          have none : u.filter (hits j) = [] := by
            apply List.filter_eq_nil_iff.mpr
            simpa using before
          have skipped : ∀ c ∈ u, ¬ hits j c = true := by simpa using before
          rw [whole, List.eraseP_append_right _ skipped, List.eraseP_cons_of_pos hit]
          simp [none, hit]
        rw [fewer, List.drop_drop, List.count_cons_self, Nat.add_comm]
      · have hidden : hits k b = false := by
          apply Bool.eq_false_iff.mpr
          intro also
          exact same (one j k b hit also)
        rw [FirstMatch.filter_eraseP found hidden, List.count_cons_of_ne same]

variable (own : ∀ k j, hits k (rule j) = true ↔ k = j)
include own

omit one in
theorem eraseEach_map (ks left : List κ) :
    eraseEach hits ks (left.map rule) = (left.diff ks).map rule := by
  induction ks generalizing left with
  | nil => rw [List.diff_nil, eraseEach]
  | cons k ks ih =>
    have test : hits k ∘ rule = fun j => k == j := by
      funext j
      apply Bool.eq_iff_iff.mpr
      simp [own]
    have first : left.eraseP (fun j => k == j) = left.erase k := (List.erase_eq_eraseP k left).symm
    rw [eraseEach, List.eraseP_map, test, first, ih, List.diff_cons]

omit one in
theorem filter_map_rule (k : κ) (ks : List κ) :
    (ks.map rule).filter (hits k) = List.replicate (ks.count k) (rule k) := by
  induction ks with
  | nil => rfl
  | cons j ks ih =>
    rw [List.map_cons]
    by_cases same : j = k
    · subst same
      rw [List.filter_cons_of_pos ((own j j).mpr rfl), ih, List.count_cons_self,
        List.replicate_succ]
    · have other : ¬ hits k (rule j) = true := by
        intro hit
        exact same ((own k j).mp hit).symm
      rw [List.filter_cons_of_neg other, ih, List.count_cons_of_ne same]

/-- Where every entry has one of the keys, those that stay are the ones put in. -/
theorem rules_of_restored (asked : ∀ a ∈ l, ¬ Missed hits ks a)
    (restored : eraseEach hits ks (l ++ ks.map rule) = l) : ∃ left : List κ, l = left.map rule := by
  have range : ∀ a ∈ l, a ∈ Set.range rule := by
    intro a member
    have some := asked a member
    simp only [Missed, not_forall] at some
    obtain ⟨k, key, hit⟩ := some
    have passing := congrArg (List.filter (hits k)) restored
    rw [filter_eraseEach one, List.filter_append, filter_map_rule own] at passing
    have inside : a ∈ l.filter (hits k) :=
      List.mem_filter.mpr ⟨member, Bool.eq_true_of_not_eq_false hit⟩
    exact ⟨k, (all_of_drop_append (List.count_pos_iff.mpr key) passing a inside).symm⟩
  have whole : l ∈ Set.range (List.map rule) := by
    rw [Set.range_list_map]
    exact range
  obtain ⟨left, same⟩ := whole
  exact ⟨left, same.symm⟩

theorem restored_iff :
    eraseEach hits ks (l ++ ks.map rule) = l ↔
      ∃ others : List α, ∃ left : List κ, l = others ++ left.map rule ∧
        (∀ a ∈ others, Missed hits ks a) ∧ (left ++ ks).diff ks = left := by
  classical
  constructor
  · intro restored
    -- the entries in front of the first one that has a key
    let free : α → Bool := fun a => decide (Missed hits ks a)
    have split : l = l.takeWhile free ++ l.dropWhile free := List.takeWhile_append_dropWhile.symm
    have front : ∀ a ∈ l.takeWhile free, Missed hits ks a := by
      intro a member
      have passed := List.mem_takeWhile_imp member
      exact of_decide_eq_true passed
    have back : eraseEach hits ks (l.dropWhile free ++ ks.map rule) = l.dropWhile free := by
      rw [split, List.append_assoc, eraseEach_behind front] at restored
      exact List.append_cancel_left restored
    have asked : ∀ a ∈ l.dropWhile free, ¬ Missed hits ks a := by
      apply asked_of_restored _ back
      intro a first
      have bound := List.head?_dropWhile_not free l
      rw [Option.mem_def.mp first] at bound
      simpa [free] using bound
    obtain ⟨left, rules⟩ := rules_of_restored one own asked back
    refine ⟨l.takeWhile free, left, by rw [← rules, ← split], front, ?_⟩
    rw [rules, ← List.map_append, eraseEach_map own] at back
    have injective : Function.Injective rule := by
      intro k j same
      exact (own k j).mp (same ▸ (own k k).mpr rfl)
    exact List.map_injective_iff.mpr injective back
  · intro shape
    obtain ⟨others, left, rfl, missed, same⟩ := shape
    rw [List.append_assoc, eraseEach_behind missed, ← List.map_append, eraseEach_map own, same]

end keys

end EraseEach
