import Mathlib.Algebra.Group.Int.Defs
import Mathlib.Algebra.Group.Nat.Defs
import Mathlib.Algebra.GroupWithZero.Nat
import Mathlib.Algebra.Order.BigOperators.Group.List
import Mathlib.Algebra.Order.Group.Nat

/-!
A list of records that is read back, each record with the results it is read back as. When
the results of a record never weigh more than the one expected of it, and several of them
weigh less, the results of all records are the expected ones exactly if those of each are.
-/
namespace ReadBack
variable {α β : Type*} {l : List α}

theorem forall_eq_of_sum_eq {v w : α → Nat} (bound : ∀ a ∈ l, v a ≤ w a)
    (same : (l.map v).sum = (l.map w).sum) : ∀ a ∈ l, v a = w a := by
  induction l with
  | nil => simp
  | cons a l ih =>
    have first := bound a List.mem_cons_self
    have others : ∀ b ∈ l, v b ≤ w b := fun b member => bound b (List.mem_cons_of_mem a member)
    have rest : (l.map v).sum ≤ (l.map w).sum := List.sum_le_sum others
    simp only [List.map_cons, List.sum_cons] at same
    intro b member
    rcases List.mem_cons.mp member with rfl | later
    · omega
    · exact ih others (by omega) b later

theorem sum_flatMap (f : α → List β) (weight : β → Nat) :
    ((l.flatMap f).map weight).sum = (l.map fun a => ((f a).map weight).sum).sum := by
  induction l with
  | nil => rfl
  | cons a l ih => simp [List.flatMap_cons, ih]

theorem length_flatMap_le {f : α → List β} (short : ∀ a ∈ l, (f a).length ≤ 1) :
    (l.flatMap f).length ≤ l.length := by
  induction l with
  | nil => simp
  | cons a l ih =>
    have first := short a List.mem_cons_self
    have rest := ih fun b member => short b (List.mem_cons_of_mem a member)
    simp only [List.flatMap_cons, List.length_append, List.length_cons]
    omega

theorem singletons_of_flatMap {f : α → List β} {g : α → β} (short : ∀ a ∈ l, (f a).length ≤ 1)
    (same : l.flatMap f = l.map g) : ∀ a ∈ l, f a = [g a] := by
  induction l with
  | nil => simp
  | cons a l ih =>
    have first := short a List.mem_cons_self
    have others : ∀ b ∈ l, (f b).length ≤ 1 := fun b member => short b (List.mem_cons_of_mem a member)
    have rest := length_flatMap_le others
    have lengths := congrArg List.length same
    simp only [List.flatMap_cons, List.map_cons] at same lengths
    simp only [List.length_append, List.length_cons, List.length_map] at lengths
    have one : (f a).length = 1 := by omega
    obtain ⟨x, only⟩ := List.length_eq_one_iff.mp one
    rw [only, List.singleton_append, List.cons.injEq] at same
    intro b member
    rcases List.mem_cons.mp member with rfl | later
    · rw [only, same.1]
    · exact ih others same.2 b later

theorem flatMap_eq_map_iff {f : α → List β} {g : α → β} (weight : β → Nat)
    (bound : ∀ a ∈ l, ((f a).map weight).sum ≤ weight (g a))
    (short : ∀ a ∈ l, ((f a).map weight).sum = weight (g a) → (f a).length ≤ 1) :
    l.flatMap f = l.map g ↔ ∀ a ∈ l, f a = [g a] := by
  constructor
  · intro same
    have total := congrArg (fun results => (results.map weight).sum) same
    simp only [sum_flatMap, List.map_map] at total
    have each := forall_eq_of_sum_eq bound total
    exact singletons_of_flatMap (fun a member => short a member (each a member)) same
  · intro each
    induction l with
    | nil => rfl
    | cons a l ih =>
      rw [List.flatMap_cons, List.map_cons, each a List.mem_cons_self, List.singleton_append]
      congr 1
      apply ih
      · exact fun b member => bound b (List.mem_cons_of_mem a member)
      · exact fun b member => short b (List.mem_cons_of_mem a member)
      · exact fun b member => each b (List.mem_cons_of_mem a member)

theorem length_filterMap_le {f g : α → Option β} (more : ∀ a ∈ l, (g a).isSome → (f a).isSome) :
    (l.filterMap g).length ≤ (l.filterMap f).length := by
  induction l with
  | nil => simp
  | cons a l ih =>
    have first := more a List.mem_cons_self
    have rest := ih fun b member => more b (List.mem_cons_of_mem a member)
    simp only [List.filterMap_cons]
    cases read : g a with
    | none =>
      cases f a with
      | none => exact rest
      | some b => exact Nat.le_succ_of_le rest
    | some b =>
      rw [read] at first
      obtain ⟨c, found⟩ := Option.isSome_iff_exists.mp (first rfl)
      rw [found]
      exact Nat.succ_le_succ rest

/-- Where a reader takes at least the records that it should take, it reads the list right exactly
    if it reads each record right. -/
theorem filterMap_eq_iff {f g : α → Option β} (more : ∀ a ∈ l, (g a).isSome → (f a).isSome) :
    l.filterMap f = l.filterMap g ↔ ∀ a ∈ l, f a = g a := by
  constructor
  · intro same
    induction l with
    | nil => simp
    | cons a l ih =>
      have first := more a List.mem_cons_self
      have others : ∀ b ∈ l, (g b).isSome → (f b).isSome :=
        fun b member => more b (List.mem_cons_of_mem a member)
      have lengths := length_filterMap_le others
      simp only [List.filterMap_cons] at same
      intro b member
      cases read : g a with
      | none =>
        cases found : f a with
        | none =>
          simp only [read, found] at same
          rcases List.mem_cons.mp member with rfl | later
          · rw [found, read]
          · exact ih others same b later
        | some c =>
          simp only [read, found] at same
          have longer := congrArg List.length same
          rw [List.length_cons] at longer
          omega
      | some c =>
        rw [read] at first
        obtain ⟨d, found⟩ := Option.isSome_iff_exists.mp (first rfl)
        simp only [read, found, List.cons.injEq] at same
        rcases List.mem_cons.mp member with rfl | later
        · rw [found, read, same.1]
        · exact ih others same.2 b later
  · intro each
    exact List.filterMap_congr each

theorem length_filter_flatMap_le {pieces : α → List β} {p : β → Bool} {q : α → Bool}
    (shown : ∀ a ∈ l, q a = true → ∀ b ∈ pieces a, p b = true) :
    ((l.filter q).flatMap pieces).length ≤ ((l.flatMap pieces).filter p).length := by
  induction l with
  | nil => simp
  | cons a l ih =>
    have rest := ih fun b member => shown b (List.mem_cons_of_mem a member)
    rw [List.flatMap_cons, List.filter_append, List.length_append, List.filter_cons]
    split
    · rename_i kept
      have whole := List.filter_eq_self.mpr (shown a List.mem_cons_self kept)
      rw [List.flatMap_cons, List.length_append, whole]
      omega
    · omega

/-- To keep pieces by themselves is to keep whole records exactly if each piece is kept like the
    record that it is of. -/
theorem filter_flatMap_eq_iff {pieces : α → List β} {p : β → Bool} {q : α → Bool} :
    (l.flatMap pieces).filter p = (l.filter q).flatMap pieces ↔
      ∀ a ∈ l, ∀ b ∈ pieces a, p b = q a := by
  constructor
  · intro same
    have shown : ∀ a ∈ l, q a = true → ∀ b ∈ pieces a, p b = true := by
      intro a member kept b inside
      have left : b ∈ (l.filter q).flatMap pieces :=
        List.mem_flatMap.mpr ⟨a, List.mem_filter.mpr ⟨member, kept⟩, inside⟩
      rw [← same] at left
      exact (List.mem_filter.mp left).2
    have lengths := congrArg List.length same
    clear same
    induction l with
    | nil => simp
    | cons a l ih =>
      have others : ∀ b ∈ l, q b = true → ∀ c ∈ pieces b, p c = true :=
        fun b member => shown b (List.mem_cons_of_mem a member)
      have least := length_filter_flatMap_le others
      rw [List.flatMap_cons, List.filter_append, List.length_append, List.filter_cons] at lengths
      intro b member c inside
      cases kept : q a with
      | true =>
        have first := shown a List.mem_cons_self kept
        rw [if_pos kept, List.flatMap_cons, List.length_append, List.filter_eq_self.mpr first]
          at lengths
        rcases List.mem_cons.mp member with rfl | later
        · rw [kept]
          exact first c inside
        · exact ih others (by omega) b later c inside
      | false =>
        rw [if_neg (by simp [kept])] at lengths
        have none_left : (pieces a).filter p = [] := List.length_eq_zero_iff.mp (by omega)
        rcases List.mem_cons.mp member with rfl | later
        · rw [kept]
          exact Bool.eq_false_iff.mpr (List.filter_eq_nil_iff.mp none_left c inside)
        · exact ih others (by rw [none_left] at lengths; simpa using lengths) b later c inside
  · intro each
    induction l with
    | nil => rfl
    | cons a l ih =>
      have rest := ih fun b member => each b (List.mem_cons_of_mem a member)
      have first := each a List.mem_cons_self
      rw [List.flatMap_cons, List.filter_append, rest, List.filter_cons]
      cases kept : q a with
      | true =>
        rw [kept] at first
        rw [if_pos rfl, List.flatMap_cons, List.filter_eq_self.mpr first]
      | false =>
        rw [kept] at first
        have dropped : (pieces a).filter p = [] :=
          List.filter_eq_nil_iff.mpr fun b inside => by simp [first b inside]
        rw [if_neg (by decide), dropped, List.nil_append]

end ReadBack
