import Mathlib.Algebra.Group.Int.Defs
import Mathlib.Algebra.Group.Nat.Defs
import Mathlib.Data.List.Basic
import Mathlib.Data.Option.Basic

/-!
An array of C that grows while it is filled: the variable for its capacity, the block that is
allocated, the count of the elements, an `unsigned int`, and whether every write was inside the
block. How the capacity grows is a function of the capacity and the count.
-/
namespace GrowingArray

structure Growing (α : Type) where
  capacity : Nat
  /-- The elements of the block that something was written to. -/
  block : List (Option α)
  number : Nat
  inside : Bool

section operations
variable {α : Type}

def calloc (capacity : Nat) : Growing α :=
  { capacity, block := List.replicate capacity none, number := 0, inside := true }

def realloc (size : Nat) (block : List (Option α)) : List (Option α) :=
  block.take size ++ List.replicate (size - block.length) none

def reserve (grow : Nat → Nat → Nat) (a : Growing α) : Growing α :=
  if a.number ≥ a.capacity then
    let capacity := grow a.capacity a.number
    { a with capacity, block := realloc capacity a.block }
  else a

def store (a : Growing α) (x : α) : Growing α :=
  { a with
    block := a.block.set a.number (some x)
    number := (a.number + 1) % 2 ^ 32
    inside := a.inside && decide (a.number < a.block.length) }

def push (grow : Nat → Nat → Nat) (a : Growing α) (x : α) : Growing α := store (reserve grow a) x

end operations

/-- The counted elements are these, and no write has left the block. -/
structure Holds {α : Type} (a : Growing α) (xs : List α) : Prop where
  inside : a.inside = true
  number : a.number = xs.length
  elements : a.block.take xs.length = xs.map some

/-- And the block has as many elements as the variable says. -/
structure Filled {α : Type} (a : Growing α) (xs : List α) : Prop extends Holds a xs where
  size : a.block.length = a.capacity
  counted : xs.length ≤ a.capacity

section filling
variable {α : Type} {grow : Nat → Nat → Nat} {a : Growing α} {xs ys : List α} {x : α}

theorem holds_unique (holds : Holds a xs) : Holds a ys ↔ ys = xs := by
  constructor
  · intro again
    have length : ys.length = xs.length := by rw [← again.number, holds.number]
    have elements := again.elements
    rw [length, holds.elements] at elements
    exact (List.map_injective_iff.mpr (Option.some_injective α) elements).symm
  · intro same
    subst same
    exact holds

theorem calloc_filled (capacity : Nat) : Filled (calloc capacity : Growing α) [] where
  inside := rfl
  number := rfl
  elements := rfl
  size := List.length_replicate
  counted := Nat.zero_le _

theorem store_filled (filled : Filled a xs) (room : xs.length < a.capacity)
    (small : xs.length + 1 < 2 ^ 32) : Filled (store a x) (xs ++ [x]) := by
  have number := filled.number
  have size := filled.size
  have within : xs.length < a.block.length := by omega
  constructor
  · constructor
    · simp only [store, filled.inside, number, within, decide_true, Bool.and_true]
    · simp only [store, number, List.length_append, List.length_singleton]
      omega
    · have before : ((a.block.set xs.length (some x)).take xs.length) = xs.map some := by
        rw [List.take_set_of_le (Nat.le_refl _), filled.elements]
      have here : (a.block.set xs.length (some x))[xs.length]? = some (some x) :=
        List.getElem?_set_self within
      simp only [store, number, List.length_append, List.length_singleton]
      rw [List.take_add_one, before, here, List.map_append]
      rfl
  · simp only [store, List.length_set, size]
  · simp only [store, List.length_append, List.length_singleton]
    omega

theorem reserve_full (full : a.number ≥ a.capacity) :
    reserve grow a =
      { a with
        capacity := grow a.capacity a.number
        block := realloc (grow a.capacity a.number) a.block } := if_pos full

/-- A capacity that grows beyond the count keeps what is counted. -/
theorem reserve_filled (filled : Filled a xs)
    (grows : a.capacity = xs.length → xs.length < grow a.capacity xs.length) :
    Filled (reserve grow a) xs ∧ xs.length < (reserve grow a).capacity ∧
      a.capacity ≤ (reserve grow a).capacity := by
  have number := filled.number
  have size := filled.size
  have counted := filled.counted
  by_cases full : a.number ≥ a.capacity
  · have larger := grows (by omega)
    rw [reserve_full full, number]
    refine ⟨?_, larger, by dsimp only; omega⟩
    constructor
    · constructor
      · exact filled.inside
      · rfl
      · have whole : a.block.take (grow a.capacity xs.length) = a.block :=
          List.take_of_length_le (by omega)
        simp only [realloc, whole]
        rw [List.take_append_of_le_length (by omega), filled.elements]
    · simp only [realloc, List.length_append, List.length_take, List.length_replicate]
      omega
    · dsimp only
      omega
  · have same : reserve grow a = a := if_neg full
    rw [same]
    exact ⟨filled, by omega, Nat.le_refl _⟩

/-- Pushing goes well as long as a full array grows. -/
theorem pushes_filled {least bound : Nat}
    (grows : ∀ c, least ≤ c → c < bound → c < grow c c) (small : bound < 2 ^ 32)
    (filled : Filled a xs) (reached : least ≤ a.capacity) (short : (xs ++ ys).length ≤ bound) :
    Filled (ys.foldl (push grow) a) (xs ++ ys) := by
  induction ys generalizing a xs with
  | nil => rwa [List.foldl_nil, List.append_nil]
  | cons y ys ih =>
    have length : xs.length + 1 + ys.length ≤ bound := by
      rw [List.length_append, List.length_cons] at short
      omega
    have larger : a.capacity = xs.length → xs.length < grow a.capacity xs.length := by
      intro full
      have more := grows a.capacity reached (by omega)
      rwa [full] at more ⊢
    obtain ⟨reserved, room, kept⟩ := reserve_filled filled larger
    have pushed : Filled (push grow a y) (xs ++ [y]) := store_filled reserved room (by omega)
    have capacity : (push grow a y).capacity = (reserve grow a).capacity := rfl
    rw [List.append_cons] at short ⊢
    exact ih pushed (by omega) short

/-- An overrun is not forgotten. -/
theorem pushes_inside (inside : (ys.foldl (push grow) a).inside = true) : a.inside = true := by
  induction ys generalizing a with
  | nil => exact inside
  | cons y ys ih =>
    have pushed := ih inside
    have reserved : (reserve grow a).inside = true := by
      simp only [push, store, Bool.and_eq_true] at pushed
      exact pushed.1
    unfold reserve at reserved
    split at reserved
    · exact reserved
    · exact reserved

/-- A full array that does not grow is overrun by the next element. -/
theorem push_outside (filled : Filled a xs) (full : a.capacity = xs.length)
    (stays : grow a.capacity xs.length ≤ xs.length) : (push grow a x).inside = false := by
  have number := filled.number
  have none : ¬ a.number < (realloc (grow a.capacity a.number) a.block).length := by
    simp only [realloc, List.length_append, List.length_take, List.length_replicate, number]
    omega
  have reserved := @reserve_full _ grow a (by omega)
  simp only [push, store, reserved, none, decide_false, Bool.and_false]

/-- The count is an `unsigned int`. -/
theorem pushes_number (small : a.number < 2 ^ 32) : (ys.foldl (push grow) a).number < 2 ^ 32 := by
  induction ys generalizing a with
  | nil => exact small
  | cons y ys ih =>
    apply ih
    simp only [push, store]
    omega

end filling

section fixed
variable {α : Type} {capacity : Nat}

def fixed (capacity _number : Nat) : Nat := capacity

theorem fixed_filled (small : capacity < 2 ^ 32) {xs : List α} (short : xs.length ≤ capacity) :
    Filled (xs.foldl (push fixed) (calloc capacity)) xs := by
  have grows : ∀ c, capacity ≤ c → c < capacity → c < fixed c c := by
    intro c reached below
    omega
  exact pushes_filled grows small (calloc_filled capacity) (Nat.le_refl _) short

theorem fixed_capacity (xs : List α) (a : Growing α) :
    (xs.foldl (push fixed) a).capacity = a.capacity := by
  induction xs generalizing a with
  | nil => rfl
  | cons x xs ih =>
    have pushed : (push fixed a x).capacity = a.capacity := by
      simp only [push, store, reserve]
      split <;> rfl
    rw [List.foldl_cons, ih, pushed]

/-- Without growth the array takes what it was allocated for. -/
theorem fixed_holds_iff (small : capacity < 2 ^ 32) (xs ys : List α) :
    Holds (xs.foldl (push fixed) (calloc capacity)) ys ↔ xs.length ≤ capacity ∧ ys = xs := by
  by_cases short : xs.length ≤ capacity
  · rw [holds_unique (fixed_filled small short).toHolds]
    simp [short]
  · constructor
    · intro holds
      have length : (xs.take capacity).length = capacity := by
        rw [List.length_take]
        omega
      have split : xs = xs.take capacity ++ xs[capacity] :: xs.drop (capacity + 1) := by
        rw [← List.drop_eq_getElem_cons, List.take_append_drop]
      have filled := fixed_filled small (Nat.le_of_eq length)
      have full := fixed_capacity (xs.take capacity) (calloc capacity)
      have overrun : (push fixed ((xs.take capacity).foldl (push fixed) (calloc capacity))
          xs[capacity]).inside = false := by
        apply push_outside filled (full.trans length.symm)
        rw [full, length]
        exact Nat.le_refl _
      have inside := holds.inside
      rw [split, List.foldl_append, List.foldl_cons] at inside
      rw [pushes_inside inside] at overrun
      cases overrun
    · intro both
      exact absurd both.1 short

end fixed

end GrowingArray
