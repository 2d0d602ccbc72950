import Mathlib.Data.List.Nodup
import Mathlib.Data.List.Range
import Mathlib.Data.Nat.ModEq

/-!
A table of slots that is probed from the place of a key on, round and round. A slot whose key has
been deleted does not end a search, but may be filled again. A key is found if there is no empty
slot between its place and its slot.
-/
namespace OpenAddressing

inductive Slot (κ : Type*)
  | empty
  | freed
  | key (k : κ)

variable {κ : Type*} {slot slot' : Nat → Slot κ} {size n i j d : Nat} {k : κ}

def next (size n : Nat) : Nat := if n + 1 = size then 0 else n + 1

def Slot.isKey : Slot κ → Bool
  | .key _ => true
  | _ => false

/-- The first slot from `n` on that has no key, if there is one within a round. -/
def place (slot : Nat → Slot κ) (size : Nat) : (fuel n : Nat) → Option Nat
  | 0, _ => none
  | fuel + 1, n => if (slot n).isKey then place slot size fuel (next size n) else some n

/-- The slot with the key, searched for from `n` on up to an empty slot or for a round. -/
def seek [DecidableEq κ] (slot : Nat → Slot κ) (size : Nat) (k : κ) : (fuel n : Nat) → Option Nat
  | 0, _ => none
  | fuel + 1, n =>
    match slot n with
    | .empty => none
    | .freed => seek slot size k fuel (next size n)
    | .key k' => if k' = k then some n else seek slot size k fuel (next size n)

/-- The slot that is probed after `d` others. -/
def probe (size h d : Nat) : Nat := (h + d) % size

theorem next_probe (positive : 0 < size) (h d : Nat) :
    next size (probe size h d) = probe size h (d + 1) := by
  have small : (h + d) % size < size := Nat.mod_lt _ positive
  have sum : (h + (d + 1)) % size = ((h + d) % size + 1) % size := by
    rw [Nat.mod_add_mod, Nat.add_assoc]
  unfold next probe
  rw [sum]
  split
  · rename_i last
    rw [last, Nat.mod_self]
  · exact (Nat.mod_eq_of_lt (by omega)).symm

/-- Within a round every slot is probed. -/
theorem probe_covers (inside : i < size) (h : Nat) : ∃ d < size, probe size h d = i := by
  have small : h % size < size := Nat.mod_lt _ (by omega)
  have split := Nat.mod_add_div h size
  refine ⟨if h % size ≤ i then i - h % size else size - h % size + i, ?_, ?_⟩
  · split <;> omega
  · unfold probe
    rw [← Nat.mod_add_mod]
    split
    · rw [Nat.add_sub_cancel' (by assumption), Nat.mod_eq_of_lt inside]
    · have sum : h % size + (size - h % size + i) = i + size := by omega
      rw [sum, Nat.add_mod_right, Nat.mod_eq_of_lt inside]

/-- The slot is probed for `h` before any that is empty. -/
def Reached (slot : Nat → Slot κ) (size h i : Nat) : Prop :=
  ∃ d < size, i = probe size h d ∧ ∀ e < d, slot (probe size h e) ≠ .empty

/-- Filling a slot or freeing one leaves what is reached so. -/
theorem Reached.mono {h : Nat} (reached : Reached slot size h i)
    (filled : ∀ j, slot' j = .empty → slot j = .empty) : Reached slot' size h i := by
  obtain ⟨d, bound, same, front⟩ := reached
  exact ⟨d, bound, same, fun e before empty => front e before (filled _ empty)⟩

theorem place_from (positive : 0 < size) (h : Nat) {fuel d : Nat} (within : d + fuel = size)
    (free : ∃ e, d ≤ e ∧ e < size ∧ (slot (probe size h e)).isKey = false)
    (front : ∀ e < d, (slot (probe size h e)).isKey = true) :
    ∃ i, place slot size fuel (probe size h d) = some i ∧ i < size ∧ (slot i).isKey = false ∧
      Reached slot size h i := by
  induction fuel generalizing d with
  | zero =>
    obtain ⟨e, low, high, _⟩ := free
    omega
  | succ fuel ih =>
    cases here : (slot (probe size h d)).isKey with
    | true =>
      rw [place, if_pos here, next_probe positive]
      apply ih (by omega)
      · obtain ⟨e, low, high, open'⟩ := free
        have other : d ≠ e := by
          rintro rfl
          rw [here] at open'
          cases open'
        exact ⟨e, by omega, high, open'⟩
      · intro e before
        rcases Nat.lt_succ_iff_lt_or_eq.mp before with earlier | rfl
        · exact front e earlier
        · exact here
    | false =>
      rw [place, if_neg (by rw [here]; decide)]
      refine ⟨_, rfl, Nat.mod_lt _ positive, here, d, by omega, rfl, ?_⟩
      intro e before empty
      have key := front e before
      rw [empty] at key
      cases key

/-- If a slot has no key, one without is found, and it is reached. -/
theorem place_some (h : Nat) (free : ∃ i < size, (slot i).isKey = false) :
    ∃ i, place slot size size (h % size) = some i ∧ i < size ∧ (slot i).isKey = false ∧
      Reached slot size h i := by
  obtain ⟨i, inside, open'⟩ := free
  obtain ⟨d, bound, same⟩ := probe_covers inside h
  have found := @place_from _ slot size (by omega) h size 0 (by omega)
    ⟨d, Nat.zero_le d, bound, by rw [same]; exact open'⟩ (fun e before => absurd before (by omega))
  exact found

section lookup
variable [DecidableEq κ]

theorem seek_from (positive : 0 < size) (h : Nat) {fuel d c : Nat} (within : d + fuel = size)
    (ahead : d ≤ c) (bound : c < size) (found : slot (probe size h c) = .key k)
    (filled : ∀ e < c, slot (probe size h e) ≠ .empty)
    (only : ∀ e < c, slot (probe size h e) ≠ .key k) :
    seek slot size k fuel (probe size h d) = some (probe size h c) := by
  induction fuel generalizing d with
  | zero => omega
  | succ fuel ih =>
    rcases Nat.lt_or_eq_of_le ahead with before | rfl
    · have further := ih (d := d + 1) (by omega) (by omega)
      rw [← next_probe positive] at further
      rw [seek]
      cases here : slot (probe size h d) with
      | empty => exact absurd here (filled d before)
      | freed => exact further
      | key k' =>
        dsimp only
        rw [if_neg, further]
        rintro rfl
        exact only d before here
    · rw [seek, found]
      dsimp only
      rw [if_pos rfl]

/-- A key that has only one slot, and is reached there, is found there. -/
theorem seek_found {h : Nat} (found : slot i = .key k) (reached : Reached slot size h i)
    (only : ∀ j < size, slot j = .key k → j = i) :
    seek slot size k size (h % size) = some i := by
  obtain ⟨d, bound, rfl, filled⟩ := reached
  have positive : 0 < size := by omega
  apply seek_from positive h (d := 0) (by omega) (Nat.zero_le d) bound found filled
  intro e before twice
  have same := only _ (Nat.mod_lt _ positive) twice
  have equal := (Nat.ModEq.add_left_cancel' h same).eq_of_lt_of_lt (by omega) bound
  omega

theorem seek_none (positive : 0 < size) (h : Nat) (absent : ∀ j < size, slot j ≠ .key k)
    (fuel d : Nat) : seek slot size k fuel (probe size h d) = none := by
  induction fuel generalizing d with
  | zero => rfl
  | succ fuel ih =>
    have inside : probe size h d < size := Nat.mod_lt _ positive
    have further := ih (d + 1)
    rw [← next_probe positive] at further
    rw [seek]
    cases here : slot (probe size h d) with
    | empty => rfl
    | freed => exact further
    | key k' =>
      dsimp only
      rw [if_neg, further]
      rintro rfl
      exact absent _ inside here

end lookup

end OpenAddressing
