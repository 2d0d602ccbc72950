import Mathlib.Data.List.Iterate
import Mathlib.Data.List.Nodup
import Mathlib.Data.List.Perm.Subperm

/-!
A counter that runs through `1 .. n` and begins again at 1. One round from any of these values
comes to each of them once, so that fewer than `n` values in use leave one that is free.
-/
namespace CyclicCounter

def next (n x : Nat) : Nat := if x + 1 > n then 1 else x + 1

/-- The values from `x` on, for one round. -/
def round (n x : Nat) : List Nat := List.iterate (next n) x n

variable {n x y : Nat}

theorem next_range (positive : 0 < n) : 1 ≤ next n x ∧ next n x ≤ n := by
  unfold next
  split <;> omega

theorem next_iterate {k : Nat} (high : x ≤ n) (turn : k < n) :
    (next n)^[k] x = if x + k ≤ n then x + k else x + k - n := by
  induction k with
  | zero => simp [high]
  | succ k ih =>
    rw [Function.iterate_succ_apply', ih (by omega), next]
    split <;> split <;> split <;> omega

theorem mem_round (low : 1 ≤ x) (high : x ≤ n) : y ∈ round n x ↔ 1 ≤ y ∧ y ≤ n := by
  unfold round
  rw [List.mem_iterate]
  constructor
  · intro inside
    obtain ⟨k, turn, rfl⟩ := inside
    rw [next_iterate high turn]
    split <;> omega
  · intro range
    by_cases ahead : x ≤ y
    · refine ⟨y - x, by omega, ?_⟩
      rw [next_iterate high (by omega), if_pos (by omega)]
      omega
    · refine ⟨n + y - x, by omega, ?_⟩
      rw [next_iterate high (by omega), if_neg (by omega)]
      omega

theorem round_nodup (high : x ≤ n) : (round n x).Nodup := by
  unfold round
  rw [← List.range_map_iterate, List.nodup_map_iff_inj_on List.nodup_range]
  intro j first k second same
  rw [List.mem_range] at first second
  rw [next_iterate high first, next_iterate high second] at same
  split at same <;> split at same <;> omega

theorem exists_free {taken : List Nat} (few : taken.length < n) (high : x ≤ n) :
    ∃ y ∈ round n x, y ∉ taken := by
  by_contra all
  push Not at all
  have inside : (round n x).Subperm taken := (round_nodup high).subperm all
  have length : (round n x).length = n := List.length_iterate _ _ _
  have bound := inside.length_le
  omega

end CyclicCounter
