import Mathlib.Data.List.Basic
import Mathlib.Tactic.Tauto

/-!
What a listener knows who follows announcements and farewells. It knows a name when the last
message about it is an announcement.
-/
namespace Presence

inductive Message (κ : Type*)
  | alive (name : κ)
  | byebye (name : κ)
  deriving DecidableEq

variable {κ : Type*}

def Known : List (Message κ) → κ → Prop
  | [], _ => False
  | m :: log, k => Known log k ∨ (m = .alive k ∧ .byebye k ∉ log)

theorem known_append (log later : List (Message κ)) (k : κ) :
    Known (log ++ later) k ↔ Known later k ∨ (Known log k ∧ .byebye k ∉ later) := by
  induction log with
  | nil => simp [Known]
  | cons m log ih =>
    simp only [List.cons_append, Known, ih, List.mem_append]
    tauto

/-- Where nobody takes leave, everything that was announced is known. -/
theorem known_announced {log : List (Message κ)} (staying : ∀ k, .byebye k ∉ log) (k : κ) :
    Known log k ↔ .alive k ∈ log := by
  induction log with
  | nil => simp [Known]
  | cons m log ih =>
    have rest : ∀ k, .byebye k ∉ log := fun k member => staying k (List.mem_cons_of_mem _ member)
    simp only [Known, ih rest, rest k, not_false_eq_true, and_true, List.mem_cons]
    constructor
    · rintro (member | same)
      · exact .inr member
      · exact .inl same.symm
    · rintro (same | member)
      · exact .inr same.symm
      · exact .inl member

theorem not_known_farewells {log : List (Message κ)} (leaving : ∀ k, .alive k ∉ log) (k : κ) :
    ¬ Known log k := by
  induction log with
  | nil => simp [Known]
  | cons m log ih =>
    simp only [List.mem_cons, not_or] at leaving
    rintro (known | ⟨same, _⟩)
    · exact ih (fun k => (leaving k).2) known
    · exact (leaving k).1 same.symm

/-- Announcements, then farewells, then announcements again. -/
theorem known_overtaken {log farewells later : List (Message κ)}
    (leaving : ∀ k, .alive k ∉ farewells) (staying : ∀ k, .byebye k ∉ later) (k : κ) :
    Known (log ++ farewells ++ later) k ↔
      .alive k ∈ later ∨ (Known log k ∧ .byebye k ∉ farewells) := by
  rw [known_append, known_append, known_announced staying]
  have gone := not_known_farewells leaving k
  have stays := staying k
  tauto

end Presence
