import Mathlib.Data.List.Basic

/-!
Programs that read a memory at one place after the other. The memory answers a read or stops the
program. A program that ends with one result in every memory that has the first `n` places reads
at these places only, and what is stored elsewhere makes no difference to it.
-/
namespace Reads
variable {α β γ : Type}

abbrev Reading (β α : Type) := ReaderT (Nat → Option β) Option α

def read (i : Nat) : Reading β β := fun memory => memory i

/-- `len` places from `i` on. -/
def readSlice : (i len : Nat) → Reading β (List β)
  | _, 0 => pure []
  | i, len + 1 => do
      let c ← read i
      let cs ← readSlice (i + 1) len
      return c :: cs

/-- `while(i < n && p(memory[i])) i++` -/
def scanWhile (p : β → Bool) (n i : Nat) : Reading β {j // i ≤ j} :=
  if i < n then do
    let c ← read i
    if p c then
      let j ← scanWhile p n (i + 1)
      return ⟨j, Nat.le_of_succ_le j.property⟩
    else return ⟨i, Nat.le_refl i⟩
  else return ⟨i, Nat.le_refl i⟩
termination_by n - i

/-- A memory that ends behind `n` places. -/
def fenced (n : Nat) (bufr : Nat → β) : Nat → Option β :=
  fun i => if i < n then some (bufr i) else none

def Inside (n : Nat) (bufr : Nat → β) (x : Reading β α) (P : α → Prop) : Prop :=
  ∃ a, P a ∧ ∀ memory : Nat → Option β, (∀ i < n, memory i = some (bufr i)) → x memory = some a

section rules
variable {n : Nat} {bufr : Nat → β} {x : Reading β α} {P Q : α → Prop} {R : γ → Prop}

theorem inside_pure {a : α} (holds : P a) : Inside n bufr (pure a) P :=
  ⟨a, holds, fun _ _ => rfl⟩

theorem inside_bind {f : α → Reading β γ} (first : Inside n bufr x P)
    (then' : ∀ a, P a → Inside n bufr (f a) R) : Inside n bufr (x >>= f) R := by
  obtain ⟨a, holds, run⟩ := first
  obtain ⟨b, holds', run'⟩ := then' a holds
  refine ⟨b, holds', ?_⟩
  intro memory same
  show (x memory).bind (fun a => f a memory) = some b
  rw [run memory same, Option.bind_some, run' memory same]

theorem inside_mono (inside : Inside n bufr x P) (weaker : ∀ a, P a → Q a) :
    Inside n bufr x Q := by
  obtain ⟨a, holds, run⟩ := inside
  exact ⟨a, weaker a holds, run⟩

theorem inside_read {i : Nat} (within : i < n) :
    Inside n bufr (read i) fun c => c = bufr i :=
  ⟨bufr i, rfl, fun _ same => same i within⟩

theorem inside_readSlice (len i : Nat) (within : i + len ≤ n) :
    Inside n bufr (readSlice i len) fun cs =>
      cs.length = len ∧ ∀ c ∈ cs, ∃ k, i ≤ k ∧ k < i + len ∧ c = bufr k := by
  induction len generalizing i with
  | zero => exact inside_pure ⟨rfl, by simp⟩
  | succ len ih =>
    apply inside_bind (inside_read (by omega))
    intro c first
    apply inside_bind (ih (i + 1) (by omega))
    intro cs rest
    obtain ⟨length, members⟩ := rest
    apply inside_pure
    refine ⟨by rw [List.length_cons, length], ?_⟩
    intro d member
    rcases List.mem_cons.mp member with rfl | later
    · exact ⟨i, by omega, by omega, first⟩
    · obtain ⟨k, low, high, value⟩ := members d later
      exact ⟨k, by omega, by omega, value⟩

theorem inside_scanWhile (p : β → Bool) (i : Nat) (within : i ≤ n) :
    Inside n bufr (scanWhile p n i) fun j =>
      j.val ≤ n ∧ ∀ k, i ≤ k → k < j.val → p (bufr k) = true := by
  induction left : n - i generalizing i with
  | zero =>
    rw [scanWhile, if_neg (by omega)]
    exact inside_pure ⟨within, fun k low high => absurd high (by simp; omega)⟩
  | succ left ih =>
    rw [scanWhile, if_pos (by omega)]
    apply inside_bind (inside_read (by omega))
    intro c value
    split
    · rename_i passes
      apply inside_bind (ih (i + 1) (by omega) (by omega))
      intro j found
      obtain ⟨bounded, all⟩ := found
      apply inside_pure
      refine ⟨bounded, ?_⟩
      intro k low high
      by_cases first : k = i
      · rw [first, ← value]
        exact passes
      · exact all k (by omega) high
    · exact inside_pure ⟨within, fun k low high => absurd high (by simp; omega)⟩

/-- The run inside the fence is that in any memory with the same first places. -/
theorem inside_run (inside : Inside n bufr x P) :
    ∃ a, P a ∧ x (fenced n bufr) = some a ∧
      ∀ bufr' : Nat → β, (∀ i < n, bufr' i = bufr i) → x (fun i => some (bufr' i)) = some a := by
  obtain ⟨a, holds, run⟩ := inside
  refine ⟨a, holds, ?_, ?_⟩
  · apply run
    intro i within
    exact if_pos within
  · intro bufr' same
    apply run
    intro i within
    rw [same i within]

end rules

end Reads
