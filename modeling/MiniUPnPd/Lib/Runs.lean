import Mathlib.Data.List.Infix

/-!
Runs of a machine that takes one input at a time. A property holds always when every
state of the run has it, the first one included. A guard is met when every input is
admitted by the state it arrives in.
-/
namespace Runs
variable {State Input : Type*} {step : State → Input → State}
  {holds : State → Prop} {admits : State → Input → Prop}

def Always (step : State → Input → State) (holds : State → Prop) : State → List Input → Prop
  | s, [] => holds s
  | s, i :: inputs => holds s ∧ Always step holds (step s i) inputs

def Admitted (step : State → Input → State) (admits : State → Input → Prop) :
    State → List Input → Prop
  | _, [] => True
  | s, i :: inputs => admits s i ∧ Admitted step admits (step s i) inputs

instance decidableAdmitted [∀ s i, Decidable (admits s i)] :
    (s : State) → (inputs : List Input) → Decidable (Admitted step admits s inputs)
  | _, [] => isTrue trivial
  | s, i :: inputs =>
      have := decidableAdmitted (step s i) inputs
      inferInstanceAs (Decidable (_ ∧ _))

theorem always_start {s : State} {inputs : List Input} (run : Always step holds s inputs) :
    holds s := by
  cases inputs with
  | nil => exact run
  | cons i inputs => exact run.1

theorem always_last {s : State} {inputs : List Input} (run : Always step holds s inputs) :
    holds (inputs.foldl step s) := by
  induction inputs generalizing s with
  | nil => exact run
  | cons i inputs ih => exact ih run.2

/-- A property that every admitted step keeps holds along every admitted run. -/
theorem always_of_admitted (kept : ∀ s i, holds s → admits s i → holds (step s i))
    {s : State} {inputs : List Input} (start : holds s) (run : Admitted step admits s inputs) :
    Always step holds s inputs := by
  induction inputs generalizing s with
  | nil => exact start
  | cons i inputs ih => exact ⟨start, ih (kept s i start run.1) run.2⟩

theorem admitted_of_forall (all : ∀ s i, admits s i) (s : State) (inputs : List Input) :
    Admitted step admits s inputs := by
  induction inputs generalizing s with
  | nil => trivial
  | cons i inputs ih => exact ⟨all s i, ih (step s i)⟩

theorem always_of_step (kept : ∀ s i, holds s → holds (step s i)) {s : State}
    (start : holds s) (inputs : List Input) : Always step holds s inputs :=
  have free : Admitted step (fun _ _ => True) s inputs :=
    admitted_of_forall (fun _ _ => trivial) s inputs
  always_of_admitted (fun s i now _ => kept s i now) start free

/-- When an allowed step keeps the property exactly if it is admitted, a run of allowed steps
    has it throughout exactly if all of its steps are admitted. -/
theorem allowed_always_iff (side : State → Prop) {allowed : State → Input → Prop}
    (sideKept : ∀ s i, side s → allowed s i → side (step s i))
    (exact : ∀ s i, side s → allowed s i → holds s → (holds (step s i) ↔ admits s i))
    {s : State} (sideStart : side s) (start : holds s) {inputs : List Input}
    (all : Admitted step allowed s inputs) :
    Always step holds s inputs ↔ Admitted step admits s inputs := by
  induction inputs generalizing s with
  | nil => simp [Always, Admitted, start]
  | cons i inputs ih =>
    have one := exact s i sideStart all.1 start
    have sideNext := sideKept s i sideStart all.1
    constructor
    · intro run
      have next := always_start run.2
      exact ⟨one.mp next, (ih sideNext next all.2).mp run.2⟩
    · intro run
      have next := one.mpr run.1
      exact ⟨start, (ih sideNext next all.2).mpr run.2⟩

theorem always_iff_admitted (side : State → Prop) (sideKept : ∀ s i, side s → side (step s i))
    (exact : ∀ s i, side s → holds s → (holds (step s i) ↔ admits s i))
    {s : State} (sideStart : side s) (start : holds s) (inputs : List Input) :
    Always step holds s inputs ↔ Admitted step admits s inputs :=
  have free : Admitted step (fun _ _ => True) s inputs :=
    admitted_of_forall (fun _ _ => trivial) s inputs
  allowed_always_iff side (fun s i now _ => sideKept s i now) (fun s i now _ => exact s i now)
    sideStart start free

/-- When a step that keeps the property must have been admitted, so must all steps of a run
    that has the property throughout. -/
theorem admitted_of_always (side : State → Prop) (allowed : Input → Prop)
    (needed : ∀ s i, side s → allowed i → holds s → holds (step s i) →
      admits s i ∧ side (step s i))
    {s : State} (sideStart : side s) {inputs : List Input} (all : ∀ i ∈ inputs, allowed i)
    (run : Always step holds s inputs) : Admitted step admits s inputs := by
  induction inputs generalizing s with
  | nil => trivial
  | cons i inputs ih =>
    simp only [List.mem_cons, forall_eq_or_imp] at all
    obtain ⟨first, next⟩ := needed s i sideStart all.1 run.1 (always_start run.2)
    exact ⟨first, ih next all.2 run.2⟩

theorem admitted_imp {weaker : State → Input → Prop} (imp : ∀ s i, admits s i → weaker s i)
    {s : State} {inputs : List Input} (run : Admitted step admits s inputs) :
    Admitted step weaker s inputs := by
  induction inputs generalizing s with
  | nil => trivial
  | cons i inputs ih => exact ⟨imp s i run.1, ih run.2⟩

theorem admitted_congr {also : State → Input → Prop} (same : ∀ s i, admits s i ↔ also s i)
    (s : State) (inputs : List Input) :
    Admitted step admits s inputs ↔ Admitted step also s inputs :=
  ⟨admitted_imp fun s i => (same s i).mp, admitted_imp fun s i => (same s i).mpr⟩

theorem always_imp {weaker : State → Prop} (imp : ∀ s, holds s → weaker s) {s : State}
    {inputs : List Input} (run : Always step holds s inputs) : Always step weaker s inputs := by
  induction inputs generalizing s with
  | nil => exact imp s run
  | cons i inputs ih => exact ⟨imp s run.1, ih run.2⟩

section rounds
variable {round : Nat → State → Option State}

/-- The state before a round of a loop, none when the loop has been left. -/
def rounds (round : Nat → State → Option State) (s : State) : Nat → Option State
  | 0 => some s
  | n + 1 => (rounds round s n).bind (round n)

theorem rounds_left {s : State} {n m : Nat} (left : rounds round s n = none) (later : n ≤ m) :
    rounds round s m = none := by
  induction later with
  | refl => exact left
  | step _ ih => rw [rounds, ih, Option.bind_none]

/-- A loop whose rounds make the state smaller, unless they are idle, is left exactly if it is not
    idle forever from some round on. -/
theorem rounds_end_iff {size : State → Nat} {idle : Nat → State → Prop}
    (shrinks : ∀ n s s', round n s = some s' → size s' < size s ∨ idle n s ∧ size s' ≤ size s)
    (s : State) :
    (∃ n, rounds round s n = none) ↔
      ¬ ∃ k, ∀ n, k ≤ n → ∃ t, rounds round s n = some t ∧ idle n t := by
  constructor
  · intro ends stuck
    obtain ⟨n, left⟩ := ends
    obtain ⟨k, forever⟩ := stuck
    obtain ⟨t, here, _⟩ := forever (max k n) (le_max_left k n)
    rw [rounds_left left (le_max_right k n)] at here
    cases here
  · intro unstuck
    by_contra endless
    push Not at endless
    have states : ∀ n, ∃ t, rounds round s n = some t := fun n =>
      Option.ne_none_iff_exists'.mp (endless n)
    choose t now using states
    have next : ∀ n, round n (t n) = some (t (n + 1)) := by
      intro n
      have after := now (n + 1)
      rw [rounds, now n, Option.bind_some] at after
      exact after
    have still : ∀ n m, n ≤ m → size (t m) ≤ size (t n) := by
      intro n m later
      induction later with
      | refl => exact le_rfl
      | @step m _ ih =>
        have after : size (t m.succ) ≤ size (t m) := by
          rcases shrinks m (t m) (t m.succ) (next m) with less | ⟨_, same⟩
          · exact Nat.le_of_lt less
          · exact same
        omega
    -- the rounds that are not idle cannot go on for longer than the size allows
    have settles : ∀ bound n, size (t n) ≤ bound → ∃ k, ∀ m, k ≤ m → idle m (t m) := by
      intro bound
      induction bound with
      | zero =>
        intro n small
        refine ⟨n, ?_⟩
        intro m later
        have less := still n m later
        rcases shrinks _ _ _ (next m) with shrunk | ⟨waits, _⟩
        · omega
        · exact waits
      | succ bound ih =>
        intro n small
        by_cases waits : ∀ m, n ≤ m → idle m (t m)
        · exact ⟨n, waits⟩
        · push Not at waits
          obtain ⟨m, later, works⟩ := waits
          have less := still n m later
          rcases shrinks _ _ _ (next m) with shrunk | ⟨waits, _⟩
          · exact ih (m + 1) (by omega)
          · exact absurd waits works
    obtain ⟨k, forever⟩ := settles (size (t 0)) 0 le_rfl
    exact unstuck ⟨k, fun n later => ⟨t n, now n, forever n later⟩⟩

end rounds

section each
variable {Item : Type*} {each : State → Item → Option State}

/-- What every round of a loop over a list keeps, with the items that are left, holds after it. -/
theorem foldlM_rest {rest : State → List Item → Prop}
    (kept : ∀ s i items, rest s (i :: items) → ∃ t, each s i = some t ∧ rest t items)
    {s : State} {items : List Item} (start : rest s items) :
    ∃ t, items.foldlM each s = some t ∧ rest t [] := by
  induction items generalizing s with
  | nil => exact ⟨s, rfl, start⟩
  | cons i items ih =>
    obtain ⟨t, one, left⟩ := kept s i items start
    obtain ⟨u, all, done⟩ := ih left
    refine ⟨u, ?_, done⟩
    rw [List.foldlM_cons, one]
    exact all

end each

end Runs
