import Mathlib.Logic.Function.Iterate

/-!
A search that moves from place to place as long as the place passes. There is at most one
place where it stops. A search that gives up after some moves may also work on the places
it visits; what each visit keeps, the search keeps.
-/
namespace FirstStop
variable {Place : Type*} {passes : Place → Prop} {move : Place → Place} {s t u : Place}

inductive StopsAt (passes : Place → Prop) (move : Place → Place) : Place → Place → Prop where
  | here {s : Place} (stop : ¬ passes s) : StopsAt passes move s s
  | later {s t : Place} (pass : passes s) (rest : StopsAt passes move (move s) t) :
      StopsAt passes move s t

theorem stopsAt_unique (left : StopsAt passes move s t) (right : StopsAt passes move s u) :
    t = u := by
  induction left with
  | here stop =>
    cases right with
    | here _ => rfl
    | later pass _ => exact absurd pass stop
  | later pass _ ih =>
    cases right with
    | here stop => exact absurd pass stop
    | later _ rest => exact ih rest

theorem stopsAt_stops (run : StopsAt passes move s t) : ¬ passes t := by
  induction run with
  | here stop => exact stop
  | later _ _ ih => exact ih

/-- What holds of one stop is all there is to say about a search that stops. -/
theorem stopsAt_forall_iff {holds : Place → Prop} (run : StopsAt passes move s t) :
    (∀ u, StopsAt passes move s u → holds u) ↔ holds t := by
  constructor
  · intro all
    exact all t run
  · intro one u other
    rw [← stopsAt_unique run other]
    exact one

section visits
variable {goesOn : Place → Bool} {holds : Place → Prop}

/-- The places that at most `n` moves start from. -/
def visited (goesOn : Place → Bool) (move : Place → Place) : Nat → Place → List Place
  | 0, _ => []
  | n + 1, s => s :: if goesOn s then visited goesOn move n (move s) else []

/-- The place after the last of these moves. -/
def final (goesOn : Place → Bool) (move : Place → Place) : Nat → Place → Place
  | 0, s => s
  | n + 1, s => if goesOn s then final goesOn move n (move s) else move s

theorem visited_head {n : Nat} : s ∈ visited goesOn move (n + 1) s := List.mem_cons_self

theorem visited_tail {n : Nat} (onward : goesOn s = true) {t : Place}
    (later : t ∈ visited goesOn move n (move s)) : t ∈ visited goesOn move (n + 1) s := by
  rw [visited, if_pos onward]
  exact List.mem_cons_of_mem s later

theorem final_keeps (n : Nat) (start : holds s)
    (kept : ∀ t ∈ visited goesOn move n s, holds t → holds (move t)) :
    holds (final goesOn move n s) := by
  induction n generalizing s with
  | zero => exact start
  | succ n ih =>
    have next := kept s visited_head start
    unfold final
    split
    · rename_i onward
      apply ih next
      intro t later
      exact kept t (visited_tail onward later)
    · exact next

end visits

end FirstStop
