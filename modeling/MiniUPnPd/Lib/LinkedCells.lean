import Mathlib.Data.List.Basic

/-!
A list threaded through cells by two links in each, one to the cell before and one to the cell
behind. Putting a cell at the end writes the links of two cells, and taking one out those of its
neighbours.
-/
namespace LinkedCells
variable {ι : Type*} {prev next prev' next' : ι → Option ι} {p q : Option ι} {a b : ι}
  {l m : List ι}

/-- The cells are linked in this order, `p` is in front of them and `q` behind. -/
def Path (prev next : ι → Option ι) : Option ι → List ι → Option ι → Prop
  | _, [], _ => True
  | p, a :: l, q => prev a = p ∧ next a = l.head?.or q ∧ Path prev next (some a) l q

theorem path_append :
    Path prev next p (l ++ m) q ↔
      Path prev next p l (m.head?.or q) ∧ Path prev next (l.getLast?.or p) m q := by
  induction l generalizing p with
  | nil => simp [Path]
  | cons a l ih =>
    have last : (a :: l).getLast?.or p = l.getLast?.or (some a) := by
      cases l with
      | nil => rfl
      | cons b l => simp [List.getLast?_cons]
    have first : (l ++ m).head?.or q = l.head?.or (m.head?.or q) := by
      rw [List.head?_append, Option.or_assoc]
    rw [List.cons_append, Path, ih, first, Path, last]
    tauto

/-- Links of other cells do not matter. -/
theorem path_congr (same : ∀ a ∈ l, prev' a = prev a ∧ next' a = next a)
    (path : Path prev next p l q) : Path prev' next' p l q := by
  induction l generalizing p with
  | nil => trivial
  | cons a l ih =>
    obtain ⟨before, behind, rest⟩ := path
    obtain ⟨left, right⟩ := same a List.mem_cons_self
    refine ⟨left.trans before, right.trans behind, ?_⟩
    exact ih (fun b member => same b (List.mem_cons_of_mem a member)) rest

/-- Only the link behind the last cell is another one. -/
theorem path_end {q' : Option ι} (path : Path prev next p l q) (distinct : l.Nodup)
    (left : ∀ a ∈ l, prev' a = prev a)
    (right : ∀ a ∈ l, l.getLast? ≠ some a → next' a = next a)
    (last : ∀ a, l.getLast? = some a → next' a = q') : Path prev' next' p l q' := by
  induction l generalizing p with
  | nil => trivial
  | cons a l ih =>
    obtain ⟨before, behind, rest⟩ := path
    cases l with
    | nil => exact ⟨(left a List.mem_cons_self).trans before, last a rfl, trivial⟩
    | cons b l =>
      have inner : (a :: b :: l).getLast? = (b :: l).getLast? := by
        rw [List.getLast?_cons_cons]
      have absent := (List.nodup_cons.mp distinct).1
      have notLast : (a :: b :: l).getLast? ≠ some a := by
        intro same
        rw [inner] at same
        exact absent (List.mem_of_getLast? same)
      refine ⟨(left a List.mem_cons_self).trans before, ?_, ?_⟩
      · rw [right a List.mem_cons_self notLast, behind]
        rfl
      · apply ih rest (List.nodup_cons.mp distinct).2
        · exact fun c member => left c (List.mem_cons_of_mem a member)
        · intro c member other
          rw [← inner] at other
          exact right c (List.mem_cons_of_mem a member) other
        · intro c same
          rw [← inner] at same
          exact last c same

/-- Only the link in front of the first cell is another one. -/
theorem path_start {p' : Option ι} (path : Path prev next p l q) (distinct : l.Nodup)
    (right : ∀ a ∈ l, next' a = next a)
    (left : ∀ a ∈ l, l.head? ≠ some a → prev' a = prev a)
    (first : ∀ a, l.head? = some a → prev' a = p') : Path prev' next' p' l q := by
  cases l with
  | nil => trivial
  | cons a l =>
    obtain ⟨_, behind, rest⟩ := path
    refine ⟨first a rfl, (right a List.mem_cons_self).trans behind, ?_⟩
    apply path_congr _ rest
    intro b member
    have other : (a :: l).head? ≠ some b := by
      intro same
      obtain rfl : a = b := Option.some.inj same
      exact (List.nodup_cons.mp distinct).1 member
    exact ⟨left b (List.mem_cons_of_mem a member) other, right b (List.mem_cons_of_mem a member)⟩

/-- The cells from the first on, along the links behind. -/
def walk (next : ι → Option ι) : Nat → Option ι → Option (List ι)
  | _, none => some []
  | 0, some _ => none
  | fuel + 1, some a => (walk next fuel (next a)).map (a :: ·)

theorem walk_path {fuel : Nat} (path : Path prev next p l none) (enough : l.length ≤ fuel) :
    walk next fuel l.head? = some l := by
  induction l generalizing p fuel with
  | nil =>
    cases fuel <;> rfl
  | cons a l ih =>
    obtain ⟨_, behind, rest⟩ := path
    rw [List.length_cons] at enough
    cases fuel with
    | zero => omega
    | succ fuel =>
      rw [Option.or_none] at behind
      rw [List.head?_cons, walk, behind, ih rest (by omega)]
      rfl

end LinkedCells
