import Mathlib.Data.List.Nodup

/-!
A reader who asks a table for its entries by index, one after the other, while entries are put in at
its end and taken out anywhere. Each entry that is taken out after the reader has seen it moves one
entry past the reader, and nothing else does.
-/
namespace IndexWalk
variable {α : Type*} {a : α} {l : List α}

inductive Event (α : Type*)
  | ask
  | add (a : α)
  | erase (a : α)

/-- The table, what has been answered, what of it has stayed in the table since, and how many of
    the answers have not. -/
structure Walk (α : Type*) where
  table : List α
  answers : List α
  current : List α
  lost : Nat

def step [BEq α] [LawfulBEq α] (w : Walk α) : Event α → Walk α
  | .ask =>
    match w.table[w.answers.length]? with
    | none => w
    | some a => { w with answers := w.answers ++ [a], current := w.current ++ [a] }
  | .add a => if a ∈ w.table then w else { w with table := w.table ++ [a] }
  | .erase a =>
    { w with
      table := w.table.erase a
      current := w.current.erase a
      lost := if a ∈ w.current then w.lost + 1 else w.lost }

/-- What has stayed is in front of the next index, and every other answer has been lost. -/
structure Accounted (w : Walk α) : Prop where
  distinct : w.table.Nodup
  passed : List.Sublist w.current (w.table.take w.answers.length)
  seen : List.Sublist w.current w.answers
  count : w.answers.length = w.current.length + w.lost

theorem accounted_start (distinct : l.Nodup) : Accounted ⟨l, [], [], 0⟩ where
  distinct := distinct
  passed := List.nil_sublist _
  seen := List.Sublist.refl _
  count := rfl

theorem take_erase [BEq α] [LawfulBEq α] (a : α) (l : List α) (i : Nat) :
    List.Sublist ((l.take i).erase a) ((l.erase a).take i) := by
  induction l generalizing i with
  | nil => simp
  | cons b l ih =>
    cases i with
    | zero => simp
    | succ i =>
      by_cases same : b = a
      · subst same
        rw [List.take_succ_cons, List.erase_cons_head, List.erase_cons_head]
        exact (List.take_sublist_take_left (Nat.le_succ i))
      · have other : ¬ (b == a) = true := by simpa using same
        rw [List.take_succ_cons, List.erase_cons_tail other, List.erase_cons_tail other,
          List.take_succ_cons]
        exact (ih i).cons_cons b

theorem ask_accounted {w : Walk α} (accounted : Accounted w)
    (found : w.table[w.answers.length]? = some a) :
    Accounted { w with answers := w.answers ++ [a], current := w.current ++ [a] } := by
  have inside := List.getElem?_eq_some_iff.mp found
  refine ⟨accounted.distinct, ?_, accounted.seen.append (List.Sublist.refl _), ?_⟩
  · have next : w.table.take (w.answers.length + 1) = w.table.take w.answers.length ++ [a] := by
      rw [List.take_add_one, found]
      rfl
    rw [List.length_append, List.length_singleton, next]
    exact accounted.passed.append (List.Sublist.refl _)
  · have count := accounted.count
    simp only [List.length_append, List.length_singleton]
    omega

theorem add_accounted {w : Walk α} (accounted : Accounted w) (absent : a ∉ w.table) :
    Accounted { w with table := w.table ++ [a] } := by
  refine ⟨?_, ?_, accounted.seen, accounted.count⟩
  · rw [List.nodup_append]
    refine ⟨accounted.distinct, List.nodup_singleton a, ?_⟩
    rintro b member c last rfl
    exact absent (List.mem_singleton.mp last ▸ member)
  · rw [List.take_append]
    exact accounted.passed.trans (List.sublist_append_left _ _)

theorem erase_accounted [BEq α] [LawfulBEq α] {w : Walk α} (accounted : Accounted w) (a : α) :
    Accounted (step w (.erase a)) := by
  refine ⟨accounted.distinct.erase a, ?_, ?_, ?_⟩
  · exact (accounted.passed.erase a).trans (take_erase a _ _)
  · exact List.erase_sublist.trans accounted.seen
  · have count := accounted.count
    simp only [step]
    by_cases member : a ∈ w.current
    · have positive := List.length_pos_of_mem member
      rw [if_pos member, List.length_erase_of_mem member]
      omega
    · rw [if_neg member, List.erase_of_not_mem member]
      exact count

theorem step_accounted [BEq α] [LawfulBEq α] {w : Walk α} (accounted : Accounted w) (e : Event α) :
    Accounted (step w e) := by
  cases e with
  | ask =>
    simp only [step]
    cases found : w.table[w.answers.length]? with
    | none => exact accounted
    | some a => exact ask_accounted accounted found
  | add a =>
    simp only [step]
    by_cases member : a ∈ w.table
    · rw [if_pos member]
      exact accounted
    · rw [if_neg member]
      exact add_accounted accounted member
  | erase a => exact erase_accounted accounted a

/-- When the reader has come to the end, as many entries have been passed over as have been lost,
    less those that are missing in front of the index. -/
theorem missed_count [BEq α] [LawfulBEq α] {w : Walk α} (accounted : Accounted w)
    (ended : w.table.length ≤ w.answers.length) :
    (w.table.filter (· ∉ w.current)).length + w.answers.length = w.table.length + w.lost := by
  have whole : w.table.take w.answers.length = w.table := List.take_of_length_le ended
  have inside := accounted.passed
  rw [whole] at inside
  have same : (w.table.filter (· ∈ w.current)).Perm w.current := by
    have distinct := accounted.distinct.sublist inside
    rw [List.perm_ext_iff_of_nodup (accounted.distinct.filter _) distinct]
    intro a
    rw [List.mem_filter, decide_eq_true_eq]
    exact ⟨And.right, fun member => ⟨inside.subset member, member⟩⟩
  have parts := List.length_eq_length_filter_add (l := w.table) (· ∈ w.current)
  have kept := same.length_eq
  have count := accounted.count
  simp only [decide_not]
  omega

/-- Without a loss the answers are the table. -/
theorem answers_table {w : Walk α} (accounted : Accounted w)
    (ended : w.table.length ≤ w.answers.length) (none : w.lost = 0) : w.answers = w.table := by
  have count := accounted.count
  have whole : w.table.take w.answers.length = w.table := List.take_of_length_le ended
  have inside := accounted.passed
  rw [whole] at inside
  have same : w.current = w.answers := accounted.seen.eq_of_length_le (by omega)
  rw [same] at inside
  exact inside.eq_of_length_le ended

end IndexWalk
