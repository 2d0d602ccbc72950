import Mathlib.Data.List.Basic

/-!
A text of lines that end with CR LF, and the value of the first line that begins with a label.
-/
namespace HeaderFields

def crlf : List Char := ['\r', '\n']

def lined (lines : List (List Char)) : List Char := lines.flatMap (· ++ crlf)

def fieldOf (label line : List Char) : Option (List Char) :=
  if label.isPrefixOf line then some ((line.drop label.length).takeWhile (· ≠ '\r')) else none

def field (label text : List Char) : Option (List Char) :=
  (text.splitOn '\n').findSome? (fieldOf label)

/-- A line that stays one line, of characters that are bytes. -/
def Plain (line : List Char) : Prop := ∀ c ∈ line, c.toNat < 256 ∧ c ≠ '\r' ∧ c ≠ '\n'

instance (line : List Char) : Decidable (Plain line) :=
  List.decidableBAll (fun c : Char => c.toNat < 256 ∧ c ≠ '\r' ∧ c ≠ '\n') line

theorem Plain.append {a b : List Char} (left : Plain a) (right : Plain b) : Plain (a ++ b) := by
  intro c member
  rcases List.mem_append.mp member with member | member
  · exact left c member
  · exact right c member

theorem splitOn_line {line : List Char} (plain : Plain line) (rest : List Char) :
    (line ++ crlf ++ rest).splitOn '\n' = (line ++ ['\r']) :: rest.splitOn '\n' := by
  have parts : line ++ crlf ++ rest = (line ++ ['\r']) ++ '\n' :: rest := by simp [crlf]
  rw [parts]
  apply List.splitOnP_append_cons_of_forall_mem
  · intro c member
    rcases List.mem_append.mp member with member | member
    · simpa using (plain c member).2.2
    · obtain rfl := List.mem_singleton.mp member
      decide
  · rfl

theorem takeWhile_plain {value : List Char} (plain : Plain value) :
    (value ++ ['\r']).takeWhile (· ≠ '\r') = value := by
  induction value with
  | nil => rfl
  | cons c value ih =>
    have head := (plain c List.mem_cons_self).2.1
    have rest := ih fun d member => plain d (List.mem_cons_of_mem _ member)
    rw [List.cons_append, List.takeWhile_cons_of_pos (by simpa using head), rest]

theorem fieldOf_labelled (label : List Char) {value : List Char} (plain : Plain value) :
    fieldOf label (label ++ value ++ ['\r']) = some value := by
  have starts : label.isPrefixOf (label ++ value ++ ['\r']) = true := by
    rw [List.isPrefixOf_iff_prefix, List.append_assoc]
    exact List.prefix_append _ _
  rw [fieldOf, if_pos starts, List.append_assoc, List.drop_left, takeWhile_plain plain]

/-- Two labels that differ in a place they both have. -/
def differs : List Char → List Char → Bool
  | a :: as, b :: bs => a ≠ b || differs as bs
  | _, _ => false

theorem fieldOf_other {label other : List Char} (differ : differs label other = true)
    (value : List Char) : fieldOf label (other ++ value) = none := by
  have misses : label.isPrefixOf (other ++ value) = false := by
    induction label generalizing other with
    | nil => simp [differs] at differ
    | cons a as ih =>
      cases other with
      | nil => simp [differs] at differ
      | cons b bs =>
        simp only [differs, Bool.or_eq_true, decide_eq_true_eq] at differ
        rw [List.cons_append, List.isPrefixOf_cons_cons]
        rcases differ with differ | differ
        · simp [differ]
        · simp [ih differ]
  rw [fieldOf, if_neg (by simp [misses])]

theorem field_line (label : List Char) {line : List Char} (plain : Plain line)
    (rest : List Char) : field label (line ++ crlf ++ rest) =
      (fieldOf label (line ++ ['\r'])).or (field label rest) := by
  rw [field, splitOn_line plain, List.findSome?_cons]
  cases fieldOf label (line ++ ['\r']) with
  | none => rfl
  | some value => rfl

theorem field_skip {label : List Char} {lines : List (List Char)}
    (others : ∀ line ∈ lines, Plain line ∧ fieldOf label (line ++ ['\r']) = none)
    (rest : List Char) : field label (lined lines ++ rest) = field label rest := by
  induction lines with
  | nil => rfl
  | cons line lines ih =>
    obtain ⟨plain, other⟩ := others line List.mem_cons_self
    have tail := ih fun line member => others line (List.mem_cons_of_mem _ member)
    rw [lined, List.flatMap_cons, List.append_assoc, field_line label plain, other, Option.none_or]
    exact tail

/-- The value behind the label of one line, if no line in front has the label. -/
theorem field_lined {label value : List Char} {before after : List (List Char)}
    (others : ∀ line ∈ before, Plain line ∧ fieldOf label (line ++ ['\r']) = none)
    (plain : Plain (label ++ value)) (rest : List Char) :
    field label (lined (before ++ (label ++ value) :: after) ++ rest) = some value := by
  have shape : lined (before ++ (label ++ value) :: after) ++ rest =
      lined before ++ ((label ++ value) ++ crlf ++ (lined after ++ rest)) := by
    simp [lined]
  have worth : Plain value := fun c member => plain c (List.mem_append_right _ member)
  rw [shape, field_skip others, field_line label plain, fieldOf_labelled label worth]
  rfl

end HeaderFields
