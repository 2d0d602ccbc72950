import MiniUPnPd.Lib.Strtok

/-!
Reading a string through a pointer, as the text from the pointer to the terminating NUL. A loop
over characters other than the NUL stays in the text. A step from the NUL leaves it, and so does
a comparison with more characters than are left. A text is divided in one way only into a longest
run of characters and the rest.
-/
namespace CPointer
open CText

/-- Why a reader ends early: it reports an error, or it reads outside the string. -/
inductive Stop
  | failed
  | outside
  deriving DecidableEq

def next : CString → Except Stop CString
  | [] => .error .outside
  | _ :: s => .ok s

/-- The test `memcmp(p, text, strlen(text)) == 0`. -/
def memeq (text p : CString) : Except Stop Bool :=
  if p.length + 1 < text.length then .error .outside else .ok (text.isPrefixOf p)

/-- A test of the character at the pointer that the NUL fails. -/
def starts (p : Char → Bool) (s : CString) : Bool := s.head?.any p

def White (s : CString) : Prop := ∀ c ∈ s, isspace c = true

section stages
variable {ε α β : Type} {x : Except ε α} {f : α → Except ε β} {b : β} {e : ε}

theorem bind_ok : (x >>= f) = .ok b ↔ ∃ a, x = .ok a ∧ f a = .ok b := by
  cases x with
  | error e => simp [bind, Except.bind]
  | ok a => simp [bind, Except.bind]

theorem bind_error : (x >>= f) = .error e ↔ x = .error e ∨ ∃ a, x = .ok a ∧ f a = .error e := by
  cases x with
  | error e => simp [bind, Except.bind]
  | ok a => simp [bind, Except.bind]

end stages

section spans
variable {p : Char → Bool} {w w' rest rest' : CString}

/-- A run that ends in front of the rest. -/
structure Span (p : Char → Bool) (w rest : CString) : Prop where
  run : ∀ c ∈ w, p c = true
  stop : ∀ c ∈ rest.head?, p c = false

theorem span_split (p : Char → Bool) (s : CString) : Span p (s.takeWhile p) (s.dropWhile p) where
  run := fun _ member => List.mem_takeWhile_imp member
  stop := by
    intro c first
    have stopped := List.head?_dropWhile_not p s
    rw [Option.mem_def.mp first] at stopped
    simpa using stopped

theorem Span.takeWhile (span : Span p w rest) : (w ++ rest).takeWhile p = w := by
  rw [List.takeWhile_append_of_pos span.run]
  cases rest with
  | nil => simp
  | cons c rest => simp [span.stop c rfl]

theorem Span.dropWhile (span : Span p w rest) : (w ++ rest).dropWhile p = rest := by
  rw [List.dropWhile_append_of_pos span.run]
  cases rest with
  | nil => rfl
  | cons c rest => simp [span.stop c rfl]

theorem Span.unique (span : Span p w rest) (other : Span p w' rest')
    (same : w ++ rest = w' ++ rest') : w = w' ∧ rest = rest' := by
  constructor
  · rw [← span.takeWhile, same, other.takeWhile]
  · rw [← span.dropWhile, same, other.dropWhile]

theorem span_white {s : CString} (white : White w) (visible : ∀ c ∈ s.head?, isspace c = false) :
    Span isspace w s := ⟨white, visible⟩

theorem starts_iff {s : CString} : starts p s = true ↔ ∃ c u, s = c :: u ∧ p c = true := by
  cases s with
  | nil => simp [starts]
  | cons c u => simp [starts]

theorem not_isDigit_of_isspace {c : Char} (space : isspace c = true) : c.isDigit = false := by
  apply Bool.eq_false_iff.mpr
  intro digit
  rw [isspace_of_isDigit digit] at space
  cases space

theorem span_cons {c : Char} (run : ∀ d ∈ w, p d = true) (other : p c = false) (rest : CString) :
    Span p w (c :: rest) where
  run := run
  stop := by
    intro d first
    obtain rfl : c = d := Option.some.inj first
    exact other

theorem starts_decimal (decimal : Decimal w) (rest : CString) :
    starts Char.isDigit (w ++ rest) = true := by
  cases w with
  | nil => exact absurd rfl decimal.1
  | cons d w => exact decimal.2 d List.mem_cons_self

theorem decimal_takeWhile {s : CString} (digit : starts Char.isDigit s = true) :
    Decimal (s.takeWhile Char.isDigit) := by
  obtain ⟨d, u, rfl, first⟩ := starts_iff.mp digit
  refine ⟨?_, (span_split Char.isDigit (d :: u)).run⟩
  simp [first]

/-- A text that starts with a digit is not white. -/
theorem visible_of_digit {s : CString} (digit : starts Char.isDigit s = true) :
    ∀ c ∈ s.head?, isspace c = false := by
  intro c first
  obtain ⟨d, u, rfl, digit⟩ := starts_iff.mp digit
  obtain rfl : d = c := Option.some.inj first
  exact isspace_of_isDigit digit

/-- A number is read up to the end of its digits. -/
theorem atoi_span (decimal : Decimal w) (span : Span Char.isDigit w rest) :
    atoi (w ++ rest) = atoi w := by
  have value : digitsValue (w ++ rest) = digitsValue w := by
    rw [digitsValue, digitsValue, span.takeWhile, takeWhile_decimal decimal]
  cases w with
  | nil => exact absurd rfl decimal.1
  | cons c w =>
    have digit := decimal.2 c List.mem_cons_self
    rw [List.cons_append] at value
    rw [List.cons_append, atoi_digit digit, atoi_digit digit, value]

end spans

end CPointer
