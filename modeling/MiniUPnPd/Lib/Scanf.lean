import MiniUPnPd.Lib.CString

/-!
The conversions of `sscanf` that read a text written by `printf`: literal text, blanks, and
decimal numbers.
-/
namespace Scanf
open CText

/-- What follows a decimal number with blanks and a sign before it, if there is a digit. -/
def afterNumber (s : CString) : Option CString :=
  let t :=
    match s.dropWhile isspace with
    | '-' :: t => t
    | '+' :: t => t
    | t => t
  if t.head?.any Char.isDigit then some (t.dropWhile Char.isDigit) else none

/-- `%d` -/
def scanInt (s : CString) : Option (Int × CString) :=
  (afterNumber s).map fun rest => (atoi s, rest)

/-- `%u` -/
def scanUnsigned (s : CString) : Option (Nat × CString) :=
  (afterNumber s).map fun rest => (strtoul s % 2 ^ 32, rest)

/-- Text of the format other than blanks. -/
def scanText (text s : CString) : Option CString :=
  if text <+: s then some (s.drop text.length) else none

section numbers
variable (n : Nat) (rest : CString) (stop : ∀ c ∈ rest.head?, c.isDigit = false)
include stop

theorem afterNumber_utoa : afterNumber (utoa n ++ rest) = some rest := by
  rw [afterNumber, dropWhile_isspace_utoa]
  split
  · rename_i minus
    exact absurd minus (utoa_ne_cons (by decide) n rest _)
  · rename_i plus
    exact absurd plus (utoa_ne_cons (by decide) n rest _)
  · rw [dropWhile_utoa n rest stop]
    obtain ⟨d, ds, start, digit⟩ := utoa_start n rest
    simp [start, digit]

theorem scanInt_utoa (small : n < 2 ^ 31) : scanInt (utoa n ++ rest) = some ((n : Int), rest) := by
  rw [scanInt, afterNumber_utoa n rest stop, atoi_utoa small rest stop]
  rfl

theorem scanUnsigned_utoa (small : n < 2 ^ 32) :
    scanUnsigned (utoa n ++ rest) = some (n, rest) := by
  rw [scanUnsigned, afterNumber_utoa n rest stop, strtoul_utoa_append (by omega) rest stop,
    Nat.mod_eq_of_lt small]
  rfl

end numbers

theorem scanText_append (text rest : CString) : scanText text (text ++ rest) = some rest := by
  simp [scanText]

end Scanf
