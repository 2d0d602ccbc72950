import MiniUPnPd.Lib.Scanf

/-!
The label of a pinhole in the kernel, `pinhole-%d ts-%u: %s`, and how the daemon reads it.
-/
namespace PinholeLabel
open CText Scanf

def pinholeText : CString := "pinhole-".toList

def tsText : CString := "ts-".toList

/-- The uid is not negative. -/
def pinholeLabel (uid timestamp : Nat) (desc : CString) : CString :=
  pinholeText ++ (utoa uid ++ ' ' :: (tsText ++ (utoa timestamp ++ ':' :: ' ' :: desc)))

/-- The two numbers that `sscanf` finds. A blank of the format stands for any number of blanks,
    and the rest of the label is not looked at. -/
def scanLabel (label : CString) : Option (Int × Nat) := do
  let s ← scanText pinholeText label
  let (uid, s) ← scanInt s
  let s ← scanText tsText (s.dropWhile isspace)
  let (ts, _) ← scanUnsigned s
  pure (uid, ts)

section read
variable {uid timestamp : Nat} (desc : CString)

theorem pinholeLabel_append (uid timestamp : Nat) (desc : CString) :
    pinholeLabel uid timestamp desc = pinholeLabel uid timestamp [] ++ desc := by
  simp [pinholeLabel]

theorem pinholeLabel_length (few : uid < 10 ^ 5) (small : timestamp < 2 ^ 32) :
    (pinholeLabel uid timestamp []).length ≤ 29 := by
  have digits : (utoa uid).length ≤ 5 := utoa_length (by decide) few
  have larger : timestamp < 10 ^ 10 := Nat.lt_trans small (by decide)
  have time : (utoa timestamp).length ≤ 10 := utoa_length (by decide) larger
  have one : pinholeText.length = 8 := by decide
  have two : tsText.length = 3 := by decide
  simp only [pinholeLabel, List.length_append, List.length_cons, List.length_nil, one, two]
  omega

theorem scanLabel_pinholeLabel (few : uid < 2 ^ 31) (small : timestamp < 2 ^ 32) :
    scanLabel (pinholeLabel uid timestamp desc) = some ((uid : Int), timestamp) := by
  have time : scanUnsigned (utoa timestamp ++ ':' :: ' ' :: desc) =
      some (timestamp, ':' :: ' ' :: desc) := by
    refine scanUnsigned_utoa timestamp _ ?_ small
    intro c first
    obtain rfl : ':' = c := Option.some.inj first
    decide
  have number : ∀ rest, scanInt (utoa uid ++ ' ' :: rest) = some ((uid : Int), ' ' :: rest) := by
    intro rest
    refine scanInt_utoa uid _ ?_ few
    intro c first
    obtain rfl : ' ' = c := Option.some.inj first
    decide
  have blank : ∀ rest, (' ' :: (tsText ++ rest)).dropWhile isspace = tsText ++ rest := by
    intro rest
    rfl
  simp only [scanLabel, pinholeLabel, scanText_append, number, blank, time, Option.bind_eq_bind,
    Option.bind_some]
  rfl

/-- A label that has been cut off behind its head is read in the same way. -/
theorem scanLabel_cut {size : Nat} (few : uid < 10 ^ 5) (small : timestamp < 2 ^ 32)
    (room : 29 ≤ size) :
    scanLabel ((pinholeLabel uid timestamp desc).take size) = some ((uid : Int), timestamp) := by
  have fits := pinholeLabel_length few small
  rw [pinholeLabel_append, List.take_append, List.take_of_length_le (by omega),
    ← pinholeLabel_append]
  exact scanLabel_pinholeLabel _ (by omega) small

end read

end PinholeLabel
