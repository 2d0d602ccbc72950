import MiniUPnPd.Lib.CString

/-!
The tokens that calls of `strtok` give one after the other, and the numbers that `atoi` reads from
them. A number is written with decimal digits only.
-/
namespace CText

/-- The parts of a text between delimiters that are not empty. -/
def parts (delim : Char) (s : CString) : List CString :=
  (s.splitOn delim).filter fun part => part ≠ []

section parts
variable {delim : Char} {s t : CString}

theorem parts_delim (delim : Char) (s : CString) : parts delim (delim :: s) = parts delim s := by
  have split : (delim :: s).splitOn delim = [] :: s.splitOn delim :=
    List.splitOn_append_cons_self_of_not_mem List.not_mem_nil s
  simp [parts, split]

theorem parts_part (some : t ≠ []) (absent : delim ∉ t) (s : CString) :
    parts delim (t ++ delim :: s) = t :: parts delim s := by
  have split : (t ++ delim :: s).splitOn delim = t :: s.splitOn delim :=
    List.splitOn_append_cons_self_of_not_mem absent s
  simp [parts, split, some]

theorem parts_last (some : t ≠ []) (absent : delim ∉ t) : parts delim t = [t] := by
  simp [parts, List.splitOn_eq_singleton absent, some]

theorem parts_nil (delim : Char) : parts delim [] = [] := by
  simp [parts, List.splitOn_nil]

/-- The delimiters at the start separate nothing. -/
theorem parts_dropWhile (delim : Char) (s : CString) :
    parts delim (s.dropWhile (· = delim)) = parts delim s := by
  induction s with
  | nil => rfl
  | cons c s ih =>
    by_cases same : c = delim
    · subst same
      rw [List.dropWhile_cons_of_pos (by simp), ih, parts_delim]
    · rw [List.dropWhile_cons_of_neg (by simpa using same)]

theorem strtok_parts (delim : Char) (s : CString) :
    match strtok delim s with
    | none => parts delim s = []
    | some (t, rest) => parts delim s = t :: parts delim rest := by
  rw [← parts_dropWhile delim s]
  unfold strtok
  cases left : s.dropWhile (· = delim) with
  | nil => exact parts_nil delim
  | cons c u =>
    have other : c ≠ delim := by
      have stop := List.head?_dropWhile_not (fun c : Char => decide (c = delim)) s
      rw [left] at stop
      simpa using stop
    have absent : delim ∉ (c :: u).takeWhile (· ≠ delim) := by
      intro member
      simpa using List.mem_takeWhile_imp member
    have some : (c :: u).takeWhile (· ≠ delim) ≠ [] := by
      simp [other]
    have whole := @List.takeWhile_append_dropWhile _ (fun c : Char => decide (c ≠ delim)) (c :: u)
    dsimp only
    cases rest : (c :: u).dropWhile (· ≠ delim) with
    | nil =>
      rw [rest, List.append_nil] at whole
      rw [List.drop_nil, parts_nil, ← parts_last some absent, whole]
    | cons d v =>
      have same : d = delim := by
        have stop := List.head?_dropWhile_not (fun c : Char => decide (c ≠ delim)) (c :: u)
        rw [rest] at stop
        simpa using stop
      subst same
      rw [rest] at whole
      rw [List.drop_one, List.tail_cons, ← parts_part some absent, whole]

end parts

/-- A number in decimal digits, of any length. -/
def Decimal (s : CString) : Prop := s ≠ [] ∧ ∀ c ∈ s, c.isDigit = true

section decimal
variable {s t : CString}

theorem decimal_absent {c : Char} (decimal : Decimal s) (other : c.isDigit = false) : c ∉ s := by
  intro member
  rw [decimal.2 c member] at other
  cases other

theorem takeWhile_decimal (decimal : Decimal s) : s.takeWhile Char.isDigit = s :=
  List.takeWhile_eq_self_iff.mpr decimal.2

/-- A text that starts with a digit is read as it stands, up to the largest value. -/
theorem strtol_digit {c : Char} (digit : c.isDigit = true) (s : CString) :
    strtol (c :: s) = min (2 ^ 63 - 1) (digitsValue (c :: s) : Int) := by
  have black : isspace c = false := isspace_of_isDigit digit
  have start : (c :: s).dropWhile isspace = c :: s :=
    List.dropWhile_cons_of_neg (by simp [black])
  unfold strtol
  rw [start]
  split
  · rename_i same
    rw [(List.cons.inj same).1] at digit
    exact absurd digit (by decide)
  · rename_i same
    rw [(List.cons.inj same).1] at digit
    exact absurd digit (by decide)
  · rfl

theorem atoi_digit {c : Char} (digit : c.isDigit = true) (s : CString) :
    atoi (c :: s) = (min (2 ^ 63 - 1) (digitsValue (c :: s) : Int)).bmod (2 ^ 32) := by
  rw [atoi, strtol_digit digit]

theorem atoi_decimal (decimal : Decimal s) (small : digitsValue s < 2 ^ 31) :
    atoi s = digitsValue s := by
  cases s with
  | nil => exact absurd rfl decimal.1
  | cons c s =>
    rw [atoi_digit (decimal.2 c List.mem_cons_self)]
    have kept : min (2 ^ 63 - 1) (digitsValue (c :: s) : Int) = digitsValue (c :: s) := by omega
    rw [kept]
    apply Int.bmod_eq_of_le <;> omega

theorem decimal_utoa (n : Nat) : Decimal (utoa n) := ⟨Nat.toDigits_ne_nil, utoa_digits n⟩

theorem digitsValue_utoa (n : Nat) : digitsValue (utoa n) = n := by
  rw [digitsValue, takeWhile_decimal (decimal_utoa n), utoa_value]

end decimal

end CText
