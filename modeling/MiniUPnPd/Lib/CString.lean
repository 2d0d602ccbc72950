import Mathlib.Algebra.Group.Int.Defs
import Mathlib.Algebra.Group.Nat.Defs
import Mathlib.Data.List.Induction
import Mathlib.Data.List.TakeWhile

/-!
C strings, as the characters before the terminating NUL, with the parts of the
C library that read numbers from them. Conversions saturate and wrap as `strtol`
and the casts to `int` and `unsigned short` do on a 64-bit `long`.
-/

abbrev CString := List Char

namespace CText

def isspace (c : Char) : Bool := c = ' ' || (9 ≤ c.toNat && c.toNat ≤ 13)

/-- The value of the decimal digits at the start; no digit reads as 0. -/
def digitsValue (s : CString) : Nat := Nat.ofDigitChars 10 (s.takeWhile Char.isDigit) 0

def strtol (s : CString) : Int :=
  match s.dropWhile isspace with
  | '-' :: t => max (-(2 ^ 63)) (-(digitsValue t : Int))
  | '+' :: t => min (2 ^ 63 - 1) (digitsValue t : Int)
  | t => min (2 ^ 63 - 1) (digitsValue t : Int)

def atoi (s : CString) : Int := (strtol s).bmod (2 ^ 32)

/-- The cast `(unsigned short)atoi(s)` of the port arguments. -/
def atous (s : CString) : UInt16 := UInt16.ofInt (atoi s)

/-- A minus sign negates in the unsigned type; out of range gives ULONG_MAX. -/
def strtoul (s : CString) : Nat :=
  let value (negate : Bool) (v : Nat) : Nat :=
    if 2 ^ 64 ≤ v then 2 ^ 64 - 1 else if negate then (2 ^ 64 - v) % 2 ^ 64 else v
  match s.dropWhile isspace with
  | '-' :: t => value true (digitsValue t)
  | '+' :: t => value false (digitsValue t)
  | t => value false (digitsValue t)

def tolower (c : Char) : Char :=
  if 65 ≤ c.toNat ∧ c.toNat ≤ 90 then Char.ofNat (c.toNat + 32) else c

/-- The test `strcasecmp(a, b) == 0`. -/
def strcaseeq (a b : CString) : Bool := a.map tolower = b.map tolower

def utoa (n : Nat) : CString := Nat.toDigits 10 n

/-- The characters before the first NUL of a buffer. -/
def untilNul (s : List Char) : CString := s.takeWhile (· ≠ Char.ofNat 0)

theorem untilNul_text {s : List Char} (plain : '\x00' ∉ s) : untilNul s = s := by
  rw [untilNul, List.takeWhile_eq_self_iff]
  intro c member
  exact decide_eq_true fun nul => plain (nul ▸ member)

/-- One call of `strtok` with a single delimiter: the token and what is left for the next
    call. -/
def strtok (delim : Char) (s : CString) : Option (CString × CString) :=
  match s.dropWhile (· = delim) with
  | [] => none
  | t => some (t.takeWhile (· ≠ delim), (t.dropWhile (· ≠ delim)).drop 1)

theorem utoa_digits (n : Nat) : ∀ c ∈ utoa n, c.isDigit = true := by
  intro c member
  exact Nat.isDigit_of_mem_toDigits (by decide) (by decide) member

theorem utoa_value (n : Nat) : Nat.ofDigitChars 10 (utoa n) 0 = n := Nat.ofDigitChars_ten_toDigits

theorem takeWhile_utoa (n : Nat) (rest : CString)
    (stop : ∀ c ∈ rest.head?, c.isDigit = false) :
    (utoa n ++ rest).takeWhile Char.isDigit = utoa n := by
  rw [List.takeWhile_append_of_pos (utoa_digits n)]
  cases rest with
  | nil => simp
  | cons c rest =>
    have first := stop c (by simp)
    simp [first]

theorem dropWhile_utoa (n : Nat) (rest : CString)
    (stop : ∀ c ∈ rest.head?, c.isDigit = false) :
    (utoa n ++ rest).dropWhile Char.isDigit = rest := by
  rw [List.dropWhile_append_of_pos (utoa_digits n)]
  cases rest with
  | nil => simp
  | cons c rest =>
    have first := stop c (by simp)
    simp [first]

theorem utoa_step (n : Nat) (large : 10 ≤ n) : utoa n = utoa (n / 10) ++ [(n % 10).digitChar] :=
  Nat.toDigits_of_base_le (by decide) large

theorem utoa_small (n : Nat) (small : n < 10) : utoa n = [n.digitChar] :=
  Nat.toDigits_of_lt_base small

theorem utoa_length {n k : Nat} (positive : 0 < k) (small : n < 10 ^ k) : (utoa n).length ≤ k :=
  (Nat.length_toDigits_le_iff (by decide) positive).mpr small

/-- Only zero is written with a leading zero. -/
theorem utoa_head_zero (n : Nat) (zero : (utoa n).head? = some '0') : n = 0 := by
  induction n using Nat.strongRecOn with
  | ind n ih =>
    by_cases small : n < 10
    · rw [utoa_small n small] at zero
      simpa using zero
    · have large : 10 ≤ n := by omega
      have kept : (utoa n).head? = (utoa (n / 10)).head? := by
        rw [utoa_step n large, List.head?_append]
        cases written : utoa (n / 10) with
        | nil => exact absurd written Nat.toDigits_ne_nil
        | cons c cs => rfl
      have none := ih (n / 10) (by omega) (kept ▸ zero)
      omega

theorem digitChar_of_isDigit {c : Char} (digit : c.isDigit = true) :
    (c.toNat - 48).digitChar = c ∧ c.toNat - 48 < 10 := by
  simp only [Char.isDigit, Bool.and_eq_true, decide_eq_true_eq, ge_iff_le, UInt32.le_iff_toNat_le]
    at digit
  have bounds : 48 ≤ c.toNat ∧ c.toNat ≤ 57 := digit
  have range : c.toNat - 48 < 10 := by omega
  refine ⟨?_, range⟩
  apply Char.toNat_inj.mp
  rw [Nat.toNat_digitChar_of_lt_ten range]
  omega

/-- A digit string without a leading zero is how its own value is written. -/
theorem utoa_of_digits (ds : CString) (nonempty : ds ≠ []) (digits : ∀ c ∈ ds, c.isDigit = true)
    (leading : ds.head? = some '0' → ds.length = 1) : utoa (Nat.ofDigitChars 10 ds 0) = ds := by
  induction ds using List.reverseRecOn with
  | nil => exact absurd rfl nonempty
  | append_singleton front last ih =>
    obtain ⟨same, small⟩ := digitChar_of_isDigit (digits last (by simp))
    have value : Nat.ofDigitChars 10 (front ++ [last]) 0 =
        10 * Nat.ofDigitChars 10 front 0 + (last.toNat - 48) := by
      rw [Nat.ofDigitChars_append, Nat.ofDigitChars_cons, Nat.ofDigitChars_nil]
      rfl
    cases front with
    | nil => simp [Nat.ofDigitChars_cons, utoa_small _ small, same]
    | cons first others =>
      have recursive := ih (by simp) (fun c mem => digits c (List.mem_append_left _ mem)) (by
        intro zero
        have short := leading (by simpa using zero)
        simp at short)
      have positive : 0 < Nat.ofDigitChars 10 (first :: others) 0 := by
        by_contra none
        have zero : Nat.ofDigitChars 10 (first :: others) 0 = 0 := by omega
        rw [zero] at recursive
        have short := leading (by simp [← recursive, utoa])
        simp at short
      rw [value, utoa_step _ (by omega)]
      have div : (10 * Nat.ofDigitChars 10 (first :: others) 0 + (last.toNat - 48)) / 10 =
          Nat.ofDigitChars 10 (first :: others) 0 := by omega
      have mod : (10 * Nat.ofDigitChars 10 (first :: others) 0 + (last.toNat - 48)) % 10 =
          last.toNat - 48 := by omega
      rw [div, mod, recursive, same]

theorem strtok_of_head {delim : Char} {s : CString} {c : Char} (first : s.head? = some c)
    (other : c ≠ delim) :
    strtok delim s = some (s.takeWhile (· ≠ delim), (s.dropWhile (· ≠ delim)).drop 1) := by
  cases s with
  | nil => simp at first
  | cons d s =>
    obtain rfl : d = c := by simpa using first
    simp [strtok, other]

theorem takeWhile_ne_append {delim : Char} {token : CString} (absent : delim ∉ token)
    (rest : CString) :
    (token ++ rest).takeWhile (· ≠ delim) = token ++ rest.takeWhile (· ≠ delim) := by
  apply List.takeWhile_append_of_pos
  intro c member
  simp only [ne_eq, decide_not, Bool.not_eq_true', decide_eq_false_iff_not]
  rintro rfl
  exact absent member

theorem dropWhile_ne_append {delim : Char} {token : CString} (absent : delim ∉ token)
    (rest : CString) :
    (token ++ rest).dropWhile (· ≠ delim) = rest.dropWhile (· ≠ delim) := by
  apply List.dropWhile_append_of_pos
  intro c member
  simp only [ne_eq, decide_not, Bool.not_eq_true', decide_eq_false_iff_not]
  rintro rfl
  exact absent member

theorem isspace_of_isDigit {c : Char} (digit : c.isDigit = true) : isspace c = false := by
  simp only [isspace, Bool.or_eq_false_iff, decide_eq_false_iff_not, Bool.and_eq_false_iff]
  constructor
  · rintro rfl
    exact absurd digit (by decide)
  · simp only [Char.isDigit, Bool.and_eq_true, decide_eq_true_eq, ge_iff_le,
      UInt32.le_iff_toNat_le] at digit
    have low : 48 ≤ c.toNat := digit.1
    omega

/-- White space before a number is skipped. -/
theorem atoi_blank_append {t : CString} (blank : t.all isspace = true) (x : CString) :
    atoi (t ++ x) = atoi x := by
  rw [atoi, atoi, strtol, strtol, List.dropWhile_append_of_pos (List.all_eq_true.mp blank)]

theorem takeWhile_append_stop {p : Char → Bool} {c : Char} (stops : p c = false) (u x : CString) :
    (u ++ c :: x).takeWhile p = u.takeWhile p := by
  rw [List.takeWhile_append]
  split
  · rename_i whole
    rw [List.takeWhile_cons_of_neg (by simp [stops]), List.append_nil]
    exact ((List.takeWhile_prefix p).eq_of_length whole).symm
  · rfl

/-- A number is read as far as a character that no number has. -/
theorem atoi_stop {c : Char} (digit : c.isDigit = false) (sign : c ≠ '-' ∧ c ≠ '+') {u : CString}
    (visible : isspace c = true → u.all isspace = false) (x : CString) :
    atoi (u ++ c :: x) = atoi u := by
  have digits : ∀ v : CString, digitsValue (v ++ c :: x) = digitsValue v := by
    intro v
    rw [digitsValue, digitsValue, takeWhile_append_stop digit]
  have kept : (u ++ c :: x).dropWhile isspace = u.dropWhile isspace ++ c :: x := by
    induction u with
    | nil =>
      have other : isspace c ≠ true := by
        intro space
        simpa using visible space
      exact List.dropWhile_cons_of_neg other
    | cons d u ih =>
      by_cases space : isspace d = true
      · rw [List.cons_append, List.dropWhile_cons_of_pos space, List.dropWhile_cons_of_pos space]
        apply ih
        intro blank
        simpa [space] using visible blank
      · rw [List.cons_append, List.dropWhile_cons_of_neg space, List.dropWhile_cons_of_neg space,
          List.cons_append]
  have unsigned : ∀ {d : Char} {v : CString}, d ≠ '-' → d ≠ '+' →
      (match d :: v with
      | '-' :: t => max (-(2 ^ 63)) (-(digitsValue t : Int))
      | '+' :: t => min (2 ^ 63 - 1) (digitsValue t : Int)
      | t => min (2 ^ 63 - 1) (digitsValue t : Int)) =
        min (2 ^ 63 - 1) (digitsValue (d :: v) : Int) := by
    intro d v minus plus
    split
    · rename_i same
      exact absurd (List.cons.inj same).1 minus
    · rename_i same
      exact absurd (List.cons.inj same).1 plus
    · rfl
  unfold atoi strtol
  rw [kept]
  cases u.dropWhile isspace with
  | nil =>
    have nothing : digitsValue (c :: x) = digitsValue [] := digits []
    rw [List.nil_append, unsigned sign.1 sign.2, nothing]
  | cons d v =>
    rw [List.cons_append]
    by_cases minus : d = '-'
    · subst minus
      simp only [digits]
    · by_cases plus : d = '+'
      · subst plus
        simp only [digits]
      · have number := digits (d :: v)
        rw [List.cons_append] at number
        rw [unsigned minus plus, unsigned minus plus, number]

/-- A number starts with a digit, and with no space or sign. -/
theorem utoa_start (n : Nat) (rest : CString) :
    ∃ d ds, utoa n ++ rest = d :: ds ∧ d.isDigit = true := by
  cases written : utoa n with
  | nil => exact absurd written Nat.toDigits_ne_nil
  | cons d ds => exact ⟨d, ds ++ rest, rfl, utoa_digits n d (by simp [written])⟩

theorem dropWhile_isspace_utoa (n : Nat) (rest : CString) :
    (utoa n ++ rest).dropWhile isspace = utoa n ++ rest := by
  obtain ⟨d, ds, start, digit⟩ := utoa_start n rest
  rw [start, List.dropWhile_cons_of_neg (by simp [isspace_of_isDigit digit])]

theorem utoa_ne_cons {c : Char} (other : c.isDigit = false) (n : Nat) (rest t : CString) :
    utoa n ++ rest ≠ c :: t := by
  intro same
  obtain ⟨d, ds, start, digit⟩ := utoa_start n rest
  rw [start] at same
  obtain ⟨rfl, _⟩ := List.cons.inj same
  rw [other] at digit
  cases digit

theorem strtol_utoa (n : Nat) (rest : CString) (stop : ∀ c ∈ rest.head?, c.isDigit = false) :
    strtol (utoa n ++ rest) = min (2 ^ 63 - 1) (n : Int) := by
  have value : digitsValue (utoa n ++ rest) = n := by
    rw [digitsValue, takeWhile_utoa n rest stop, utoa_value]
  rw [strtol, dropWhile_isspace_utoa]
  split
  · rename_i minus
    exact absurd minus (utoa_ne_cons (by decide) n rest _)
  · rename_i plus
    exact absurd plus (utoa_ne_cons (by decide) n rest _)
  · rw [value]

theorem atoi_utoa {n : Nat} (small : n < 2 ^ 31) (rest : CString)
    (stop : ∀ c ∈ rest.head?, c.isDigit = false) : atoi (utoa n ++ rest) = n := by
  rw [atoi, strtol_utoa n rest stop, Int.bmod_eq_iff (by decide)]
  omega

theorem strtoul_utoa_append {n : Nat} (small : n < 2 ^ 64) (rest : CString)
    (stop : ∀ c ∈ rest.head?, c.isDigit = false) : strtoul (utoa n ++ rest) = n := by
  have value : digitsValue (utoa n ++ rest) = n := by
    rw [digitsValue, takeWhile_utoa n rest stop, utoa_value]
  rw [strtoul, dropWhile_isspace_utoa]
  split
  · rename_i minus
    exact absurd minus (utoa_ne_cons (by decide) n rest _)
  · rename_i plus
    exact absurd plus (utoa_ne_cons (by decide) n rest _)
  · dsimp only
    rw [value, if_neg (by omega), if_neg (by decide)]

end CText
