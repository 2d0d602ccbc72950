import MiniUPnPd.Lib.CString

/-!
IPv4 addresses and their text forms. `inet_aton` accepts the old forms with one to
four numbers in decimal, octal or hexadecimal; `inet_pton` accepts exactly the
dotted decimal form that `inet_ntoa` writes. An address is its 32-bit value with
the first byte most significant, whatever the byte order it is stored in.
-/

abbrev InAddr := BitVec 32

namespace Inet
open CText

def INADDR_NONE : InAddr := BitVec.allOnes 32

def ofBytes (a b c d : Nat) : InAddr := BitVec.ofNat 32 (a * 2 ^ 24 + b * 2 ^ 16 + c * 2 ^ 8 + d)

/-- Byte `i` of the address, 0 being the last one written. -/
def byte (a : InAddr) (i : Nat) : Nat := (a.toNat / 2 ^ (8 * i)) % 256

/-- The text of `"%u.%u.%u.%u"`. -/
def inetNtoa (a : InAddr) : CString :=
  utoa (byte a 3) ++ '.' :: (utoa (byte a 2) ++ '.' :: (utoa (byte a 1) ++ '.' :: utoa (byte a 0)))

def parseOctet (p : CString) : Option Nat :=
  if p ≠ [] ∧ p.all Char.isDigit ∧ (p.head? = some '0' → p.length = 1) ∧
      Nat.ofDigitChars 10 p 0 ≤ 255 then
    some (Nat.ofDigitChars 10 p 0)
  else none

def inetPton (s : CString) : Option InAddr :=
  match s.splitOn '.' with
  | [p, q, r, t] => do
      let a ← parseOctet p
      let b ← parseOctet q
      let c ← parseOctet r
      let d ← parseOctet t
      some (ofBytes a b c d)
  | _ => none

def isOctal (c : Char) : Bool := 48 ≤ c.toNat && c.toNat ≤ 55

def hexValue (c : Char) : Option Nat :=
  if c.isDigit then some (c.toNat - 48)
  else if 97 ≤ c.toNat ∧ c.toNat ≤ 102 then some (c.toNat - 87)
  else if 65 ≤ c.toNat ∧ c.toNat ≤ 70 then some (c.toNat - 55)
  else none

/-- `strtoul(s, &end, 0)` on a string that starts with a digit. -/
def strtoulBase0 (s : CString) : Nat × CString :=
  match s with
  | '0' :: x :: h :: t =>
      if (x = 'x' ∨ x = 'X') ∧ (hexValue h).isSome then
        (((h :: t).takeWhile fun c => (hexValue c).isSome).foldl
            (fun v c => 16 * v + (hexValue c).getD 0) 0,
          (h :: t).dropWhile fun c => (hexValue c).isSome)
      else (Nat.ofDigitChars 8 (s.takeWhile isOctal) 0, s.dropWhile isOctal)
  | '0' :: _ => (Nat.ofDigitChars 8 (s.takeWhile isOctal) 0, s.dropWhile isOctal)
  | _ => (digitsValue s, s.dropWhile Char.isDigit)

/-- At most `dots` more dots may follow. The result is the numbers read and what
    follows the last of them. -/
def inetAtonParts : Nat → CString → Option (List Nat × CString)
  | dots, s =>
    if (s.head?.map Char.isDigit).getD false then
      let (v, rest) := strtoulBase0 s
      if v > 0xffffffff then none
      else match rest, dots with
        | '.' :: more, dots + 1 =>
            if v > 255 then none
            else (inetAtonParts dots more).map fun (vs, last) => (v :: vs, last)
        | '.' :: _, 0 => none
        | last, _ => some ([v], last)
    else none

def inetAton (s : CString) : Option InAddr :=
  match inetAtonParts 3 s with
  | none => none
  | some (parts, last) =>
    if (last.head?.map isspace).getD true then
      match parts with
      | [a, b, c, d] => if d > 0xff then none else some (ofBytes a b c d)
      | [a, b, c] => if c > 0xffff then none else some (ofBytes a b 0 c)
      | [a, b] => if b > 0xffffff then none else some (ofBytes a 0 0 b)
      | [a] => some (ofBytes 0 0 0 a)
      | _ => none
    else none

def inetAddr (s : CString) : InAddr := (inetAton s).getD INADDR_NONE

theorem byte_lt (a : InAddr) (i : Nat) : byte a i < 256 := Nat.mod_lt _ (by decide)

theorem ofBytes_byte (a : InAddr) : ofBytes (byte a 3) (byte a 2) (byte a 1) (byte a 0) = a := by
  apply BitVec.eq_of_toNat_eq
  have bound := a.isLt
  simp only [ofBytes, byte, BitVec.toNat_ofNat]
  omega

theorem byte_ofBytes {a b c d : Nat} (ha : a < 256) (hb : b < 256) (hc : c < 256) (hd : d < 256) :
    byte (ofBytes a b c d) 3 = a ∧ byte (ofBytes a b c d) 2 = b ∧
      byte (ofBytes a b c d) 1 = c ∧ byte (ofBytes a b c d) 0 = d := by
  simp only [ofBytes, byte, BitVec.toNat_ofNat]
  omega

theorem parseOctet_some {p : CString} {n : Nat} (read : parseOctet p = some n) :
    p = utoa n ∧ n < 256 := by
  simp only [parseOctet] at read
  split at read
  · rename_i valid
    obtain ⟨nonempty, digits, leading, small⟩ := valid
    simp only [Option.some.injEq] at read
    subst read
    refine ⟨?_, by omega⟩
    exact (utoa_of_digits p nonempty (List.all_eq_true.mp digits) leading).symm
  · simp at read

theorem parseOctet_utoa {n : Nat} (small : n < 256) : parseOctet (utoa n) = some n := by
  have digits : (utoa n).all Char.isDigit = true := List.all_eq_true.mpr (utoa_digits n)
  have leading : (utoa n).head? = some '0' → (utoa n).length = 1 := by
    intro zero
    rw [utoa_head_zero n zero]
    rfl
  have value := utoa_value n
  have bounded : n ≤ 255 := by omega
  have nonempty : utoa n ≠ [] := Nat.toDigits_ne_nil
  rw [parseOctet, if_pos ⟨nonempty, digits, leading, by omega⟩, value]

theorem inetNtoa_parts (a : InAddr) : inetNtoa a =
    ['.'].intercalate [utoa (byte a 3), utoa (byte a 2), utoa (byte a 1), utoa (byte a 0)] := by
  simp [inetNtoa, List.intercalate]

theorem inetNtoa_length (a : InAddr) : (inetNtoa a).length ≤ 15 := by
  have octet : ∀ i, (utoa (byte a i)).length ≤ 3 := by
    intro i
    have small := byte_lt a i
    exact utoa_length (by decide) (by omega)
  have first := octet 3
  have second := octet 2
  have third := octet 1
  have fourth := octet 0
  simp only [inetNtoa, List.length_append, List.length_cons]
  omega

theorem dot_not_mem_utoa (n : Nat) : '.' ∉ utoa n := by
  intro member
  have digit := utoa_digits n '.' member
  exact absurd digit (by decide)

/-- The strict parser accepts exactly the written form of an address. -/
theorem inetPton_iff (s : CString) (a : InAddr) : inetPton s = some a ↔ s = inetNtoa a := by
  constructor
  · intro read
    have whole : ['.'].intercalate (s.splitOn '.') = s := List.intercalate_splitOn '.'
    unfold inetPton at read
    split at read
    · rename_i p q r t parts
      simp only [Option.bind_eq_bind, Option.bind_eq_some_iff, Option.some.injEq] at read
      obtain ⟨w, hp, x, hq, y, hr, z, ht, same⟩ := read
      obtain ⟨pw, wlt⟩ := parseOctet_some hp
      obtain ⟨qx, xlt⟩ := parseOctet_some hq
      obtain ⟨ry, ylt⟩ := parseOctet_some hr
      obtain ⟨tz, zlt⟩ := parseOctet_some ht
      obtain ⟨h3, h2, h1, h0⟩ := byte_ofBytes wlt xlt ylt zlt
      rw [← whole, parts, inetNtoa_parts, ← same, h3, h2, h1, h0, pw, qx, ry, tz]
    · simp at read
  · intro written
    have parts : s.splitOn '.' =
        [utoa (byte a 3), utoa (byte a 2), utoa (byte a 1), utoa (byte a 0)] := by
      rw [written, inetNtoa_parts]
      apply List.splitOn_intercalate
      · simp [dot_not_mem_utoa]
      · simp
    simp [inetPton, parts, parseOctet_utoa (byte_lt a _), ofBytes_byte]

theorem strtoulBase0_utoa (n : Nat) (rest : CString) (stop : ∀ c ∈ rest.head?, c.isDigit = false)
    (nohex : ∀ c ∈ rest.head?, c ≠ 'x' ∧ c ≠ 'X') :
    strtoulBase0 (utoa n ++ rest) = (n, rest) := by
  by_cases zero : n = 0
  · subst zero
    have written : utoa 0 = ['0'] := rfl
    cases rest with
    | nil => decide
    | cons c rest =>
      have first := stop c (by simp)
      obtain ⟨small, large⟩ := nohex c (by simp)
      have octal : isOctal c = false := by
        simp only [Char.isDigit, Bool.and_eq_false_iff, decide_eq_false_iff_not, ge_iff_le,
          UInt32.le_iff_toNat_le] at first
        simp only [isOctal, Bool.and_eq_false_iff, decide_eq_false_iff_not]
        have outside : ¬ 48 ≤ c.toNat ∨ ¬ c.toNat ≤ 57 := first
        omega
      have zeroOctal : isOctal '0' = true := by decide
      rw [written]
      cases rest <;>
        simp [strtoulBase0, small, large, octal, zeroOctal, Nat.ofDigitChars_cons]
  · have value : digitsValue (utoa n ++ rest) = n := by
      rw [digitsValue, takeWhile_utoa n rest stop, utoa_value]
    have after := dropWhile_utoa n rest stop
    cases written : utoa n with
    | nil => exact absurd written Nat.toDigits_ne_nil
    | cons d ds =>
      have nonzero : d ≠ '0' := by
        intro eq
        exact zero (utoa_head_zero n (by simp [written, eq]))
      rw [written] at value after
      rw [List.cons_append] at value after ⊢
      unfold strtoulBase0
      split
      · rename_i same
        exact absurd (List.cons.inj same).1 nonzero
      · rename_i same
        exact absurd (List.cons.inj same).1 nonzero
      · rw [value, after]

theorem utoa_head_digit (n : Nat) (rest : CString) :
    ((utoa n ++ rest).head?.map Char.isDigit).getD false = true := by
  obtain ⟨d, ds, start, digit⟩ := utoa_start n rest
  simp [start, digit]

theorem inetAtonParts_dot (n dots : Nat) (small : n < 256) (rest : CString) :
    inetAtonParts (dots + 1) (utoa n ++ '.' :: rest) =
      (inetAtonParts dots rest).map fun (vs, last) => (n :: vs, last) := by
  have number := strtoulBase0_utoa n ('.' :: rest) (by simp) (by simp)
  have digit : ((utoa n ++ '.' :: rest).head?.map Char.isDigit).getD false = true :=
    utoa_head_digit n _
  have fits : ¬ n > 0xffffffff := by omega
  have byte : ¬ n > 255 := by omega
  rw [inetAtonParts, if_pos digit]
  simp only [number, fits, byte, ↓reduceIte]

theorem inetAtonParts_last (n dots : Nat) (small : n < 256) (rest : CString)
    (stop : ∀ c ∈ rest.head?, c.isDigit = false ∧ c ≠ 'x' ∧ c ≠ 'X' ∧ c ≠ '.') :
    inetAtonParts dots (utoa n ++ rest) = some ([n], rest) := by
  have number := strtoulBase0_utoa n rest (fun c first => (stop c first).1)
    (fun c first => ⟨(stop c first).2.1, (stop c first).2.2.1⟩)
  have digit := utoa_head_digit n rest
  have fits : ¬ n > 0xffffffff := by omega
  rw [inetAtonParts, if_pos digit]
  simp only [number, fits, ↓reduceIte]
  cases rest with
  | nil => rfl
  | cons c rest =>
    have point : c ≠ '.' := (stop c rfl).2.2.2
    split
    · rename_i same
      exact absurd (List.cons.inj same).1 point
    · rename_i same
      exact absurd (List.cons.inj same).1 point
    · rfl

theorem inetAtonParts_inetNtoa (a : InAddr) (rest : CString)
    (stop : ∀ c ∈ rest.head?, c.isDigit = false ∧ c ≠ 'x' ∧ c ≠ 'X' ∧ c ≠ '.') :
    inetAtonParts 3 (inetNtoa a ++ rest) =
      some ([byte a 3, byte a 2, byte a 1, byte a 0], rest) := by
  simp only [inetNtoa, List.append_assoc, List.cons_append]
  rw [inetAtonParts_dot _ _ (byte_lt a 3), inetAtonParts_dot _ _ (byte_lt a 2),
    inetAtonParts_dot _ _ (byte_lt a 1), inetAtonParts_last _ _ (byte_lt a 0) rest stop]
  rfl

/-- The text written for an address is read back as that address. -/
theorem inetAton_inetNtoa (a : InAddr) : inetAton (inetNtoa a) = some a := by
  have last : ¬ byte a 0 > 0xff := by have := byte_lt a 0; omega
  have parts := inetAtonParts_inetNtoa a [] (by simp)
  rw [List.append_nil] at parts
  simp only [inetAton, parts]
  simp [last, ofBytes_byte]

/-- A socket address, with its port, is not an address. -/
theorem inetAton_port (a : InAddr) (port : CString) :
    inetAton (inetNtoa a ++ ':' :: port) = none := by
  have stop : ∀ c ∈ (':' :: port).head?, c.isDigit = false ∧ c ≠ 'x' ∧ c ≠ 'X' ∧ c ≠ '.' := by
    intro c first
    obtain rfl : ':' = c := by simpa using first
    decide
  simp only [inetAton, inetAtonParts_inetNtoa a _ stop]
  rfl

theorem inetAddr_inetNtoa (a : InAddr) : inetAddr (inetNtoa a) = a := by
  simp [inetAddr, inetAton_inetNtoa]

theorem inetAton_of_inetPton {s : CString} {a : InAddr} (read : inetPton s = some a) :
    inetAton s = some a := by
  rw [(inetPton_iff s a).mp read]
  exact inetAton_inetNtoa a

theorem inetNtoa_injective {a b : InAddr} (same : inetNtoa a = inetNtoa b) : a = b := by
  have left := inetAton_inetNtoa a
  rw [same, inetAton_inetNtoa] at left
  exact (Option.some.inj left).symm

example : inetAton "0x0a.1".toList = some (ofBytes 10 0 0 1) := by decide +kernel
example : inetAton "10.0.0.1:1900".toList = none := by decide +kernel

end Inet
