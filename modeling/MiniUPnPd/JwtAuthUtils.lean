import MiniUPnPd.Lib.Inet

/-!
The address texts of requests and tokens, and the test whether a range of a token has an
address. ParseIpAddress works on a copy that has no terminating NUL, so what the memory
after the copy holds is one of its arguments.
-/
namespace JwtAuthUtils
open CText Inet

def MAX_IP_STR_LEN : Nat := 15
def MAX_IPRANGE_STR_LEN : Nat := MAX_IP_STR_LEN + 3

/-- A number up to `limit`, and zero only if it is written with one digit. -/
def numberUpTo (limit : Int) (s : CString) : Option Int :=
  let tmp := atoi s
  if tmp > limit ∨ tmp < 0 ∨ (tmp = 0 ∧ s ≠ "0".toList) then none else some tmp

/-- `_parseIpAddress` -/
def parseSegments (addressStr : CString) : Option InAddr := do
  let (first, s) ← strtok '.' addressStr
  let (second, s) ← strtok '.' s
  let (third, s) ← strtok '.' s
  let (fourth, _) ← strtok '.' s
  let a ← numberUpTo 256 first
  let b ← numberUpTo 256 second
  let c ← numberUpTo 256 third
  let d ← numberUpTo 256 fourth
  some (BitVec.ofInt 32 (a * 2 ^ 24 + b * 2 ^ 16 + c * 2 ^ 8 + d))

/-- The text in `heapTail` is what follows the copy, up to the next NUL. -/
def parseIpAddress (heapTail addressStr : CString) : Option InAddr :=
  if addressStr.length > MAX_IP_STR_LEN then none else parseSegments (addressStr ++ heapTail)

def parseIpMaskString (rangeStr : CString) : Option (InAddr × Nat) := do
  let (addrSeg, s) ← strtok '/' rangeStr
  let (maskSeg, _) ← strtok '/' s
  let address ← parseSegments addrSeg
  let mask ← numberUpTo 32 maskSeg
  some (address, mask.toNat)

def containIp (rangeAddr : InAddr) (rangeMask : Nat) (target : InAddr) : Int :=
  if rangeMask = 0 then 1
  else if rangeMask < 1 ∨ rangeMask > 32 then -1
  else
    let mask := 0xffffffff#32 - ((1#32 <<< (32 - rangeMask)) - 1#32)
    if rangeAddr &&& mask = target &&& mask then 1 else 0

/-- The first `prefixLength` bits are those of the range. -/
def SamePrefix (rangeAddr : InAddr) (prefixLength : Nat) (target : InAddr) : Prop :=
  prefixLength ≤ 32 ∧ rangeAddr >>> (32 - prefixLength) = target >>> (32 - prefixLength)

theorem high_mask (k : Nat) (small : k < 32) :
    0xffffffff#32 - ((1#32 <<< k) - 1#32) = BitVec.allOnes 32 <<< k := by
  have low : 1 ≤ 2 ^ k := Nat.one_le_two_pow
  have high : 2 ^ k < 2 ^ 32 := Nat.pow_lt_pow_right (by decide) small
  apply BitVec.eq_of_toNat_eq
  have shifted : (1#32 <<< k).toNat = 2 ^ k := by
    rw [BitVec.toNat_shiftLeft, Nat.shiftLeft_eq, BitVec.toNat_ofNat,
      Nat.mod_eq_of_lt (show 1 < 2 ^ 32 by decide), Nat.one_mul, Nat.mod_eq_of_lt high]
  have ones : (BitVec.allOnes 32 <<< k).toNat = 2 ^ 32 - 2 ^ k := by
    rw [BitVec.toNat_shiftLeft, BitVec.toNat_allOnes, Nat.shiftLeft_eq]
    have split : (2 ^ 32 - 1) * 2 ^ k = 2 ^ 32 * (2 ^ k - 1) + (2 ^ 32 - 2 ^ k) := by
      generalize 2 ^ k = p at low high
      omega
    rw [split, Nat.mul_add_mod, Nat.mod_eq_of_lt (by omega)]
  rw [ones, BitVec.toNat_sub, BitVec.toNat_sub, shifted]
  simp only [BitVec.toNat_ofNat]
  omega

theorem and_high_mask (a b : BitVec 32) (k : Nat) :
    a &&& (BitVec.allOnes 32 <<< k) = b &&& (BitVec.allOnes 32 <<< k) ↔ a >>> k = b >>> k := by
  constructor
  · intro same
    apply BitVec.eq_of_getLsbD_eq
    intro i inside
    have bits := congrArg (fun v => v.getLsbD (k + i)) same
    simp only [BitVec.getLsbD_and, BitVec.getLsbD_shiftLeft, BitVec.getLsbD_allOnes] at bits
    by_cases there : k + i < 32
    · have inside' : k + i - k < 32 := by omega
      have above : ¬ k + i < k := by omega
      simpa only [there, inside', above, decide_true, decide_false, Bool.not_false, Bool.and_true,
        BitVec.getLsbD_ushiftRight] using bits
    · simp [BitVec.getLsbD_of_ge, Nat.le_of_not_lt there]
  · intro same
    apply BitVec.eq_of_getLsbD_eq
    intro i inside
    by_cases low : i < k
    · simp [low]
    · have bits := congrArg (fun v => v.getLsbD (i - k)) same
      have back : k + (i - k) = i := by omega
      simp only [BitVec.getLsbD_ushiftRight, back] at bits
      simp [bits]

theorem containIp_iff (rangeAddr : InAddr) (rangeMask : Nat) (target : InAddr) :
    containIp rangeAddr rangeMask target = 1 ↔ SamePrefix rangeAddr rangeMask target := by
  unfold containIp SamePrefix
  by_cases all : rangeMask = 0
  · subst all
    simp only [↓reduceIte, Nat.sub_zero, true_iff]
    refine ⟨by decide, ?_⟩
    simp [BitVec.ushiftRight_eq_zero]
  · by_cases large : rangeMask > 32
    · have outside : ¬ rangeMask ≤ 32 := by omega
      simp [all, large, outside]
    · have within : ¬ (rangeMask < 1 ∨ rangeMask > 32) := by omega
      have small : 32 - rangeMask < 32 := by omega
      have fits : rangeMask ≤ 32 := by omega
      simp only [all, within, ↓reduceIte, high_mask _ small, and_high_mask, fits, true_and]
      split <;> simp_all

theorem numberUpTo_utoa {n : Nat} {limit v : Int} (small : n < 2 ^ 31) {rest : CString}
    (stop : ∀ c ∈ rest.head?, c.isDigit = false)
    (read : numberUpTo limit (utoa n ++ rest) = some v) : v = n := by
  unfold numberUpTo at read
  rw [atoi_utoa small rest stop] at read
  dsimp only at read
  split at read
  · simp at read
  · exact (Option.some.inj read).symm

theorem strtok_utoa_last (n : Nat) (rest : CString) :
    strtok '.' (utoa n ++ rest) =
      some (utoa n ++ rest.takeWhile (· ≠ '.'), (rest.dropWhile (· ≠ '.')).drop 1) := by
  cases written : utoa n with
  | nil => exact absurd written Nat.toDigits_ne_nil
  | cons d ds =>
    have member : d ∈ utoa n := by simp [written]
    have other : d ≠ '.' := by
      rintro rfl
      exact dot_not_mem_utoa n member
    rw [← written, strtok_of_head (by simp [written]) other,
      takeWhile_ne_append (dot_not_mem_utoa n), dropWhile_ne_append (dot_not_mem_utoa n)]

theorem strtok_utoa (n : Nat) (rest : CString) :
    strtok '.' (utoa n ++ '.' :: rest) = some (utoa n, rest) := by
  rw [strtok_utoa_last]
  simp

theorem ofInt_octets (a : InAddr) :
    BitVec.ofInt 32 (byte a 3 * 2 ^ 24 + byte a 2 * 2 ^ 16 + byte a 1 * 2 ^ 8 + byte a 0) = a := by
  have cast : ((byte a 3 : Int) * 2 ^ 24 + byte a 2 * 2 ^ 16 + byte a 1 * 2 ^ 8 + byte a 0) =
      ((byte a 3 * 2 ^ 24 + byte a 2 * 2 ^ 16 + byte a 1 * 2 ^ 8 + byte a 0 : Nat) : Int) := by
    omega
  rw [cast, BitVec.ofInt_natCast, ← ofBytes, ofBytes_byte]

/-- Unless the memory after the text goes on with a digit, the address that is read is the
    one that is written. -/
theorem parseSegments_inetNtoa {a b : InAddr} {rest : CString}
    (stop : ∀ c ∈ rest.head?, c.isDigit = false)
    (read : parseSegments (inetNtoa a ++ rest) = some b) : b = a := by
  have alone : ∀ {n : Nat} {v : Int}, n < 256 → numberUpTo 256 (utoa n) = some v → v = n := by
    intro n v small number
    rw [← List.append_nil (utoa n)] at number
    exact numberUpTo_utoa (by omega) (by simp) number
  have last : ∀ c ∈ (rest.takeWhile (· ≠ '.')).head?, c.isDigit = false := by
    intro c first
    cases rest with
    | nil => simp at first
    | cons d rest =>
      rw [List.takeWhile_cons] at first
      split at first
      · exact stop c first
      · simp at first
  simp only [parseSegments, inetNtoa, List.append_assoc, List.cons_append, strtok_utoa,
    Option.bind_eq_bind, Option.bind_some] at read
  simp only [strtok_utoa_last, Option.bind_some, Option.bind_eq_some_iff] at read
  obtain ⟨v3, read3, v2, read2, v1, read1, v0, read0, whole⟩ := read
  rw [alone (byte_lt a 3) read3, alone (byte_lt a 2) read2, alone (byte_lt a 1) read1,
    numberUpTo_utoa (Nat.lt_trans (byte_lt a 0) (by decide)) last read0] at whole
  rw [ofInt_octets] at whole
  exact (Option.some.inj whole).symm

end JwtAuthUtils
