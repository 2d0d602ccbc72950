import Mathlib.Algebra.Group.Int.Defs
import Mathlib.Algebra.Group.Nat.Defs

/-!
Packets as lists of bytes, read and written in network order. A byte after the end of a
packet reads as 0.
-/
namespace NetBytes

def byteAt (packet : List UInt8) (i : Nat) : UInt8 := packet.getD i 0

def readNU16 (packet : List UInt8) (i : Nat) : UInt16 :=
  UInt16.ofNat ((byteAt packet i).toNat * 256 + (byteAt packet (i + 1)).toNat)

def readNU32 (packet : List UInt8) (i : Nat) : Nat :=
  (readNU16 packet i).toNat * 2 ^ 16 + (readNU16 packet (i + 2)).toNat

def writeNU16 (n : UInt16) : List UInt8 :=
  [UInt8.ofNat (n.toNat / 256), UInt8.ofNat n.toNat]

def writeNU32 (n : Nat) : List UInt8 :=
  writeNU16 (UInt16.ofNat (n / 2 ^ 16)) ++ writeNU16 (UInt16.ofNat n)

/-- The `length` bytes from `i` on. -/
def slice (packet : List UInt8) (i length : Nat) : List UInt8 :=
  (List.range length).map fun k => byteAt packet (i + k)

/-- The bytes from `i` on are overwritten; a packet that is too short is filled up with 0. -/
def writeAt (packet : List UInt8) (i : Nat) (bytes : List UInt8) : List UInt8 :=
  slice packet 0 i ++ bytes ++ packet.drop (i + bytes.length)

@[simp] theorem length_slice (packet : List UInt8) (i length : Nat) :
    (slice packet i length).length = length := by
  simp [slice]

theorem byteAt_slice {packet : List UInt8} {i length k : Nat} (inside : k < length) :
    byteAt (slice packet i length) k = byteAt packet (i + k) := by
  simp [byteAt, slice, inside]

theorem byteAt_append_left {front rest : List UInt8} {k : Nat} (inside : k < front.length) :
    byteAt (front ++ rest) k = byteAt front k := by
  simp [byteAt, List.getElem?_append_left inside]

theorem byteAt_append_right {front rest : List UInt8} {k : Nat} (past : front.length ≤ k) :
    byteAt (front ++ rest) k = byteAt rest (k - front.length) := by
  simp [byteAt, List.getElem?_append_right past]

theorem byteAt_writeAt_before {packet bytes : List UInt8} {i k : Nat} (before : k < i) :
    byteAt (writeAt packet i bytes) k = byteAt packet k := by
  rw [writeAt, List.append_assoc, byteAt_append_left (by rw [length_slice]; exact before),
    byteAt_slice before, Nat.zero_add]

theorem byteAt_writeAt {packet bytes : List UInt8} {i k : Nat} (inside : k < bytes.length) :
    byteAt (writeAt packet i bytes) (i + k) = byteAt bytes k := by
  rw [writeAt, List.append_assoc, byteAt_append_right (by rw [length_slice]; omega), length_slice,
    Nat.add_sub_cancel_left, byteAt_append_left inside]

theorem readNU16_congr {packet packet' : List UInt8} {i j : Nat}
    (first : byteAt packet i = byteAt packet' j)
    (second : byteAt packet (i + 1) = byteAt packet' (j + 1)) :
    readNU16 packet i = readNU16 packet' j := by
  rw [readNU16, readNU16, first, second]

theorem readNU16_writeNU16 (n : UInt16) (rest : List UInt8) :
    readNU16 (writeNU16 n ++ rest) 0 = n := by
  apply UInt16.toNat_inj.mp
  have small := n.toNat_lt
  simp only [readNU16, writeNU16, byteAt, List.cons_append, List.getD_cons_zero, Nat.zero_add,
    List.getD_cons_succ, UInt16.toNat_ofNat', UInt8.toNat_ofNat']
  omega

theorem readNU32_writeNU32 (n : Nat) (small : n < 2 ^ 32) (rest : List UInt8) :
    readNU32 (writeNU32 n ++ rest) 0 = n := by
  have high := readNU16_writeNU16 (UInt16.ofNat (n / 2 ^ 16)) (writeNU16 (UInt16.ofNat n) ++ rest)
  have low := readNU16_writeNU16 (UInt16.ofNat n) rest
  have second : readNU16 (writeNU32 n ++ rest) (0 + 2) =
      readNU16 (writeNU16 (UInt16.ofNat n) ++ rest) 0 := rfl
  rw [readNU32, second, low, writeNU32, List.append_assoc, high]
  simp only [UInt16.toNat_ofNat']
  omega

theorem readNU32_lt (packet : List UInt8) (i : Nat) : readNU32 packet i < 2 ^ 32 := by
  have high := (readNU16 packet i).toNat_lt
  have low := (readNU16 packet (i + 2)).toNat_lt
  unfold readNU32
  omega

/-- A number as so many bytes. -/
def bytesOf : (length : Nat) → Nat → List UInt8
  | 0, _ => []
  | length + 1, n => bytesOf length (n / 256) ++ [UInt8.ofNat n]

def valueOf (bytes : List UInt8) : Nat := bytes.foldl (fun n b => n * 256 + b.toNat) 0

@[simp] theorem length_bytesOf (length n : Nat) : (bytesOf length n).length = length := by
  induction length generalizing n with
  | zero => rfl
  | succ length ih => simp [bytesOf, ih]

theorem valueOf_bytesOf {length n : Nat} (small : n < 256 ^ length) :
    valueOf (bytesOf length n) = n := by
  induction length generalizing n with
  | zero =>
    have zero : n = 0 := by simpa using small
    simp [bytesOf, valueOf, zero]
  | succ length ih =>
    have front := ih (n := n / 256) (by rw [Nat.pow_succ] at small; omega)
    unfold valueOf at front ⊢
    rw [bytesOf, List.foldl_append, front]
    simp only [List.foldl_cons, List.foldl_nil, UInt8.toNat_ofNat']
    omega

end NetBytes
