import MiniUPnPd.Lib.CString

/-!
An output buffer of C: memory from its start on, the length of the text in it as an `int`, what
is allocated, and a record of the writes with what each of them wants to write. `memcpy` writes it
all; `snprintf` writes what fits into the rest, a `size_t`, but its result counts the whole text.
-/
namespace OutputBuffer

structure Write where
  len : Int
  alloc : Nat
  size : Nat

def Write.Inside (w : Write) : Prop := 0 ≤ w.len ∧ w.len + w.size ≤ w.alloc

structure OutBuffer where
  cells : Int → Char
  len : Int
  alloc : Nat
  writes : List Write

def put (i : Int) (s : List Char) (cells : Int → Char) : Int → Char := fun j =>
  if i ≤ j ∧ j < i + s.length then s.getD (j - i).toNat '\x00' else cells j

namespace OutBuffer
variable (b : OutBuffer) (text : CString)

/-- The length counts on, whatever has been written. -/
def wrote (written : List Char) : OutBuffer :=
  { cells := put b.len written b.cells
    len := (b.len + text.length).bmod (2 ^ 32)
    alloc := b.alloc
    writes := b.writes ++ [{ len := b.len, alloc := b.alloc, size := text.length + 1 }] }

/-- The text and its NUL. -/
def memcpy : OutBuffer := b.wrote text (text ++ ['\x00'])

/-- `alloc - len` in the unsigned type. -/
def rest : Nat :=
  if b.alloc < b.len then 2 ^ 64 - (b.len - b.alloc).toNat else (b.alloc - b.len).toNat

def snprintf : OutBuffer :=
  b.wrote text (if b.rest = 0 then [] else text.take (b.rest - 1) ++ ['\x00'])

/-- The text without a NUL. -/
def store : OutBuffer :=
  { b.wrote text text with
    writes := b.writes ++ [{ len := b.len, alloc := b.alloc, size := text.length }] }

/-- The next text is written from the start, and the record starts again. -/
def rewind : OutBuffer := { b with len := 0, writes := [] }

/-- `realloc` -/
def grow (alloc : Nat) : OutBuffer := { b with alloc }

/-- What a reader of `len` characters gets. -/
def contents : List Char := (List.range b.len.toNat).map fun j : Nat => b.cells j

end OutBuffer

/-- The buffer holds the text, and no write has left what was allocated. -/
structure Holds (b : OutBuffer) (text : CString) : Prop where
  len : b.len = text.length
  cells : ∀ (j : Nat) (h : j < text.length), b.cells j = text[j]
  inside : ∀ w ∈ b.writes, w.Inside

section writes
variable {b : OutBuffer} {text s : CString}

theorem holds_contents (holds : Holds b text) : b.contents = text := by
  apply List.ext_getElem
  · simp [OutBuffer.contents, holds.len]
  · intro j first second
    simp only [OutBuffer.contents, List.getElem_map, List.getElem_range]
    exact holds.cells j second

/-- What is put behind a text makes it longer, whatever follows in the same write. -/
theorem put_cells {cells : Int → Char} (here : ∀ (j : Nat) (h : j < text.length), cells j = text[j])
    (after : List Char) (j : Nat) (h : j < (text ++ s).length) :
    put text.length (s ++ after) cells j = (text ++ s)[j] := by
  rw [List.length_append] at h
  simp only [put, List.length_append]
  by_cases before : j < text.length
  · rw [if_neg (by omega), here j before, List.getElem_append_left before]
  · have place : ((j : Int) - text.length).toNat = j - text.length := by omega
    rw [if_pos (by omega), place, List.getElem_append_right (by omega)]
    rw [List.getD_eq_getElem?_getD, List.getElem?_append_left (by omega),
      List.getElem?_eq_getElem (by omega), Option.getD_some]

/-- A write of all the text behind what the buffer holds. -/
theorem wrote_holds (holds : Holds b text) (room : text.length + s.length + 1 ≤ b.alloc)
    (small : text.length + s.length < 2 ^ 31) : Holds (b.wrote s (s ++ ['\x00'])) (text ++ s) := by
  have len := holds.len
  constructor
  · simp only [OutBuffer.wrote, len, List.length_append, Int.natCast_add]
    rw [Int.bmod_eq_iff (by decide)]
    omega
  · intro j inside
    simp only [OutBuffer.wrote, len]
    exact put_cells holds.cells ['\x00'] j inside
  · intro w member
    simp only [OutBuffer.wrote, List.mem_append, List.mem_singleton] at member
    rcases member with earlier | rfl
    · exact holds.inside w earlier
    · constructor
      · show (0 : Int) ≤ b.len
        omega
      · show b.len + ((s.length + 1 : Nat) : Int) ≤ b.alloc
        omega

theorem memcpy_holds (holds : Holds b text) (room : text.length + s.length + 1 ≤ b.alloc)
    (small : text.length + s.length < 2 ^ 31) : Holds (b.memcpy s) (text ++ s) :=
  wrote_holds holds room small

theorem snprintf_holds (holds : Holds b text) (room : text.length + s.length + 1 ≤ b.alloc)
    (small : text.length + s.length < 2 ^ 31) : Holds (b.snprintf s) (text ++ s) := by
  have len := holds.len
  have rest : b.rest = b.alloc - text.length := by
    unfold OutBuffer.rest
    rw [if_neg (by omega)]
    omega
  unfold OutBuffer.snprintf
  rw [rest, if_neg (by omega), List.take_of_length_le (by omega)]
  exact wrote_holds holds room small

theorem store_holds (holds : Holds b text) (room : text.length + s.length ≤ b.alloc)
    (small : text.length + s.length < 2 ^ 31) : Holds (b.store s) (text ++ s) := by
  have len := holds.len
  constructor
  · simp only [OutBuffer.store, OutBuffer.wrote, len, List.length_append, Int.natCast_add]
    rw [Int.bmod_eq_iff (by decide)]
    omega
  · intro j inside
    have cells := @put_cells text s b.cells holds.cells [] j inside
    rw [List.append_nil] at cells
    simp only [OutBuffer.store, OutBuffer.wrote, len]
    exact cells
  · intro w member
    simp only [OutBuffer.store, List.mem_append, List.mem_singleton] at member
    rcases member with earlier | rfl
    · exact holds.inside w earlier
    · constructor
      · show (0 : Int) ≤ b.len
        omega
      · show b.len + (s.length : Int) ≤ b.alloc
        omega

theorem rewind_holds (b : OutBuffer) : Holds b.rewind [] where
  len := rfl
  cells _ inside := absurd inside (Nat.not_lt_zero _)
  inside _ member := absurd member List.not_mem_nil

/-- A length of 2^31 is negative. -/
theorem wrote_over (len : b.len = text.length) (large : 2 ^ 31 ≤ text.length + s.length)
    (bounded : text.length + s.length < 2 ^ 32) (written : List Char) :
    (b.wrote s written).len < 0 := by
  have wraps : ((text.length : Int) + s.length).bmod (2 ^ 32) =
      text.length + s.length - 2 ^ 32 := by
    rw [Int.bmod_eq_iff (by decide)]
    omega
  simp only [OutBuffer.wrote, len, wraps]
  omega

/-- The last write is in the record. -/
theorem wrote_inside {written : List Char} (inside : ∀ w ∈ (b.wrote s written).writes, w.Inside) :
    0 ≤ b.len ∧ b.len + s.length + 1 ≤ b.alloc := by
  have last := inside { len := b.len, alloc := b.alloc, size := s.length + 1 } (by
    simp [OutBuffer.wrote])
  have fits : b.len + ((s.length + 1 : Nat) : Int) ≤ b.alloc := last.2
  constructor
  · exact last.1
  · omega

end writes

end OutputBuffer
