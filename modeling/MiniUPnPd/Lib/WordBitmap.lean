import Mathlib.Data.Nat.Basic

/-!
A set of small numbers stored in an array of machine words: number `j` is bit
`j % w` of word `j / w`. Single bits are written with the usual OR and AND-NOT
masks, whole words with one store. Both writes are characterised by what a later
test of any bit sees, which is all a client needs.
-/
namespace WordBitmap
variable {w n : Nat}

abbrev Words (w n : Nat) := Vector (BitVec w) n

/-- The test `words[j / w] & (1 << (j % w))`; a number past the array is absent. -/
def bit (ws : Words w n) (j : Nat) : Bool := (ws[j / w]?.getD 0#w).getLsbD (j % w)

def setBit (ws : Words w n) (j : Nat) (h : j / w < n) : Words w n :=
  ws.set (j / w) (ws[j / w] ||| (1#w <<< (j % w))) h

def clearBit (ws : Words w n) (j : Nat) (h : j / w < n) : Words w n :=
  ws.set (j / w) (ws[j / w] &&& ~~~(1#w <<< (j % w))) h

theorem bit_replicate_ones (positive : 0 < w) (j : Nat) (inside : j / w < n) :
    bit (Vector.replicate n (BitVec.allOnes w)) j = true := by
  have low := Nat.mod_lt j positive
  simp [bit, inside, low]

theorem bit_inside (ws : Words w n) (j : Nat) (h : j / w < n) :
    bit ws j = ws[j / w].getLsbD (j % w) := by
  simp [bit, h]

theorem bit_set (ws : Words w n) (k : Nat) (h : k < n) (x : BitVec w) (j : Nat) :
    bit (ws.set k x h) j = if j / w = k then x.getLsbD (j % w) else bit ws j := by
  unfold bit
  by_cases same : j / w = k
  · subst same
    simp [h]
  · rw [Vector.getElem?_set_ne h (fun eq => same eq.symm)]
    simp [same]

theorem same_bit_iff {i j : Nat} (word : i / w = j / w) : i % w = j % w ↔ i = j := by
  constructor
  · intro low
    rw [← Nat.div_add_mod i w, ← Nat.div_add_mod j w, word, low]
  · intro same
    rw [same]

theorem bit_setBit (positive : 0 < w) (ws : Words w n) (j : Nat) (h : j / w < n) (i : Nat) :
    bit (setBit ws j h) i = if i = j then true else bit ws i := by
  rw [setBit, bit_set]
  by_cases word : i / w = j / w
  · have low := Nat.mod_lt i positive
    have inside : i / w < n := word ▸ h
    have exact := same_bit_iff word
    simp only [word, ↓reduceIte, BitVec.getLsbD_or, ← BitVec.twoPow_eq,
      BitVec.getLsbD_twoPow, bit_inside ws i inside]
    by_cases same : i = j
    · subst same
      simp [low]
    · have other : ¬ j % w = i % w := fun eq => same (exact.mp eq.symm)
      simp [same, other]
  · have other : i ≠ j := fun same => word (by rw [same])
    simp [word, other]

theorem bit_clearBit (positive : 0 < w) (ws : Words w n) (j : Nat) (h : j / w < n) (i : Nat) :
    bit (clearBit ws j h) i = if i = j then false else bit ws i := by
  rw [clearBit, bit_set]
  by_cases word : i / w = j / w
  · have low := Nat.mod_lt i positive
    have inside : i / w < n := word ▸ h
    have exact := same_bit_iff word
    simp only [word, ↓reduceIte, BitVec.getLsbD_and, BitVec.getLsbD_not, ← BitVec.twoPow_eq,
      BitVec.getLsbD_twoPow, bit_inside ws i inside]
    by_cases same : i = j
    · subst same
      simp [low]
    · have other : ¬ j % w = i % w := fun eq => same (exact.mp eq.symm)
      simp [same, other, low]
  · have other : i ≠ j := fun same => word (by rw [same])
    simp [word, other]

theorem bit_set_ones (positive : 0 < w) (ws : Words w n) (k : Nat) (h : k < n) (j : Nat) :
    bit (ws.set k (BitVec.allOnes w) h) j = if j / w = k then true else bit ws j := by
  have low := Nat.mod_lt j positive
  rw [bit_set]
  simp [low]

theorem bit_set_zero (ws : Words w n) (k : Nat) (h : k < n) (j : Nat) :
    bit (ws.set k 0#w h) j = if j / w = k then false else bit ws j := by
  rw [bit_set]
  simp

end WordBitmap
