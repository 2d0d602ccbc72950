import MiniUPnPd.Lib.CString

/-!
Character buffers of C, as their cells. A buffer may be missing, and an access past its last
cell is an error.
-/
namespace CBuffer
open CText

inductive Fault
  | nullPointer
  | outside
  deriving DecidableEq

/-- What `strncpy` writes: the text as far as it fits, and NULs behind it. -/
def padded (n : Nat) (src : CString) : List Char := src.take n ++ List.replicate (n - src.length) '\x00'

def strncpy (dest : Option (List Char)) (src : CString) (n : Nat) :
    Except Fault (Option (List Char)) :=
  match dest with
  | none => if n = 0 then .ok none else .error .nullPointer
  | some cells =>
    if n ≤ cells.length then .ok (some (padded n src ++ cells.drop n)) else .error .outside

/-- A string ends in the buffer. -/
def Terminated (cells : List Char) : Prop := '\x00' ∈ cells

instance (cells : List Char) : Decidable (Terminated cells) := by
  unfold Terminated
  infer_instance

/-- Nothing is written outside the buffers, and a success leaves a string in each of them. -/
def Sound {α : Type*} (result : Except Fault (Option α))
    (outputs : α → List (Option (List Char))) : Prop :=
  ∃ r, result = .ok r ∧ ∀ infos ∈ r, ∀ b ∈ outputs infos, ∃ cells, b = some cells ∧ Terminated cells

theorem sound_none {α : Type*} (outputs : α → List (Option (List Char))) :
    Sound (.ok none) outputs := by
  refine ⟨none, rfl, ?_⟩
  intro infos member
  cases member

section copies
variable {src cells : List Char} {n : Nat}

/-- A copy into the whole buffer is terminated exactly if the text is shorter. -/
theorem terminated_padded_iff (plain : '\x00' ∉ src) : Terminated (padded n src) ↔ src.length < n := by
  simp only [Terminated, padded, List.mem_append, List.mem_replicate]
  constructor
  · intro member
    rcases member with text | ⟨left, _⟩
    · exact absurd (List.mem_of_mem_take text) plain
    · omega
  · intro short
    exact .inr ⟨by omega, trivial⟩

theorem strncpy_whole (cells : List Char) (src : CString) :
    strncpy (some cells) src cells.length = .ok (some (padded cells.length src)) := by
  simp [strncpy]

/-- The copy of a text, as the only output. -/
theorem sound_copy_iff (plain : '\x00' ∉ src) (cells : List Char) :
    Sound ((strncpy (some cells) src cells.length).map some) (fun b => [b]) ↔
      src.length < cells.length := by
  rw [strncpy_whole, ← terminated_padded_iff plain]
  simp [Sound, Except.map]

/-- A copy with the length of the text and its NUL ends in the buffer, when it fits. -/
theorem strncpy_text (cells : List Char) (src : CString) :
    strncpy (some cells) src (src.length + 1) =
      if src.length < cells.length then .ok (some (src ++ '\x00' :: cells.drop (src.length + 1)))
      else .error .outside := by
  simp only [strncpy, Nat.succ_le_iff]
  split
  · simp [padded, List.take_of_length_le (Nat.le_succ src.length)]
  · rfl

end copies

end CBuffer
