import Mathlib.Algebra.GroupWithZero.Nat
import Mathlib.Algebra.Order.BigOperators.Group.List
import Mathlib.Algebra.Order.Group.Nat
import Mathlib.Algebra.Order.Monoid.Canonical.Defs
import MiniUPnPd.Lib.OutputBuffer

/-!
The string to which the description generator appends. Its length and the size of its block are
variables of type `int`, and the block is made larger before what is appended would fill it. What
three functions append is put together by one rule: a function appends a text in pieces, and in a
buffer it does so exactly if the block never has to reach 2^31 bytes.
-/
namespace UpnpDescGen
open CText OutputBuffer

/-- Memory from the start of the string on, and a record of what was written to it. -/
structure StrBuf where
  cells : Int → Char
  len : Int
  tmplen : Int
  writes : List Write

def asInt (x : Int) : Int := x.bmod (2 ^ 32)

def asSize (x : Int) : Nat := (x % 2 ^ 64).toNat

def byteChar (x : Int) : Char := Char.ofNat (x % 256).toNat

def StrBuf.store (b : StrBuf) (bytes : List Char) (size : Nat) (place : Int) : StrBuf :=
  { b with
    cells := put place (bytes.take size) b.cells
    writes := b.writes ++ [{ len := place, alloc := b.tmplen.toNat, size }] }

/-- The `memcpy` of `strcat_str`. -/
def copyStr (b : StrBuf) (s2 : CString) (s2len : Int) : StrBuf :=
  { b.store (s2 ++ ['\x00']) (asSize (asInt (s2len + 1))) b.len with len := asInt (b.len + s2len) }

def pushChar (b : StrBuf) (c : Char) : StrBuf :=
  { b.store [c] 1 b.len with len := asInt (b.len + 1) }

section functions
variable (realloc : Int → Bool)

def strcatStr (b : StrBuf) (s2 : CString) : StrBuf :=
  let s2len := asInt s2.length
  if b.tmplen ≤ asInt (b.len + s2len) then
    let newlen := if s2len < 256 then asInt (b.tmplen + 256) else asInt (b.tmplen + s2len + 1)
    if realloc newlen then copyStr { b with tmplen := newlen } s2 s2len else b
  else copyStr b s2 s2len

def strcatChar (b : StrBuf) (c : Char) : StrBuf :=
  if b.tmplen ≤ asInt (b.len + 1) then
    let tmplen := asInt (b.tmplen + 256)
    if realloc tmplen then pushChar { b with tmplen } c else { b with tmplen := asInt (tmplen - 256) }
  else pushChar b c

/-- `buf` in the order in which it is read back; there is room for as many digits. -/
def intDigits : (room : Nat) → (i : Int) → (buf : List Char) → List Char
  | 0, _, buf => buf
  | room + 1, i, buf =>
      if i = 0 then buf else intDigits room (i.tdiv 10) (byteChar (48 + i.tmod 10) :: buf)

def strcatInt (b : StrBuf) (i : Int) : StrBuf :=
  if i < 0 then (intDigits 16 (asInt (-i)) []).foldl (strcatChar realloc) (strcatChar realloc b '-')
  else if i = 0 then strcatChar realloc b '0'
  else (intDigits 16 i []).foldl (strcatChar realloc) b

inductive Call where
  | str (s2 : CString)
  | char (c : Char)
  | int (i : Int)

def Call.run (b : StrBuf) : Call → StrBuf
  | .str s2 => strcatStr realloc b s2
  | .char c => strcatChar realloc b c
  | .int i => strcatInt realloc b i

end functions

def decimal (i : Int) : CString := if i < 0 then '-' :: utoa i.natAbs else utoa i.natAbs

def Call.text : Call → CString
  | .str s2 => s2
  | .char c => [c]
  | .int i => decimal i

/-- The pieces that are appended one by one. -/
def Call.sizes : Call → List Nat
  | .str s2 => [s2.length]
  | .char _ => [1]
  | .int i => List.replicate (decimal i).length 1

def textOf (calls : List Call) : CString := calls.flatMap Call.text

def sizesOf (calls : List Call) : List Nat := calls.flatMap Call.sizes

/-- The size of the block after a piece, if there is no bound for it. -/
def capacity (len tmplen : Int) (size : Nat) : Int :=
  if len + size < tmplen then tmplen else if size < 256 then tmplen + 256 else tmplen + size + 1

/-- No piece makes the block as large as 2^31. -/
def Roomy : (len tmplen : Int) → List Nat → Prop
  | _, _, [] => True
  | len, tmplen, size :: sizes =>
      capacity len tmplen size < 2 ^ 31 ∧ Roomy (len + size) (capacity len tmplen size) sizes

instance decidableRoomy :
    (len tmplen : Int) → (sizes : List Nat) → Decidable (Roomy len tmplen sizes)
  | _, _, [] => isTrue trivial
  | len, tmplen, size :: sizes =>
      have := decidableRoomy (len + size) (capacity len tmplen size) sizes
      inferInstanceAs (Decidable (_ ∧ _))

def lastCapacity : (len tmplen : Int) → List Nat → Int
  | _, tmplen, [] => tmplen
  | len, tmplen, size :: sizes => lastCapacity (len + size) (capacity len tmplen size) sizes

/-- The text is in the string, with room behind it, and no write has left the block. -/
structure Holds (b : StrBuf) (text : CString) : Prop where
  len : b.len = text.length
  room : b.len < b.tmplen
  int : b.tmplen < 2 ^ 31
  cells : ∀ (j : Nat) (h : j < text.length), b.cells j = text[j]
  inside : ∀ w ∈ b.writes, w.Inside

/-- A function of the string appends a text in pieces of these sizes. -/
structure Appends (f : StrBuf → StrBuf) (s : CString) (sizes : List Nat) : Prop where
  sum : sizes.sum = s.length
  kept : ∀ {b text}, Holds b text → Roomy b.len b.tmplen sizes →
    Holds (f b) (text ++ s) ∧ (f b).tmplen = lastCapacity b.len b.tmplen sizes
  /-- What was written outside stays in the record. -/
  recorded : ∀ b, (∀ w ∈ (f b).writes, w.Inside) → ∀ w ∈ b.writes, w.Inside
  needed : ∀ {b text}, Holds b text → (∀ w ∈ (f b).writes, w.Inside) →
    (∀ size ∈ sizes, size < 2 ^ 31) → Roomy b.len b.tmplen sizes

section sizes
variable {len tmplen : Int} {first second : List Nat}

theorem roomy_append :
    Roomy len tmplen (first ++ second) ↔
      Roomy len tmplen first ∧
        Roomy (len + (first.sum : Nat)) (lastCapacity len tmplen first) second := by
  induction first generalizing len tmplen with
  | nil => simp [Roomy, lastCapacity]
  | cons size first ih =>
    simp only [List.cons_append, Roomy, lastCapacity, ih, List.sum_cons, Int.natCast_add,
      Int.add_assoc, and_assoc]

theorem lastCapacity_append :
    lastCapacity len tmplen (first ++ second) =
      lastCapacity (len + (first.sum : Nat)) (lastCapacity len tmplen first) second := by
  induction first generalizing len tmplen with
  | nil => simp [lastCapacity]
  | cons size first ih =>
    simp only [List.cons_append, lastCapacity, ih, List.sum_cons, Int.natCast_add, Int.add_assoc]

theorem capacity_cases (size : Nat) :
    len + size < tmplen ∧ capacity len tmplen size = tmplen ∨
      tmplen ≤ len + size ∧ size < 256 ∧ capacity len tmplen size = tmplen + 256 ∨
      tmplen ≤ len + size ∧ 256 ≤ size ∧ capacity len tmplen size = tmplen + size + 1 := by
  unfold capacity
  split
  · exact Or.inl ⟨by assumption, rfl⟩
  · split
    · exact Or.inr (Or.inl ⟨by omega, by assumption, rfl⟩)
    · exact Or.inr (Or.inr ⟨by omega, by omega, rfl⟩)

end sizes

section rules
variable {f g : StrBuf → StrBuf} {s t text : CString} {sizes more : List Nat} {b : StrBuf}

theorem appends_id : Appends (fun b => b) [] [] where
  sum := rfl
  kept := by
    intro b text holds _
    rw [List.append_nil]
    exact ⟨holds, rfl⟩
  recorded := fun _ inside => inside
  needed := fun _ _ _ => trivial

/-- Two functions after each other append the two texts. -/
theorem appends_comp (first : Appends f s sizes) (second : Appends g t more) :
    Appends (fun b => g (f b)) (s ++ t) (sizes ++ more) := by
  have place : ∀ {b text}, Holds b text → Roomy b.len b.tmplen sizes →
      (f b).len = b.len + (sizes.sum : Nat) := by
    intro b text holds roomy
    rw [(first.kept holds roomy).1.len, holds.len, first.sum, List.length_append]
    omega
  constructor
  · rw [List.sum_append, first.sum, second.sum, List.length_append]
  · intro b text holds roomy
    obtain ⟨one, two⟩ := roomy_append.mp roomy
    obtain ⟨here, block⟩ := first.kept holds one
    rw [← place holds one, ← block] at two
    obtain ⟨there, last⟩ := second.kept here two
    rw [List.append_assoc] at there
    refine ⟨there, ?_⟩
    rw [last, lastCapacity_append, place holds one, block]
  · intro b inside
    exact first.recorded b (second.recorded (f b) inside)
  · intro b text holds inside small
    have one := first.needed holds (second.recorded (f b) inside) fun size member =>
      small size (List.mem_append_left more member)
    obtain ⟨here, block⟩ := first.kept holds one
    have two := second.needed here inside fun size member =>
      small size (List.mem_append_right sizes member)
    rw [place holds one, block] at two
    exact roomy_append.mpr ⟨one, two⟩

/-- The text arrives exactly if the block stays small enough. -/
theorem appends_iff (appends : Appends f s sizes) (holds : Holds b text) :
    Holds (f b) (text ++ s) ↔ Roomy b.len b.tmplen sizes := by
  constructor
  · intro arrived
    apply appends.needed holds arrived.inside
    intro size member
    have part : size ≤ sizes.sum := List.le_sum_of_mem member
    have sum := appends.sum
    have len := arrived.len
    have room := arrived.room
    have int := arrived.int
    rw [List.length_append] at len
    omega
  · intro roomy
    exact (appends.kept holds roomy).1

end rules

section writes
variable {b : StrBuf} {text s after : CString} {size : Nat} {place : Int}

theorem asInt_of_small {x : Int} (low : -2 ^ 31 ≤ x) (high : x < 2 ^ 31) : asInt x = x := by
  rw [asInt, Int.bmod_eq_iff (by decide)]
  omega

theorem asInt_over {x : Int} (low : 2 ^ 31 ≤ x) (high : x < 2 ^ 32) : asInt x = x - 2 ^ 32 := by
  rw [asInt, Int.bmod_eq_iff (by decide)]
  omega

theorem store_recorded (inside : ∀ w ∈ (b.store s size place).writes, w.Inside) :
    (∀ w ∈ b.writes, w.Inside) ∧ 0 ≤ place ∧ place + size ≤ b.tmplen.toNat := by
  refine ⟨fun w member => inside w (List.mem_append_left _ member), ?_⟩
  exact inside _ (List.mem_append_right b.writes (List.mem_singleton.mpr rfl))

theorem pushChar_recorded {c : Char} (inside : ∀ w ∈ (pushChar b c).writes, w.Inside) :
    (∀ w ∈ b.writes, w.Inside) ∧ 0 ≤ b.len ∧ b.len + 1 ≤ b.tmplen.toNat :=
  @store_recorded b [c] 1 b.len inside

theorem copyStr_recorded {s2len : Int} (inside : ∀ w ∈ (copyStr b s s2len).writes, w.Inside) :
    (∀ w ∈ b.writes, w.Inside) ∧ 0 ≤ b.len ∧
      b.len + asSize (asInt (s2len + 1)) ≤ b.tmplen.toNat :=
  @store_recorded b (s ++ ['\x00']) (asSize (asInt (s2len + 1))) b.len inside

/-- A write of a text, and of some bytes behind it, to the end of the string. -/
theorem store_holds (holds : Holds b text) (fits : text.length + (s ++ after).length ≤ b.tmplen)
    (room : text.length + s.length < b.tmplen) :
    Holds { b.store (s ++ after) (s ++ after).length b.len with len := b.len + s.length }
      (text ++ s) := by
  have len := holds.len
  constructor
  · show b.len + s.length = ((text ++ s).length : Nat)
    rw [List.length_append]
    omega
  · show b.len + s.length < b.tmplen
    omega
  · exact holds.int
  · intro j inside
    simp only [StrBuf.store, len, List.take_length]
    exact put_cells holds.cells after j inside
  · intro w member
    rcases List.mem_append.mp member with earlier | last
    · exact holds.inside w earlier
    · rw [List.mem_singleton] at last
      subst last
      constructor
      · show 0 ≤ b.len
        omega
      · show b.len + ((s ++ after).length : Nat) ≤ b.tmplen.toNat
        omega

/-- A larger block holds the same text. -/
theorem grown_holds (holds : Holds b text) {tmplen : Int} (larger : b.tmplen ≤ tmplen)
    (int : tmplen < 2 ^ 31) : Holds { b with tmplen } text where
  len := holds.len
  room := Int.lt_of_lt_of_le holds.room larger
  int := int
  cells := holds.cells
  inside := holds.inside

theorem copyStr_holds (holds : Holds b text) (room : b.len + s.length < b.tmplen) :
    Holds (copyStr b s s.length) (text ++ s) ∧ (copyStr b s s.length).tmplen = b.tmplen := by
  have len := holds.len
  have int := holds.int
  have stored := @store_holds b text s ['\x00'] holds (by simp; omega) (by omega)
  have size : asSize (asInt (s.length + 1)) = (s ++ ['\x00']).length := by
    rw [asInt_of_small (by omega) (by omega), asSize, List.length_append, List.length_singleton]
    omega
  refine ⟨?_, rfl⟩
  rw [copyStr, size, asInt_of_small (by omega) (by omega)]
  exact stored

theorem pushChar_holds {c : Char} (holds : Holds b text) (room : b.len + 1 < b.tmplen) :
    Holds (pushChar b c) (text ++ [c]) ∧ (pushChar b c).tmplen = b.tmplen := by
  have len := holds.len
  have int := holds.int
  have stored := @store_holds b text [c] [] holds (by simp; omega) (by simp; omega)
  refine ⟨?_, rfl⟩
  rw [pushChar, asInt_of_small (by omega) (by omega)]
  exact stored

end writes

theorem copy_size {n : Int} (low : 0 ≤ n) (high : n < 2 ^ 31) :
    n + 1 ≤ asSize (asInt (n + 1)) := by
  by_cases last : n + 1 < 2 ^ 31
  · rw [asInt_of_small (by omega) last, asSize]
    omega
  · rw [asInt_over (by omega) (by omega), asSize]
    omega

section calls
variable {realloc : Int → Bool} (succeeds : ∀ size, realloc size = true) (b : StrBuf)

include succeeds

theorem strcatChar_granted (c : Char) :
    strcatChar realloc b c =
      pushChar (if b.tmplen ≤ asInt (b.len + 1) then { b with tmplen := asInt (b.tmplen + 256) }
        else b) c := by
  unfold strcatChar
  split
  · exact if_pos (succeeds _)
  · rfl

theorem strcatStr_granted (s : CString) :
    strcatStr realloc b s =
      copyStr (if b.tmplen ≤ asInt (b.len + asInt s.length) then
        { b with tmplen :=
            if asInt s.length < 256 then asInt (b.tmplen + 256)
            else asInt (b.tmplen + asInt s.length + 1) }
        else b) s (asInt s.length) := by
  unfold strcatStr
  dsimp only
  split
  · exact if_pos (succeeds _)
  · rfl

theorem strcatChar_appends (c : Char) : Appends (fun b => strcatChar realloc b c) [c] [1] := by
  constructor
  · rfl
  · intro b text holds roomy
    have len := holds.len
    have room := holds.room
    have int := holds.int
    have block := roomy.1
    have next : asInt (b.len + 1) = b.len + 1 := asInt_of_small (by omega) (by omega)
    rw [strcatChar_granted succeeds, next]
    simp only [lastCapacity]
    rcases @capacity_cases b.len b.tmplen 1 with ⟨fits, same⟩ | ⟨full, _, grown⟩ | ⟨_, large, _⟩
    · rw [if_neg (by omega), same]
      exact pushChar_holds holds (by omega)
    · rw [if_pos (by omega), grown, asInt_of_small (by omega) (by omega)]
      exact pushChar_holds (grown_holds holds (by omega) (by omega)) (by dsimp only; omega)
    · omega
  · intro b inside
    rw [strcatChar_granted succeeds] at inside
    have before := (pushChar_recorded inside).1
    split at before
    · exact before
    · exact before
  · intro b text holds inside _
    have len := holds.len
    have room := holds.room
    have int := holds.int
    have next : asInt (b.len + 1) = b.len + 1 := asInt_of_small (by omega) (by omega)
    refine ⟨?_, trivial⟩
    by_contra past
    rcases @capacity_cases b.len b.tmplen 1 with ⟨fits, same⟩ | ⟨full, _, grown⟩ | ⟨_, large, _⟩
    · omega
    · have wraps : asInt (b.tmplen + 256) = b.tmplen + 256 - 2 ^ 32 :=
        asInt_over (by omega) (by omega)
      rw [strcatChar_granted succeeds, next, if_pos (by omega), wraps] at inside
      have within := (pushChar_recorded inside).2
      dsimp only at within
      omega
    · omega

theorem strcatStr_appends (s : CString) :
    Appends (fun b => strcatStr realloc b s) s [s.length] := by
  constructor
  · simp
  · intro b text holds roomy
    have len := holds.len
    have room := holds.room
    have int := holds.int
    have block := roomy.1
    have cases := @capacity_cases b.len b.tmplen s.length
    have s2len : asInt s.length = s.length := asInt_of_small (by omega) (by omega)
    have next : asInt (b.len + s.length) = b.len + s.length :=
      asInt_of_small (by omega) (by omega)
    rw [strcatStr_granted succeeds, s2len, next]
    simp only [lastCapacity]
    rcases cases with ⟨fits, same⟩ | ⟨full, short, grown⟩ | ⟨full, long, grown⟩
    · rw [if_neg (by omega), same]
      exact copyStr_holds holds (by omega)
    · rw [if_pos (by omega), if_pos (by omega), grown, asInt_of_small (by omega) (by omega)]
      exact copyStr_holds (grown_holds holds (by omega) (by omega)) (by dsimp only; omega)
    · rw [if_pos (by omega), if_neg (by omega), grown, asInt_of_small (by omega) (by omega)]
      exact copyStr_holds (grown_holds holds (by omega) (by omega)) (by dsimp only; omega)
  · intro b inside
    rw [strcatStr_granted succeeds] at inside
    have before := (copyStr_recorded inside).1
    split at before
    · exact before
    · exact before
  · intro b text holds inside small
    have len := holds.len
    have room := holds.room
    have int := holds.int
    have short := small s.length List.mem_cons_self
    have s2len : asInt s.length = s.length := asInt_of_small (by omega) (by omega)
    have size := @copy_size s.length (by omega) (by omega)
    refine ⟨?_, trivial⟩
    by_contra past
    have cases := @capacity_cases b.len b.tmplen s.length
    rw [strcatStr_granted succeeds, s2len] at inside
    by_cases wrapped : b.len + s.length < 2 ^ 31
    · -- the new size of the block is negative
      rw [asInt_of_small (by omega) wrapped, if_pos (by omega)] at inside
      have within := (copyStr_recorded inside).2
      dsimp only at within
      split at within
      · rw [@asInt_over (b.tmplen + 256) (by omega) (by omega)] at within
        omega
      · rw [@asInt_over (b.tmplen + s.length + 1) (by omega) (by omega)] at within
        omega
    · -- the sum is negative, and the block does not grow
      rw [asInt_over (by omega) (by omega), if_neg (by omega)] at inside
      have within := (copyStr_recorded inside).2
      omega

theorem chars_appends (s : CString) :
    Appends (fun b => s.foldl (strcatChar realloc) b) s (List.replicate s.length 1) := by
  induction s with
  | nil => exact appends_id
  | cons c s ih => exact appends_comp (strcatChar_appends succeeds c) ih

end calls

section integers

theorem byteChar_digit (n : Nat) : byteChar (48 + (n % 10 : Nat)) = (n % 10).digitChar := by
  have all : ∀ d < 10, byteChar (48 + (d : Nat)) = d.digitChar := by decide +kernel
  exact all (n % 10) (Nat.mod_lt n (by decide))

/-- Digits are written from the last one on, until there are none left. -/
theorem intDigits_utoa (room n : Nat) (positive : 0 < n) (small : n < 10 ^ room)
    (buf : List Char) : intDigits room n buf = utoa n ++ buf := by
  induction room generalizing n buf with
  | zero =>
    rw [Nat.pow_zero] at small
    omega
  | succ room ih =>
    have digit : byteChar (48 + (n : Int).tmod 10) = (n % 10).digitChar := by
      rw [← byteChar_digit n, Int.tmod_eq_emod_of_nonneg (by omega)]
      rfl
    have quotient : (n : Int).tdiv 10 = (n / 10 : Nat) := by
      rw [Int.tdiv_eq_ediv_of_nonneg (by omega)]
      rfl
    rw [intDigits, if_neg (by omega), digit, quotient]
    by_cases large : 10 ≤ n
    · rw [Nat.pow_succ] at small
      rw [ih (n / 10) (by omega) (by omega), utoa_step n large, List.append_assoc]
      rfl
    · have none : n / 10 = 0 := by omega
      have whole : n % 10 = n := by omega
      rw [none, whole, utoa_small n (by omega)]
      cases room with
      | zero => rfl
      | succ room => rfl

variable {realloc : Int → Bool} (succeeds : ∀ size, realloc size = true)

include succeeds

theorem strcatInt_appends {i : Int} (low : -2 ^ 31 < i) (high : i < 2 ^ 31) :
    Appends (fun b => strcatInt realloc b i) (decimal i)
      (List.replicate (decimal i).length 1) := by
  by_cases negative : i < 0
  · have turned : asInt (-i) = (i.natAbs : Nat) := by
      rw [asInt_of_small (by omega) (by omega)]
      omega
    have digits : intDigits 16 (i.natAbs : Nat) [] = utoa i.natAbs := by
      rw [intDigits_utoa 16 i.natAbs (by omega) (by omega), List.append_nil]
    have same : (fun b => strcatInt realloc b i) =
        fun b => (decimal i).foldl (strcatChar realloc) b := by
      funext b
      rw [strcatInt, if_pos negative, turned, digits, decimal, if_pos negative]
      rfl
    rw [same]
    exact chars_appends succeeds (decimal i)
  · have same : (fun b => strcatInt realloc b i) =
        fun b => (decimal i).foldl (strcatChar realloc) b := by
      funext b
      rw [strcatInt, if_neg negative, decimal, if_neg negative]
      by_cases zero : i = 0
      · rw [if_pos zero, zero]
        rfl
      · have positive : i = (i.natAbs : Nat) := by omega
        have digits : intDigits 16 i [] = utoa i.natAbs := by
          conv_lhs => rw [positive]
          rw [intDigits_utoa 16 i.natAbs (by omega) (by omega), List.append_nil]
        rw [if_neg zero, digits]
    rw [same]
    exact chars_appends succeeds (decimal i)

/-- The integers are of type `int`, and can be negated. -/
def Call.Negatable : Call → Prop
  | .int i => -2 ^ 31 < i ∧ i < 2 ^ 31
  | _ => True

theorem call_appends (call : Call) (negatable : call.Negatable) :
    Appends (fun b => call.run realloc b) call.text call.sizes := by
  cases call with
  | str s2 => exact strcatStr_appends succeeds s2
  | char c => exact strcatChar_appends succeeds c
  | int i => exact strcatInt_appends succeeds negatable.1 negatable.2

theorem calls_appends (calls : List Call) (negatable : ∀ call ∈ calls, call.Negatable) :
    Appends (fun b => calls.foldl (Call.run realloc) b) (textOf calls) (sizesOf calls) := by
  induction calls with
  | nil => exact appends_id
  | cons call calls ih =>
    have first := call_appends succeeds call (negatable call List.mem_cons_self)
    have others := ih fun other member => negatable other (List.mem_cons_of_mem call member)
    exact appends_comp first others

end integers

/-- A string that has just been allocated. -/
def emptyBuf (tmplen : Nat) : StrBuf :=
  { cells := fun _ => '\x00', len := 0, tmplen := tmplen, writes := [] }

theorem emptyBuf_holds {tmplen : Nat} (positive : 0 < tmplen) (int : (tmplen : Int) < 2 ^ 31) :
    Holds (emptyBuf tmplen) [] where
  len := rfl
  room := by
    show (0 : Int) < tmplen
    omega
  int := int
  cells := fun j h => absurd h (Nat.not_lt_zero j)
  inside := fun w member => absurd member List.not_mem_nil

end UpnpDescGen
