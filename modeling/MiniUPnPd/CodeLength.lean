import Mathlib.Algebra.Group.Nat.Defs
import Mathlib.Data.List.Basic
import Mathlib.Data.Nat.Bitwise

/-!
The macros for the lengths in the messages of the clients of `minissdpd`: seven bits in a byte, the
highest first, and a bit that tells whether another byte follows. A pointer is the position in the
memory; a read behind its end has no result.
-/
namespace CodeLength

/-- The bytes written from `p` on; a store keeps the low eight bits. -/
def codeLength (n : UInt32) : List UInt8 :=
  (if n ≥ 268435456 then [(n >>> 28 ||| 0x80).toUInt8] else []) ++
  (if n ≥ 2097152 then [(n >>> 21 ||| 0x80).toUInt8] else []) ++
  (if n ≥ 16384 then [(n >>> 14 ||| 0x80).toUInt8] else []) ++
  (if n ≥ 128 then [(n >>> 7 ||| 0x80).toUInt8] else []) ++
  [(n &&& 0x7f).toUInt8]

/-- `(n << 7) | (*p & 0x7f)` -/
def shiftIn (n : UInt32) (c : UInt8) : UInt32 := n <<< 7 ||| (c &&& 0x7f).toUInt32

def goesOn (n : UInt32) (c : UInt8) : Bool := c &&& 0x80 ≠ 0 ∧ n < (1 : UInt32) <<< 25

def decodeLoop (memory : List UInt8) (n : UInt32) (p : Nat) : Option (UInt32 × Nat) :=
  if inside : p < memory.length then
    let c := memory[p]
    let n := shiftIn n c
    if goesOn n c then decodeLoop memory n (p + 1) else some (n, p + 1)
  else none
termination_by memory.length - p

/-- The value and the pointer behind its bytes. -/
def decodeLength (memory : List UInt8) (p : Nat) : Option (UInt32 × Nat) := decodeLoop memory 0 p

def checkLimitLoop (memory : List UInt8) (limit : Nat) (n : UInt32) (p : Nat) :
    Option (UInt32 × Nat) :=
  if p ≥ limit then some (n, p)
  else
    match memory[p]? with
    | none => none
    | some c =>
      let n := shiftIn n c
      if goesOn n c then checkLimitLoop memory limit n (p + 1) else some (n, p + 1)
termination_by limit - p

def decodeLengthCheckLimit (memory : List UInt8) (p limit : Nat) : Option (UInt32 × Nat) :=
  checkLimitLoop memory limit 0 p

/-- The number that the low seven bits of the bytes make behind those of `n`. -/
def valueFrom (n : Nat) (bytes : List UInt8) : Nat :=
  bytes.foldl (fun v c => v * 128 + c.toNat % 128) n

section bytes

theorem shiftIn_toNat {n : UInt32} (small : n.toNat < 2 ^ 25) (c : UInt8) :
    (shiftIn n c).toNat = n.toNat * 128 + c.toNat % 128 := by
  have low : (c &&& 0x7f).toNat = c.toNat % 128 := by
    rw [UInt8.toNat_and]
    exact Nat.and_two_pow_sub_one_eq_mod c.toNat 7
  have high : (n <<< 7).toNat = 2 ^ 7 * n.toNat := by
    rw [UInt32.toNat_shiftLeft, Nat.shiftLeft_eq, Nat.mul_comm]
    exact Nat.mod_eq_of_lt (by simp; omega)
  rw [shiftIn, UInt32.toNat_or, high, UInt8.toNat_toUInt32, low,
    ← Nat.two_pow_add_eq_or_of_lt (by omega)]
  omega

theorem goesOn_iff (n : UInt32) (c : UInt8) :
    goesOn n c = true ↔ 128 ≤ c.toNat ∧ n.toNat < 2 ^ 25 := by
  have bit : c &&& 0x80 ≠ 0 ↔ 128 ≤ c.toNat := by
    have all : ∀ k < 256, k &&& 128 ≠ 0 ↔ 128 ≤ k := by decide +kernel
    rw [← all c.toNat c.toNat_lt, ne_eq, ne_eq, ← UInt8.toNat_inj, UInt8.toNat_and]
    rfl
  have bound : ((1 : UInt32) <<< 25).toNat = 2 ^ 25 := by decide
  rw [goesOn, decide_eq_true_iff, bit, UInt32.lt_iff_toNat_lt, bound]

/-- The store of a group that others follow. -/
theorem continued_toNat (m : UInt32) : (m ||| 0x80).toUInt8.toNat = m.toNat % 128 + 128 := by
  have all : ∀ k < 256, k ||| 128 = k % 128 + 128 := by decide +kernel
  have stored : (m ||| 0x80).toUInt8.toNat = (m.toNat ||| 128) % 2 ^ 8 := by
    rw [UInt32.toNat_toUInt8, UInt32.toNat_or]
    rfl
  rw [stored, Nat.or_mod_two_pow, show 128 % 2 ^ 8 = 128 from rfl, all _ (Nat.mod_lt _ (by decide))]
  omega

theorem last_toNat (n : UInt32) : (n &&& 0x7f).toUInt8.toNat = n.toNat % 128 := by
  rw [UInt32.toNat_toUInt8, UInt32.toNat_and]
  have low : n.toNat &&& (2 ^ 7 - 1) = n.toNat % 2 ^ 7 := Nat.and_two_pow_sub_one_eq_mod n.toNat 7
  have same : (0x7f : UInt32).toNat = 2 ^ 7 - 1 := by decide
  rw [same, low]
  omega

end bytes

section values

theorem valueFrom_append (n : Nat) (first second : List UInt8) :
    valueFrom n (first ++ second) = valueFrom (valueFrom n first) second :=
  List.foldl_append

theorem valueFrom_ge (n : Nat) (bytes : List UInt8) : n ≤ valueFrom n bytes := by
  induction bytes generalizing n with
  | nil => exact Nat.le_refl n
  | cons c bytes ih =>
    have more := ih (n * 128 + c.toNat % 128)
    show n ≤ valueFrom (n * 128 + c.toNat % 128) bytes
    omega

/-- One line of the encoder: a number with a bit from `k` on gets its group there. -/
theorem valueFrom_group (n : UInt32) {shift bound : UInt32} (k : Nat) (small : k < 32)
    (shifts : shift.toNat = k) (bounds : bound.toNat = 2 ^ k) :
    valueFrom (n.toNat / 2 ^ (k + 7))
        (if n ≥ bound then [(n >>> shift ||| 0x80).toUInt8] else []) = n.toNat / 2 ^ k := by
  have split : n.toNat / 2 ^ (k + 7) = n.toNat / 2 ^ k / 128 := by
    rw [Nat.pow_add, Nat.div_div_eq_div_mul]
  by_cases large : n ≥ bound
  · have shifted : (n >>> shift).toNat = n.toNat / 2 ^ k := by
      rw [UInt32.toNat_shiftRight, shifts, Nat.mod_eq_of_lt small, Nat.shiftRight_eq_div_pow]
    have stored := continued_toNat (n >>> shift)
    rw [if_pos large, split]
    show n.toNat / 2 ^ k / 128 * 128 + (n >>> shift ||| 0x80).toUInt8.toNat % 128 = _
    rw [stored, shifted]
    omega
  · have below : n.toNat < 2 ^ k := by
      rw [ge_iff_le, UInt32.le_iff_toNat_le, bounds] at large
      omega
    rw [if_neg large, split, Nat.div_eq_of_lt below]
    rfl

theorem group_continued {n bound m : UInt32} {c : UInt8}
    (member : c ∈ if n ≥ bound then [(m ||| 0x80).toUInt8] else []) : 128 ≤ c.toNat := by
  split at member
  · rw [List.mem_singleton] at member
    rw [member, continued_toNat]
    omega
  · cases member

/-- A number is written as the groups of its value, of which those in front of the last one make
    the number without its low seven bits. -/
theorem codeLength_groups (n : UInt32) :
    ∃ init last, codeLength n = init ++ [last] ∧ (∀ c ∈ init, 128 ≤ c.toNat) ∧
      valueFrom 0 init = n.toNat / 128 ∧ last.toNat = n.toNat % 128 := by
  have bound := n.toNat_lt
  refine ⟨_, _, rfl, ?_, ?_, last_toNat n⟩
  · intro c member
    simp only [List.mem_append] at member
    rcases member with ((first | second) | third) | fourth
    · exact group_continued first
    · exact group_continued second
    · exact group_continued third
    · exact group_continued fourth
  · have start : 0 = n.toNat / 2 ^ (28 + 7) := by omega
    rw [valueFrom_append, valueFrom_append, valueFrom_append, start,
      valueFrom_group n 28 (by decide) (by decide) (by decide),
      valueFrom_group n 21 (by decide) (by decide) (by decide),
      valueFrom_group n 14 (by decide) (by decide) (by decide),
      valueFrom_group n 7 (by decide) (by decide) (by decide)]
    rfl

end values

section reading
variable {memory : List UInt8} {limit p : Nat} {n : UInt32}

theorem decodeLoop_read {c : UInt8} (here : memory[p]? = some c) :
    decodeLoop memory n p =
      if goesOn (shiftIn n c) c then decodeLoop memory (shiftIn n c) (p + 1)
      else some (shiftIn n c, p + 1) := by
  obtain ⟨inside, value⟩ := List.getElem?_eq_some_iff.mp here
  rw [decodeLoop, dif_pos inside, value]

theorem checkLimitLoop_stopped (reached : limit ≤ p) :
    checkLimitLoop memory limit n p = some (n, p) := by
  rw [checkLimitLoop, if_pos reached]

theorem checkLimitLoop_read {c : UInt8} (before : p < limit) (here : memory[p]? = some c) :
    checkLimitLoop memory limit n p =
      if goesOn (shiftIn n c) c then checkLimitLoop memory limit (shiftIn n c) (p + 1)
      else some (shiftIn n c, p + 1) := by
  have open' : ¬ limit ≤ p := by omega
  rw [checkLimitLoop, if_neg open', here]

/-- Groups whose value stays below the bound in front of the last one are read to the end. -/
theorem decodeLoop_groups {init after : List UInt8} {last : UInt8}
    (there : memory.drop p = init ++ last :: after) (more : ∀ c ∈ init, 128 ≤ c.toNat)
    (final : last.toNat < 128) (small : valueFrom n.toNat init < 2 ^ 25) :
    ∃ v, decodeLoop memory n p = some (v, p + (init.length + 1)) ∧
      v.toNat = valueFrom n.toNat (init ++ [last]) := by
  induction init generalizing n p with
  | nil =>
    have here : memory[p]? = some last := by
      rw [← List.head?_drop, there]
      rfl
    have stops : ¬ goesOn (shiftIn n last) last = true := by
      rw [goesOn_iff]
      omega
    rw [decodeLoop_read here, if_neg stops]
    exact ⟨_, rfl, shiftIn_toNat small last⟩
  | cons c init ih =>
    have here : memory[p]? = some c := by
      rw [← List.head?_drop, there]
      rfl
    have behind : memory.drop (p + 1) = init ++ last :: after := by
      rw [← List.tail_drop, there]
      rfl
    have least := valueFrom_ge n.toNat (c :: init)
    have shifted : (shiftIn n c).toNat = n.toNat * 128 + c.toNat % 128 :=
      shiftIn_toNat (by omega) c
    have rest : valueFrom (shiftIn n c).toNat init < 2 ^ 25 := by
      rw [shifted]
      exact small
    have first := more c List.mem_cons_self
    have continues : goesOn (shiftIn n c) c = true := by
      have bounded := valueFrom_ge (shiftIn n c).toNat init
      rw [goesOn_iff]
      omega
    obtain ⟨v, run, value⟩ :=
      ih behind (fun d member => more d (List.mem_cons_of_mem c member)) rest
    refine ⟨v, ?_, ?_⟩
    · rw [decodeLoop_read here, if_pos continues, run, List.length_cons]
      congr 2
      omega
    · rw [value, shifted]
      rfl

/-- A limit at or behind the end of a code makes no difference. -/
theorem checkLimitLoop_of_decode {v : UInt32} {q : Nat}
    (run : decodeLoop memory n p = some (v, q)) (within : q ≤ limit) :
    p < q ∧ checkLimitLoop memory limit n p = some (v, q) := by
  induction left : memory.length - p generalizing n p with
  | zero =>
    rw [decodeLoop, dif_neg (by omega)] at run
    cases run
  | succ left ih =>
    have here : memory[p]? = some memory[p] := List.getElem?_eq_getElem (by omega)
    rw [decodeLoop_read here] at run
    split at run
    · rename_i continues
      obtain ⟨later, same⟩ := ih run (by omega)
      refine ⟨by omega, ?_⟩
      rw [checkLimitLoop_read (by omega) here, if_pos continues, same]
    · rename_i stops
      cases run
      refine ⟨by omega, ?_⟩
      rw [checkLimitLoop_read (by omega) here, if_neg stops]

theorem checkLimitLoop_take :
    checkLimitLoop (memory.take limit) limit n p = checkLimitLoop memory limit n p := by
  induction left : limit - p generalizing n p with
  | zero => rw [checkLimitLoop_stopped (by omega), checkLimitLoop_stopped (by omega)]
  | succ left ih =>
    have same : (memory.take limit)[p]? = memory[p]? := List.getElem?_take_of_lt (by omega)
    cases here : memory[p]? with
    | none =>
      rw [checkLimitLoop, checkLimitLoop, if_neg (by omega), if_neg (by omega), same, here]
    | some c =>
      rw [checkLimitLoop_read (by omega) (same.trans here), checkLimitLoop_read (by omega) here,
        ih (by omega)]

theorem checkLimitLoop_ends (whole : limit ≤ memory.length) :
    ∃ v q, checkLimitLoop memory limit n p = some (v, q) := by
  induction left : limit - p generalizing n p with
  | zero => exact ⟨n, p, checkLimitLoop_stopped (by omega)⟩
  | succ left ih =>
    have here : memory[p]? = some memory[p] := List.getElem?_eq_getElem (by omega)
    rw [checkLimitLoop_read (by omega) here]
    split
    · exact ih (by omega)
    · exact ⟨_, _, rfl⟩

/-- The result is the value of the bytes that are read: no bit is shifted out. -/
theorem checkLimitLoop_value {v : UInt32} {q : Nat} (small : n.toNat < 2 ^ 25)
    (run : checkLimitLoop memory limit n p = some (v, q)) :
    p ≤ q ∧ q ≤ max p limit ∧ v.toNat = valueFrom n.toNat ((memory.drop p).take (q - p)) := by
  induction left : limit - p generalizing n p with
  | zero =>
    rw [checkLimitLoop_stopped (by omega), Option.some.injEq, Prod.mk.injEq] at run
    obtain ⟨value, place⟩ := run
    rw [← value, ← place, Nat.sub_self]
    exact ⟨Nat.le_refl p, Nat.le_max_left p limit, rfl⟩
  | succ left ih =>
    cases here : memory[p]? with
    | none =>
      rw [checkLimitLoop, if_neg (by omega), here] at run
      cases run
    | some c =>
      obtain ⟨inside, read⟩ := List.getElem?_eq_some_iff.mp here
      have first : memory.drop p = c :: memory.drop (p + 1) := by
        rw [← read]
        exact List.drop_eq_getElem_cons inside
      have shifted := shiftIn_toNat small c
      rw [checkLimitLoop_read (by omega) here] at run
      split at run
      · rename_i continues
        have below := ((goesOn_iff _ _).mp continues).2
        obtain ⟨later, bounded, value⟩ := ih below run (by omega)
        refine ⟨by omega, by omega, ?_⟩
        have count : q - p = (q - (p + 1)) + 1 := by omega
        rw [value, shifted, first, count, List.take_succ_cons]
        rfl
      · cases run
        refine ⟨by omega, by omega, ?_⟩
        have count : p + 1 - p = 1 := by omega
        rw [shifted, first, count]
        rfl

end reading

theorem decodeLength_codeLength (n : UInt32) (before after : List UInt8) :
    decodeLength (before ++ codeLength n ++ after) before.length =
      some (n, before.length + (codeLength n).length) := by
  obtain ⟨init, last, code, more, high, low⟩ := codeLength_groups n
  have bound := n.toNat_lt
  have there : (before ++ codeLength n ++ after).drop before.length = init ++ last :: after := by
    rw [List.append_assoc, List.drop_left, code, List.append_assoc]
    rfl
  have small : valueFrom (0 : UInt32).toNat init < 2 ^ 25 := by
    show valueFrom 0 init < 2 ^ 25
    omega
  obtain ⟨v, run, value⟩ := decodeLoop_groups there more (by omega) small
  have whole : v = n := by
    apply UInt32.toNat_inj.mp
    have split : v.toNat = valueFrom 0 init * 128 + last.toNat % 128 := by
      rw [value, valueFrom_append]
      rfl
    omega
  rw [decodeLength, run, whole, code, List.length_append, List.length_singleton]

/-- Both decoders give back what the encoder has written and stop behind it, and the one with a
    limit reads what stands in front of the limit only, and makes a number of it that has room. -/
theorem code_length_exact :
    (∀ (n : UInt32) (before after : List UInt8),
      decodeLength (before ++ codeLength n ++ after) before.length =
          some (n, before.length + (codeLength n).length) ∧
        ∀ limit, before.length + (codeLength n).length ≤ limit →
          decodeLengthCheckLimit (before ++ codeLength n ++ after) before.length limit =
            some (n, before.length + (codeLength n).length)) ∧
    (∀ (memory : List UInt8) (p limit : Nat),
      decodeLengthCheckLimit (memory.take limit) p limit = decodeLengthCheckLimit memory p limit ∧
        (limit ≤ memory.length → ∃ n q, decodeLengthCheckLimit memory p limit = some (n, q)) ∧
        ∀ n q, decodeLengthCheckLimit memory p limit = some (n, q) →
          p ≤ q ∧ q ≤ max p limit ∧ n.toNat = valueFrom 0 ((memory.drop p).take (q - p))) := by
  constructor
  · intro n before after
    have run := decodeLength_codeLength n before after
    refine ⟨run, ?_⟩
    intro limit within
    exact (checkLimitLoop_of_decode run within).2
  · intro memory p limit
    refine ⟨checkLimitLoop_take, checkLimitLoop_ends, ?_⟩
    intro n q run
    exact checkLimitLoop_value (by decide) run

/-- The longest code, and a limit inside it. -/
theorem code_length_exact_longest :
    decodeLengthCheckLimit [0x8f, 0xff, 0xff, 0xff, 0x7f] 0 5 = some (4294967295, 5) ∧
      ∃ n q, decodeLengthCheckLimit [0x8f, 0xff, 0xff, 0xff, 0x7f] 0 3 = some (n, q) ∧ q ≤ 3 := by
  obtain ⟨read, bounded⟩ := code_length_exact
  have written : codeLength 4294967295 = [0x8f, 0xff, 0xff, 0xff, 0x7f] := by decide
  constructor
  · have whole := (read 4294967295 [] []).2 5 (by decide)
    rw [written] at whole
    exact whole
  · obtain ⟨_, ends, value⟩ := bounded [0x8f, 0xff, 0xff, 0xff, 0x7f] 0 3
    obtain ⟨n, q, run⟩ := ends (by decide)
    exact ⟨n, q, run, (value n q run).2.1⟩

end CodeLength
