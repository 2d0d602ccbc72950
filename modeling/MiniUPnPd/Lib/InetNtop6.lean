import MiniUPnPd.Lib.Inet6

/-!
The text that `inet_ntop` writes for an IPv6 address: the first longest run of at least two
zero groups becomes `::`, and an address that starts with six zero groups, or with five and
`ffff`, ends in the dotted form. `inet_pton` reads the address back.
-/
namespace Inet
open CText

def hex (v : Nat) : CString := Nat.toDigits 16 v

/-- The groups in network order. -/
def group (a : BitVec 128) (i : Nat) : Nat := a.toNat / 2 ^ (16 * (7 - i)) % 2 ^ 16

def groupsOf (a : BitVec 128) : List Nat :=
  [group a 0, group a 1, group a 2, group a 3, group a 4, group a 5, group a 6, group a 7]

/-- How many zero groups there are from `i` on. -/
def zerosAt (groups : List Nat) (i : Nat) : Nat := ((groups.drop i).takeWhile (· = 0)).length

def bestStart (groups : List Nat) : Nat :=
  (List.range 8).foldl (fun best i => if zerosAt groups i > zerosAt groups best then i else best) 0

/-- The start and the length of the run that is left out. -/
def zeroRun (groups : List Nat) : Option (Nat × Nat) :=
  let base := bestStart groups
  if zerosAt groups base < 2 then none else some (base, zerosAt groups base)

/-- The last two groups as an IPv4 address. -/
def lowAddr (a : BitVec 128) : InAddr := BitVec.ofNat 32 (a.toNat % 2 ^ 32)

def joined (parts : List CString) : CString := [':'].intercalate parts

/-- The groups after the run. -/
def lastParts (a : BitVec 128) (base len : Nat) : List CString :=
  if base = 0 ∧ len = 6 then [inetNtoa (lowAddr a)]
  else if base = 0 ∧ len = 5 ∧ group a 5 = 0xffff then [hex (group a 5), inetNtoa (lowAddr a)]
  else ((groupsOf a).drop (base + len)).map hex

def inetNtop6 (a : BitVec 128) : CString :=
  match zeroRun (groupsOf a) with
  | none => joined ((groupsOf a).map hex)
  | some (base, len) =>
      joined (((groupsOf a).take base).map hex) ++ ':' :: ':' :: joined (lastParts a base len)

example : inetNtop6 (BitVec.ofNat 128 (0x20010db8 * 2 ^ 96 + 1)) = "2001:db8::1".toList := by
  decide

example : inetNtop6 0 = "::".toList := by decide

example : inetNtop6 (BitVec.ofNat 128 (0xffff * 2 ^ 32 + 0xc0a80002)) = "::ffff:192.168.0.2".toList := by
  decide

example : inetNtop6 (BitVec.ofNat 128 (0x1 * 2 ^ 112 + 5 * 2 ^ 32 + 0xc0a80002)) =
    "1::5:c0a8:2".toList := by
  decide

section hex

theorem hexValue_digitChar {d : Nat} (small : d < 16) : hexValue d.digitChar = some d := by
  have each : ∀ d < 16, hexValue (Nat.digitChar d) = some d := by decide
  exact each d small

theorem hex_step (v : Nat) (large : 16 ≤ v) : hex v = hex (v / 16) ++ [(v % 16).digitChar] :=
  Nat.toDigits_of_base_le (by decide) large

theorem hex_small (v : Nat) (small : v < 16) : hex v = [v.digitChar] :=
  Nat.toDigits_of_lt_base small

theorem hex_digits (v : Nat) : ∀ c ∈ hex v, (hexValue c).isSome := by
  induction v using Nat.strongRecOn with
  | ind v ih =>
    by_cases small : v < 16
    · intro c member
      rw [hex_small v small, List.mem_singleton] at member
      rw [member, hexValue_digitChar small]
      rfl
    · intro c member
      rw [hex_step v (by omega), List.mem_append, List.mem_singleton] at member
      rcases member with before | last
      · exact ih (v / 16) (by omega) c before
      · rw [last, hexValue_digitChar (Nat.mod_lt v (by decide))]
        rfl

theorem hex_value (v : Nat) :
    (hex v).foldl (fun v c => 16 * v + (hexValue c).getD 0) 0 = v := by
  induction v using Nat.strongRecOn with
  | ind v ih =>
    by_cases small : v < 16
    · simp [hex_small v small, hexValue_digitChar small]
    · have last := hexValue_digitChar (Nat.mod_lt v (by decide : 0 < 16))
      rw [hex_step v (by omega), List.foldl_append, ih (v / 16) (by omega)]
      simp only [List.foldl_cons, List.foldl_nil, last, Option.getD_some]
      omega

theorem hexGroup_hex {v : Nat} (small : v < 2 ^ 16) : hexGroup (hex v) = some v := by
  have nonempty : hex v ≠ [] := Nat.toDigits_ne_nil
  have short : (hex v).length ≤ 4 :=
    (Nat.length_toDigits_le_iff (by decide) (by decide)).mpr small
  have digits : (hex v).all (fun c => (hexValue c).isSome) = true := by
    rw [List.all_eq_true]
    exact hex_digits v
  rw [hexGroup, if_pos ⟨nonempty, short, digits⟩, hex_value]

theorem colon_not_mem_hex (v : Nat) : ':' ∉ hex v := by
  intro member
  have digit := hex_digits v ':' member
  revert digit
  decide

end hex

section parts
variable {parts : List CString} {t : CString}

theorem cutZeros_append {p : CString} (free : ':' ∉ p) (t : CString) :
    cutZeros (p ++ t) = (cutZeros t).map fun x => (p ++ x.1, x.2) := by
  induction p with
  | nil => simp
  | cons c p ih =>
    simp only [List.mem_cons, not_or] at free
    have step : cutZeros (c :: (p ++ t)) = (cutZeros (p ++ t)).map fun x => (c :: x.1, x.2) := by
      rw [cutZeros]
      intro rest same
      exact absurd same.symm free.1
    rw [List.cons_append, step, ih free.2, Option.map_map]
    rfl

theorem joined_cons (p q : CString) (ps : List CString) :
    joined (p :: q :: ps) = p ++ ':' :: joined (q :: ps) := by
  simp [joined, List.intercalate_cons_cons]

/-- No part holds a colon and none is empty, so that `::` comes first where it is put. -/
theorem cutZeros_joined (free : ∀ p ∈ parts, ':' ∉ p) (nonempty : ∀ p ∈ parts, p ≠ [])
    (t : CString) :
    cutZeros (joined parts ++ t) = (cutZeros t).map fun x => (joined parts ++ x.1, x.2) := by
  induction parts with
  | nil => simp [joined]
  | cons p parts ih =>
    simp only [List.mem_cons, forall_eq_or_imp] at free nonempty
    cases parts with
    | nil => simpa [joined] using cutZeros_append free.1 t
    | cons q parts =>
      have rest := ih free.2 nonempty.2
      have visible : ∃ c s, joined (q :: parts) ++ t = c :: s ∧ c ≠ ':' := by
        have freeQ := free.2 q List.mem_cons_self
        cases q with
        | nil => exact absurd rfl (nonempty.2 [] List.mem_cons_self)
        | cons c q =>
          simp only [List.mem_cons, not_or] at freeQ
          cases parts with
          | nil => exact ⟨c, q ++ t, by simp [joined], Ne.symm freeQ.1⟩
          | cons r parts =>
            exact ⟨c, q ++ ':' :: joined (r :: parts) ++ t, by simp [joined_cons], Ne.symm freeQ.1⟩
      obtain ⟨c, s, shape, other⟩ := visible
      have step : cutZeros (':' :: (joined (q :: parts) ++ t)) =
          (cutZeros (joined (q :: parts) ++ t)).map fun x => (':' :: x.1, x.2) := by
        rw [shape, cutZeros]
        intro rest _ same
        exact other (List.cons.inj same).1
      rw [joined_cons, List.append_assoc, List.cons_append, cutZeros_append free.1, step, rest]
      simp only [Option.map_map]
      congr 1
      funext x
      simp

theorem splitOn_joined (free : ∀ p ∈ parts, ':' ∉ p) (some : parts ≠ []) :
    (joined parts).splitOn ':' = parts :=
  List.splitOn_intercalate ':' free some

theorem joined_eq_nil (nonempty : ∀ p ∈ parts, p ≠ []) : joined parts = [] ↔ parts = [] := by
  cases parts with
  | nil => simp [joined]
  | cons p parts =>
    have first := nonempty p List.mem_cons_self
    cases parts with
    | nil => simp [joined, first]
    | cons q parts => simp [joined_cons]

end parts

section groups
variable {groups : List Nat}

theorem hexParts_free (groups : List Nat) : ∀ p ∈ groups.map hex, ':' ∉ p := by
  intro p member
  obtain ⟨v, _, rfl⟩ := List.mem_map.mp member
  exact colon_not_mem_hex v

theorem hexParts_nonempty (groups : List Nat) : ∀ p ∈ groups.map hex, p ≠ [] := by
  intro p member
  obtain ⟨v, _, rfl⟩ := List.mem_map.mp member
  exact Nat.toDigits_ne_nil

theorem mapM_hexParts (small : ∀ v ∈ groups, v < 2 ^ 16) :
    (groups.map hex).mapM hexGroup = some groups := by
  induction groups with
  | nil => rfl
  | cons v groups ih =>
    simp only [List.mem_cons, forall_eq_or_imp] at small
    simp [hexGroup_hex small.1, ih small.2]

theorem hexGroups_hexParts (small : ∀ v ∈ groups, v < 2 ^ 16) :
    hexGroups (groups.map hex) = some groups := by
  induction groups with
  | nil => rfl
  | cons v groups ih =>
    simp only [List.mem_cons, forall_eq_or_imp] at small
    have rest := ih small.2
    cases groups with
    | nil => simp [hexGroups, hexGroup_hex small.1]
    | cons w groups =>
      simp only [List.map_cons] at rest ⊢
      simp [hexGroups, hexGroup_hex small.1, rest]

theorem groupsBefore_hexParts (small : ∀ v ∈ groups, v < 2 ^ 16) :
    groupsBefore (joined (groups.map hex)) = some groups := by
  unfold groupsBefore
  split
  · rename_i empty
    rw [joined_eq_nil (hexParts_nonempty groups), List.map_eq_nil_iff] at empty
    rw [empty]
  · rename_i some
    rw [joined_eq_nil (hexParts_nonempty groups)] at some
    rw [splitOn_joined (hexParts_free groups) some, mapM_hexParts small]

theorem group_lt (a : BitVec 128) (i : Nat) : group a i < 2 ^ 16 := Nat.mod_lt _ (by decide)

theorem groupsOf_lt (a : BitVec 128) : ∀ v ∈ groupsOf a, v < 2 ^ 16 := by
  intro v member
  simp only [groupsOf, List.mem_cons, List.not_mem_nil, or_false] at member
  rcases member with rfl | rfl | rfl | rfl | rfl | rfl | rfl | rfl
  all_goals exact group_lt a _

/-- The first groups make the number that is left of the address without the others. -/
theorem foldl_groups (a : BitVec 128) {n : Nat} (few : n ≤ 8) :
    ((List.range n).map (group a)).foldl (fun n v => n * 2 ^ 16 + v) 0 =
      a.toNat / 2 ^ (16 * (8 - n)) := by
  induction n with
  | zero => exact (Nat.div_eq_of_lt a.isLt).symm
  | succ n ih =>
    have before : 16 * (8 - n) = 16 * (7 - n) + 16 := by omega
    have after : 8 - (n + 1) = 7 - n := by omega
    rw [List.range_succ, List.map_append, List.foldl_append, ih (by omega), before, after,
      Nat.pow_add, ← Nat.div_div_eq_div_mul]
    exact Nat.div_add_mod' _ _

theorem ofGroups_groupsOf (a : BitVec 128) : ofGroups (groupsOf a) = a := by
  have listed : groupsOf a = (List.range 8).map (group a) := rfl
  rw [ofGroups, listed, foldl_groups a (Nat.le_refl 8), Nat.sub_self, Nat.pow_zero, Nat.div_one,
    BitVec.ofNat_toNat, BitVec.setWidth_eq]

/-- What the run leaves of the groups. -/
theorem zeroRun_some {base len : Nat} (run : zeroRun groups = some (base, len)) :
    2 ≤ len ∧ groups = groups.take base ++ List.replicate len 0 ++ groups.drop (base + len) := by
  unfold zeroRun at run
  dsimp only at run
  split at run
  · simp at run
  · rename_i long
    obtain ⟨rfl, rfl⟩ := Prod.mk.inj (Option.some.inj run)
    generalize bestStart groups = base at long ⊢
    refine ⟨by omega, ?_⟩
    have zeros : (groups.drop base).take (zerosAt groups base) =
        List.replicate (zerosAt groups base) 0 := by
      have whole := List.prefix_iff_eq_take.mp
        (List.takeWhile_prefix (fun v : Nat => decide (v = 0)) (l := groups.drop base))
      unfold zerosAt
      rw [← whole, List.eq_replicate_iff]
      refine ⟨rfl, ?_⟩
      intro v member
      have zero := List.all_eq_true.mp (List.all_takeWhile (l := groups.drop base)) v member
      simpa using zero
    have after : groups.drop base =
        List.replicate (zerosAt groups base) 0 ++ groups.drop (base + zerosAt groups base) := by
      rw [← zeros, ← List.drop_drop, List.take_append_drop]
    rw [List.append_assoc, ← after, List.take_append_drop]

end groups

section dotted
variable (a : BitVec 128)

theorem dot_mem_inetNtoa (b : InAddr) : '.' ∈ inetNtoa b := by
  simp [inetNtoa]

theorem colon_not_mem_inetNtoa (b : InAddr) : ':' ∉ inetNtoa b := by
  have octet : ∀ n, ':' ∉ utoa n := by
    intro n member
    have digit := utoa_digits n ':' member
    exact absurd digit (by decide)
  simp [inetNtoa, octet]

theorem hexGroup_inetNtoa (b : InAddr) : hexGroup (inetNtoa b) = none := by
  unfold hexGroup
  split
  · rename_i valid
    have digit := List.all_eq_true.mp valid.2.2 '.' (dot_mem_inetNtoa b)
    exact absurd digit (by decide)
  · rfl

theorem hexGroups_dotted :
    hexGroups [inetNtoa (lowAddr a)] = some [group a 6, group a 7] := by
  have read : inetPton (inetNtoa (lowAddr a)) = some (lowAddr a) := (inetPton_iff _ _).mpr rfl
  rw [hexGroups, hexGroup_inetNtoa, read]
  simp only [Option.map_some, lowAddr, BitVec.toNat_ofNat, group, Option.some.injEq,
    List.cons.injEq, and_true]
  omega

theorem groupsAfter_joined {parts : List CString} (free : ∀ p ∈ parts, ':' ∉ p)
    (nonempty : ∀ p ∈ parts, p ≠ []) : groupsAfter (joined parts) = hexGroups parts := by
  unfold groupsAfter
  split
  · rename_i empty
    rw [joined_eq_nil nonempty] at empty
    rw [empty]
    rfl
  · rename_i some
    rw [joined_eq_nil nonempty] at some
    rw [splitOn_joined free some]

theorem inetNtoa_nonempty (b : InAddr) : inetNtoa b ≠ [] := List.ne_nil_of_mem (dot_mem_inetNtoa b)

/-- With the dotted form or without, the groups after the run are read back. -/
theorem groupsAfter_lastParts (base len : Nat) :
    groupsAfter (joined (lastParts a base len)) = some ((groupsOf a).drop (base + len)) := by
  have dotted := hexGroups_dotted a
  have free := colon_not_mem_inetNtoa (lowAddr a)
  have visible := inetNtoa_nonempty (lowAddr a)
  unfold lastParts
  split
  · rename_i six
    rw [groupsAfter_joined (by simp [free]) (by simp [visible]), dotted, six.1, six.2]
    rfl
  · split
    · rename_i five
      have first := colon_not_mem_hex (group a 5)
      have nonempty : hex (group a 5) ≠ [] := Nat.toDigits_ne_nil
      have both : hexGroups [hex (group a 5), inetNtoa (lowAddr a)] =
          some [group a 5, group a 6, group a 7] := by
        rw [hexGroups, hexGroup_hex (group_lt a 5), dotted]
        rfl
      rw [groupsAfter_joined (by simp [first, free]) (by simp [nonempty, visible]), both, five.1,
        five.2.1]
      rfl
    · rw [groupsAfter_joined (hexParts_free _) (hexParts_nonempty _), hexGroups_hexParts]
      intro v member
      exact groupsOf_lt a v (List.mem_of_mem_drop member)

end dotted

theorem inetPton6_inetNtop6 (a : BitVec 128) : inetPton6 (inetNtop6 a) = some a := by
  have whole := ofGroups_groupsOf a
  unfold inetNtop6 inetPton6
  cases run : zeroRun (groupsOf a) with
  | none =>
    have free := hexParts_free (groupsOf a)
    have nonempty := hexParts_nonempty (groupsOf a)
    have uncut : cutZeros (joined ((groupsOf a).map hex)) = none := by
      have cut := cutZeros_joined free nonempty []
      rwa [List.append_nil] at cut
    have parts : (joined ((groupsOf a).map hex)).splitOn ':' = (groupsOf a).map hex :=
      splitOn_joined free (by simp [groupsOf])
    have read := hexGroups_hexParts (groupsOf_lt a)
    simp only [uncut, parts, read]
    simpa [groupsOf] using whole
  | some found =>
    obtain ⟨base, len⟩ := found
    obtain ⟨long, split⟩ := zeroRun_some run
    have small : ∀ v ∈ (groupsOf a).take base, v < 2 ^ 16 := by
      intro v member
      exact groupsOf_lt a v (List.mem_of_mem_take member)
    have cut := cutZeros_joined (hexParts_free ((groupsOf a).take base))
      (hexParts_nonempty _) (':' :: ':' :: joined (lastParts a base len))
    have before := groupsBefore_hexParts small
    have after := groupsAfter_lastParts a base len
    have eight : ((groupsOf a).take base).length + len +
        ((groupsOf a).drop (base + len)).length = 8 := by
      have length := congrArg List.length split
      simp only [List.length_append, List.length_replicate] at length
      exact length.symm
    simp only [cut, cutZeros, Option.map_some, List.append_nil, before, after, Option.bind_eq_bind,
      Option.bind_some]
    have missing : 8 - (((groupsOf a).take base).length +
        ((groupsOf a).drop (base + len)).length) = len := by omega
    rw [if_pos (by omega), missing, ← split, whole]

theorem inetNtop6_injective {a b : BitVec 128} (same : inetNtop6 a = inetNtop6 b) : a = b := by
  have read := inetPton6_inetNtop6 a
  rw [same, inetPton6_inetNtop6] at read
  exact (Option.some.inj read).symm

end Inet
