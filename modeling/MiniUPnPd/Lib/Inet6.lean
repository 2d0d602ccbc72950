import MiniUPnPd.Lib.Inet

/-!
IPv6 addresses in the text form that `inet_pton` reads: groups of one to four hexadecimal
digits, `::` for one run of zero groups, and the dotted form of an IPv4 address in the place
of the last two groups. An address is its 128-bit value.
-/
namespace Inet
open CText

def hexGroup (p : CString) : Option Nat :=
  if p ≠ [] ∧ p.length ≤ 4 ∧ p.all (fun c => (hexValue c).isSome) then
    some (p.foldl (fun v c => 16 * v + (hexValue c).getD 0) 0)
  else none

/-- The last part may be an IPv4 address, which is two groups. -/
def hexGroups : List CString → Option (List Nat)
  | [] => some []
  | [p] =>
      match hexGroup p with
      | some v => some [v]
      | none => (inetPton p).map fun a => [a.toNat / 2 ^ 16, a.toNat % 2 ^ 16]
  | p :: q :: ps => do
      let v ← hexGroup p
      let vs ← hexGroups (q :: ps)
      some (v :: vs)

/-- The texts before and after the first `::`. -/
def cutZeros : CString → Option (CString × CString)
  | [] => none
  | ':' :: ':' :: t => some ([], t)
  | c :: t => (cutZeros t).map fun (l, r) => (c :: l, r)

def ofGroups (groups : List Nat) : BitVec 128 :=
  BitVec.ofNat 128 (groups.foldl (fun n v => n * 2 ^ 16 + v) 0)

def groupsBefore (l : CString) : Option (List Nat) :=
  if l = [] then some [] else (l.splitOn ':').mapM hexGroup

def groupsAfter (r : CString) : Option (List Nat) :=
  if r = [] then some [] else hexGroups (r.splitOn ':')

def inetPton6 (s : CString) : Option (BitVec 128) :=
  match cutZeros s with
  | none => do
      let groups ← hexGroups (s.splitOn ':')
      if groups.length = 8 then some (ofGroups groups) else none
  | some (l, r) => do
      let first ← groupsBefore l
      let last ← groupsAfter r
      if first.length + last.length ≤ 7 then
        some (ofGroups (first ++ List.replicate (8 - (first.length + last.length)) 0 ++ last))
      else none

/-- The length of the parts, with a separator for each. -/
def partsLength : List CString → Nat
  | [] => 0
  | p :: ps => p.length + 1 + partsLength ps

theorem partsLength_splitOn (c : Char) (s : CString) :
    partsLength (s.splitOn c) = s.length + 1 := by
  have joined : ∀ ps : List CString, ps ≠ [] →
      partsLength ps = ([c].intercalate ps).length + 1 := by
    intro ps nonempty
    induction ps with
    | nil => exact absurd rfl nonempty
    | cons p ps ih =>
      cases ps with
      | nil => simp [partsLength]
      | cons q qs =>
        rw [partsLength, ih (by simp)]
        simp only [List.intercalate_cons_cons, List.length_append, List.length_cons,
          List.length_nil]
        omega
  rw [joined _ (List.splitOn_ne_nil c s), List.intercalate_splitOn]

theorem hexGroup_length {p : CString} {v : Nat} (read : hexGroup p = some v) : p.length ≤ 4 := by
  unfold hexGroup at read
  split at read
  · rename_i valid
    exact valid.2.1
  · simp at read

theorem mapM_hexGroup_length {ps : List CString} {vs : List Nat}
    (read : ps.mapM hexGroup = some vs) :
    partsLength ps ≤ 5 * vs.length := by
  induction ps generalizing vs with
  | nil =>
    simp [partsLength]
  | cons p ps ih =>
    simp only [List.mapM_cons, Option.bind_eq_bind, Option.bind_eq_some_iff] at read
    obtain ⟨v, first, rest, others, same⟩ := read
    obtain rfl := Option.some.inj same
    have short := hexGroup_length first
    have below := ih others
    rw [partsLength, List.length_cons]
    omega

theorem hexGroups_length {ps : List CString} {vs : List Nat} (read : hexGroups ps = some vs) :
    partsLength ps ≤ 5 * vs.length + 6 := by
  induction ps generalizing vs with
  | nil => simp [partsLength]
  | cons p ps ih =>
    cases ps with
    | nil =>
      unfold hexGroups at read
      cases group : hexGroup p with
      | some v =>
        rw [group] at read
        obtain rfl := Option.some.inj read
        have short := hexGroup_length group
        simp only [partsLength, List.length_cons, List.length_nil]
        omega
      | none =>
        simp only [group, Option.map_eq_some_iff] at read
        obtain ⟨a, dotted, rfl⟩ := read
        have short := inetNtoa_length a
        rw [← (inetPton_iff p a).mp dotted] at short
        simp only [partsLength, List.length_cons, List.length_nil]
        omega
    | cons q qs =>
      simp only [hexGroups, Option.bind_eq_bind, Option.bind_eq_some_iff] at read
      obtain ⟨v, first, rest, others, same⟩ := read
      obtain rfl := Option.some.inj same
      have short := hexGroup_length first
      have below := ih others
      rw [partsLength, List.length_cons]
      omega

theorem cutZeros_some {s l r : CString} (cut : cutZeros s = some (l, r)) :
    s = l ++ ':' :: ':' :: r := by
  induction s generalizing l with
  | nil => simp [cutZeros] at cut
  | cons c s ih =>
    unfold cutZeros at cut
    split at cut
    · simp at cut
    · rename_i t same
      obtain ⟨rfl, rfl⟩ := List.cons.inj same
      obtain ⟨rfl, rfl⟩ := Prod.mk.inj (Option.some.inj cut)
      rfl
    · rename_i same
      obtain ⟨rfl, rfl⟩ := List.cons.inj same
      simp only [Option.map_eq_some_iff, Prod.exists, Prod.mk.injEq] at cut
      obtain ⟨l', r', found, rfl, rfl⟩ := cut
      rw [ih found, List.cons_append]

theorem groupsBefore_length {l : CString} {vs : List Nat} (read : groupsBefore l = some vs) :
    l.length ≤ 5 * vs.length := by
  unfold groupsBefore at read
  split at read
  · rename_i empty
    simp [empty]
  · have long := mapM_hexGroup_length read
    rw [partsLength_splitOn] at long
    omega

theorem groupsAfter_length {r : CString} {vs : List Nat} (read : groupsAfter r = some vs) :
    r.length ≤ 5 * vs.length + 5 := by
  unfold groupsAfter at read
  split at read
  · rename_i empty
    simp [empty]
  · have long := hexGroups_length read
    rw [partsLength_splitOn] at long
    omega

/-- The longest form is one of six groups and an IPv4 address. -/
theorem inetPton6_length {s : CString} {a : BitVec 128} (read : inetPton6 s = some a) :
    1 ≤ s.length ∧ s.length ≤ 45 := by
  unfold inetPton6 at read
  cases cut : cutZeros s with
  | none =>
    simp only [cut, Option.bind_eq_bind, Option.bind_eq_some_iff] at read
    obtain ⟨groups, parts, whole⟩ := read
    have long := hexGroups_length parts
    rw [partsLength_splitOn] at long
    split at whole
    · constructor
      · cases s with
        | nil =>
          have refused : hexGroups (([] : CString).splitOn ':') = none := by decide
          exact absurd (refused.symm.trans parts) (by simp)
        | cons c s => simp
      · omega
    · simp at whole
  | some texts =>
    obtain ⟨l, r⟩ := texts
    simp only [cut, Option.bind_eq_bind, Option.bind_eq_some_iff] at read
    obtain ⟨first, before, last, after, whole⟩ := read
    have left := groupsBefore_length before
    have right := groupsAfter_length after
    split at whole
    · rw [cutZeros_some cut]
      simp only [List.length_append, List.length_cons]
      omega
    · simp at whole

example : inetPton6 "2001:db8::1".toList = some (BitVec.ofNat 128 (0x20010db8 * 2 ^ 96 + 1)) := by
  decide

example : inetPton6 "::ffff:192.168.0.2".toList =
    some (BitVec.ofNat 128 (0xffff * 2 ^ 32 + (ofBytes 192 168 0 2).toNat)) := by decide

end Inet
