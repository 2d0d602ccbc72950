import Mathlib.Data.List.Forall2
import Mathlib.Data.Multiset.MapFold

/-!
Tables searched from the front: the first entry that passes a test is found with its
index, and can then be removed or replaced. What is left is described as a multiset of
keys, since the order of the other entries never changes.
-/
namespace FirstMatch
variable {α β : Type*} {p : α → Bool} {e : α} {i : Nat} {l : List α}

def findFirst (p : α → Bool) : List α → Option (Nat × α)
  | [] => none
  | a :: l => if p a then some (0, a) else (findFirst p l).map fun (i, b) => (i + 1, b)

def updateFirst (p : α → Bool) (f : α → α) : List α → List α
  | [] => []
  | a :: l => if p a then f a :: l else a :: updateFirst p f l

theorem findFirst_entry (p : α → Bool) (l : List α) :
    (findFirst p l).map Prod.snd = l.find? p := by
  induction l with
  | nil => rfl
  | cons a l ih =>
    by_cases hit : p a
    · simp [findFirst, hit]
    · simp only [findFirst, hit, Bool.false_eq_true, ↓reduceIte, Option.map_map, List.find?_cons]
      exact ih

theorem find?_of_findFirst (found : findFirst p l = some (i, e)) : l.find? p = some e := by
  rw [← findFirst_entry, found]
  rfl

theorem find?_of_findFirst_none (missing : findFirst p l = none) : l.find? p = none := by
  rw [← findFirst_entry, missing]
  rfl

theorem findFirst_isSome_iff (p : α → Bool) (l : List α) :
    (findFirst p l).isSome = (l.find? p).isSome := by
  rw [← findFirst_entry, Option.isSome_map]

theorem eraseIdx_of_findFirst (found : findFirst p l = some (i, e)) :
    l.eraseIdx i = l.eraseP p := by
  induction l generalizing i with
  | nil => simp [findFirst] at found
  | cons a l ih =>
    by_cases hit : p a
    · simp only [findFirst, hit, ↓reduceIte, Option.some.injEq, Prod.mk.injEq] at found
      rw [← found.1]
      simp [hit]
    · simp only [findFirst, hit, Bool.false_eq_true, ↓reduceIte, Option.map_eq_some_iff,
        Prod.exists, Prod.mk.injEq] at found
      obtain ⟨j, b, inner, index, same⟩ := found
      subst index same
      simp [hit, ih inner]

theorem set_of_findFirst (found : findFirst p l = some (i, e)) (f : α → α) :
    l.set i (f e) = updateFirst p f l := by
  induction l generalizing i with
  | nil => simp [findFirst] at found
  | cons a l ih =>
    by_cases hit : p a
    · simp only [findFirst, hit, ↓reduceIte, Option.some.injEq, Prod.mk.injEq] at found
      rw [← found.1, ← found.2]
      simp [updateFirst, hit]
    · simp only [findFirst, hit, Bool.false_eq_true, ↓reduceIte, Option.map_eq_some_iff,
        Prod.exists, Prod.mk.injEq] at found
      obtain ⟨j, b, inner, index, same⟩ := found
      subst index same
      simp [updateFirst, hit, ih inner]

theorem eraseP_of_find?_none (missing : l.find? p = none) : l.eraseP p = l := by
  apply List.eraseP_of_forall_not
  intro a member
  exact List.find?_eq_none.mp missing a member

theorem updateFirst_of_find?_none (missing : l.find? p = none) (f : α → α) :
    updateFirst p f l = l := by
  induction l with
  | nil => rfl
  | cons a l ih =>
    simp only [List.find?_eq_none, List.mem_cons, forall_eq_or_imp] at missing
    have rest := ih (List.find?_eq_none.mpr missing.2)
    simp [updateFirst, missing.1, rest]

/-- The entry that is found is known, so the update need not look at it. -/
theorem updateFirst_found {f : α → α} {a b : α} (found : l.find? p = some a)
    (same : f a = b) :
    updateFirst p f l = updateFirst p (fun _ => b) l := by
  induction l with
  | nil => rfl
  | cons c l ih =>
    by_cases hit : p c = true
    · rw [List.find?_cons_of_pos hit] at found
      cases found
      rw [updateFirst, updateFirst, if_pos hit, if_pos hit, same]
    · rw [List.find?_cons_of_neg hit] at found
      rw [updateFirst, updateFirst, if_neg hit, if_neg hit, ih found]

theorem find?_eraseP_other {q : α → Bool} (other : ∀ a, q a = true → p a = false) :
    (l.eraseP p).find? q = l.find? q := by
  induction l with
  | nil => rfl
  | cons a l ih =>
    by_cases hit : p a
    · have miss : q a = false := by
        by_contra hitQ
        simp [other a (by simpa using hitQ)] at hit
      simp [hit, miss]
    · by_cases hitQ : q a
      · simp [hit, hitQ]
      · simp [hit, hitQ, ih]

theorem countP_eraseP (found : l.find? p = some e) :
    l.countP p = (l.eraseP p).countP p + 1 := by
  induction l with
  | nil => simp at found
  | cons a l ih =>
    by_cases hit : p a
    · simp [hit]
    · simp only [List.find?_cons, hit] at found
      simp [hit, ih found]

theorem countP_eraseP_other {q : α → Bool} (other : ∀ a, q a = true → p a = false) :
    (l.eraseP p).countP q = l.countP q := by
  induction l with
  | nil => rfl
  | cons a l ih =>
    by_cases hit : p a
    · have miss : q a = false := by
        by_contra hitQ
        simp [other a (by simpa using hitQ)] at hit
      simp [hit, miss]
    · simp [hit, List.countP_cons, ih]

/-- Removing the first match takes its key, and only that, out of the multiset. -/
theorem map_eq_cons_eraseP (key : α → β) (found : l.find? p = some e) :
    (l : Multiset α).map key = key e ::ₘ (l.eraseP p : Multiset α).map key := by
  induction l with
  | nil => simp at found
  | cons a l ih =>
    by_cases hit : p a
    · simp only [List.find?_cons, hit, Option.some.injEq] at found
      subst found
      simp [hit]
    · simp only [List.find?_cons, hit] at found
      rw [List.eraseP_cons_of_neg (by simpa using hit), ← Multiset.cons_coe, ← Multiset.cons_coe,
        Multiset.map_cons, Multiset.map_cons, ih found, Multiset.cons_swap]

theorem eraseP_congr {q : α → Bool} (same : ∀ a ∈ l, p a = q a) : l.eraseP p = l.eraseP q := by
  induction l with
  | nil => rfl
  | cons a l ih =>
    simp only [List.mem_cons, forall_eq_or_imp] at same
    rw [List.eraseP_cons, List.eraseP_cons, same.1, ih same.2]

theorem eraseP_key_filter {κ : Type*} [DecidableEq κ] {key : α → κ}
    (distinct : (l.map key).Nodup) (k : κ) :
    (l.eraseP fun a => key a = k) = l.filter fun a => key a ≠ k := by
  induction l with
  | nil => rfl
  | cons a l ih =>
    rw [List.map_cons, List.nodup_cons] at distinct
    by_cases same : key a = k
    · have others : ∀ b ∈ l, decide (key b ≠ k) = true := by
        intro b member
        refine decide_eq_true ?_
        intro again
        exact distinct.1 (List.mem_map.mpr ⟨b, member, again.trans same.symm⟩)
      rw [List.eraseP_cons_of_pos (by simp [same]), List.filter_cons_of_neg (by simp [same]),
        List.filter_eq_self.mpr others]
    · rw [List.eraseP_cons_of_neg (by simp [same]), List.filter_cons_of_pos (by simp [same]),
        ih distinct.2]

/-- Where keys are distinct, the first match can be removed by its key. -/
theorem eraseP_key {κ : Type*} [DecidableEq κ] {key : α → κ} (distinct : (l.map key).Nodup)
    (found : l.find? p = some e) : (l.eraseP fun a => key a = key e) = l.eraseP p := by
  induction l with
  | nil => rfl
  | cons a l ih =>
    rw [List.map_cons, List.nodup_cons] at distinct
    by_cases hit : p a
    · simp only [List.find?_cons, hit, Option.some.injEq] at found
      subst found
      simp [hit]
    · simp only [List.find?_cons, hit] at found
      have later : key e ∈ l.map key := List.mem_map_of_mem (List.mem_of_find?_eq_some found)
      have other : key a ≠ key e := by
        intro same
        exact distinct.1 (same ▸ later)
      simp [hit, other, ih distinct.2 found]

/-- An entry that changes under its key may as well be taken out and put in at the end. -/
theorem map_key_perm {κ : Type*} [DecidableEq κ] {key : α → κ} (distinct : (l.map key).Nodup)
    (member : e ∈ l) (f : α → α) :
    (l.map fun a => if key a = key e then f a else a).Perm
      ((l.filter fun a => key a ≠ key e) ++ [f e]) := by
  obtain ⟨u, w, rfl⟩ := List.append_of_mem member
  rw [List.map_append, List.map_cons, List.nodup_middle, List.nodup_cons] at distinct
  have others : ∀ a ∈ u ++ w, key a ≠ key e := by
    intro a inside same
    apply distinct.1
    rw [← List.map_append, ← same]
    exact List.mem_map_of_mem inside
  have kept : ∀ part : List α, (∀ a ∈ part, key a ≠ key e) →
      (part.map fun a => if key a = key e then f a else a) = part ∧
        (part.filter fun a => key a ≠ key e) = part := by
    intro part other
    constructor
    · have same : ∀ a ∈ part, (if key a = key e then f a else a) = id a := by
        intro a inside
        exact if_neg (other a inside)
      rw [List.map_congr_left same, List.map_id]
    · apply List.filter_eq_self.mpr
      intro a inside
      simpa using other a inside
  obtain ⟨mapU, filterU⟩ := kept u fun a inside => others a (List.mem_append_left _ inside)
  obtain ⟨mapW, filterW⟩ := kept w fun a inside => others a (List.mem_append_right _ inside)
  rw [List.map_append, List.map_cons, mapU, mapW, if_pos rfl, List.filter_append,
    List.filter_cons_of_neg (by simp), filterU, filterW, List.append_assoc]
  exact (List.perm_append_singleton (f e) w).symm.append_left u
theorem map_updateFirst (key : α → β) (f : α → α) (found : l.find? p = some e) :
    key e ::ₘ (updateFirst p f l : Multiset α).map key =
      key (f e) ::ₘ (l : Multiset α).map key := by
  induction l with
  | nil => simp at found
  | cons a l ih =>
    by_cases hit : p a
    · simp only [List.find?_cons, hit, Option.some.injEq] at found
      subst found
      simp only [updateFirst, hit, ↓reduceIte, ← Multiset.cons_coe, Multiset.map_cons]
      exact Multiset.cons_swap _ _ _
    · simp only [List.find?_cons, hit] at found
      simp only [updateFirst, hit, Bool.false_eq_true, ↓reduceIte, ← Multiset.cons_coe,
        Multiset.map_cons]
      rw [Multiset.cons_swap, ih found, Multiset.cons_swap]

theorem map_updateFirst_same (key : α → β) (f : α → α) (found : l.find? p = some e)
    (same : key (f e) = key e) :
    (updateFirst p f l : Multiset α).map key = (l : Multiset α).map key := by
  have swapped := map_updateFirst key f found
  rw [same] at swapped
  exact (Multiset.cons_inj_right (key e)).mp swapped

theorem find?_updateFirst (f : α → α) (kept : ∀ a, p (f a) = p a) :
    (updateFirst p f l).find? p = (l.find? p).map f := by
  induction l with
  | nil => rfl
  | cons a l ih =>
    by_cases hit : p a
    · simp [updateFirst, hit, kept]
    · simp [updateFirst, hit, ih]

theorem find?_updateFirst_other {q : α → Bool} (f : α → α) (other : ∀ a, q a = true → p a = false)
    (kept : ∀ a, q (f a) = q a) : (updateFirst p f l).find? q = l.find? q := by
  induction l with
  | nil => rfl
  | cons a l ih =>
    by_cases hit : p a
    · have miss : q a = false := by
        by_contra hitQ
        simp [other a (by simpa using hitQ)] at hit
      simp [updateFirst, hit, kept, miss]
    · by_cases hitQ : q a
      · simp [updateFirst, hit, hitQ]
      · simp [updateFirst, hit, hitQ, ih]

@[simp] theorem length_updateFirst (p : α → Bool) (f : α → α) (l : List α) :
    (updateFirst p f l).length = l.length := by
  induction l with
  | nil => rfl
  | cons a l ih =>
    simp only [updateFirst]
    split
    · rfl
    · simp [ih]

theorem mem_updateFirst {a : α} {f : α → α} (member : a ∈ updateFirst p f l) :
    a ∈ l ∨ ∃ b ∈ l, p b = true ∧ a = f b := by
  induction l with
  | nil => simp [updateFirst] at member
  | cons b l ih =>
    by_cases hit : p b
    · simp only [updateFirst, hit, ↓reduceIte, List.mem_cons] at member
      rcases member with here | later
      · exact Or.inr ⟨b, List.mem_cons_self, hit, here⟩
      · exact Or.inl (List.mem_cons_of_mem b later)
    · simp only [updateFirst, hit, Bool.false_eq_true, ↓reduceIte, List.mem_cons] at member
      rcases member with here | later
      · exact Or.inl (by simp [here])
      · rcases ih later with old | ⟨c, inside, hitC, same⟩
        · exact Or.inl (List.mem_cons_of_mem b old)
        · exact Or.inr ⟨c, List.mem_cons_of_mem b inside, hitC, same⟩

/-- What the first entry gives that passes a test and gives something. -/
theorem map_findSome?_filter {γ : Type*} (l : List α) (p : α → Bool) (f : α → Option β) (g : β → γ)
    (z : γ) :
    ((l.filter p).findSome? f).map g =
      (l.find? fun a => p a && (f a).isSome).map fun a => ((f a).map g).getD z := by
  induction l with
  | nil => rfl
  | cons a l ih =>
    by_cases hit : p a
    · cases given : f a with
      | none => simp [hit, given, ih]
      | some b => simp [hit, given]
    · simp [hit, ih]

/-- Taking out or replacing the first match does not show among the entries that pass
    another test, when it does not pass that test. -/
theorem filter_eraseP {q : α → Bool} (found : l.find? p = some e) (hidden : q e = false) :
    (l.eraseP p).filter q = l.filter q := by
  induction l with
  | nil => rfl
  | cons a l ih =>
    by_cases hit : p a
    · simp only [List.find?_cons, hit, Option.some.injEq] at found
      subst found
      simp [hit, hidden]
    · simp only [List.find?_cons, hit] at found
      simp [hit, List.filter_cons, ih found]

/-- To erase the first element that matches an asked one is to drop all that are asked, exactly if
    nothing before it matches and nothing behind it is asked. -/
theorem eraseP_eq_filter_iff {key asked : α → Bool} {front back : List α} {a : α}
    (own : asked a = true) (hit : key a = true) (before : ∀ b ∈ front, asked b = false) :
    (front ++ a :: back).eraseP key = (front ++ a :: back).filter (fun b => !asked b) ↔
      (∀ b ∈ front, key b = false) ∧ ∀ b ∈ back, asked b = false := by
  have kept : front.filter (fun b => !asked b) = front := by
    apply List.filter_eq_self.mpr
    intro b inside
    simp [before b inside]
  have dropped : (front ++ a :: back).filter (fun b => !asked b) =
      front ++ back.filter (fun b => !asked b) := by
    rw [List.filter_append, kept, List.filter_cons_of_neg (by simp [own])]
  rw [dropped]
  constructor
  · intro same
    have apart : ∀ b ∈ front, key b = false := by
      by_contra matched
      push Not at matched
      obtain ⟨b, inside, early⟩ := matched
      rw [List.eraseP_append_left (Bool.eq_true_of_not_eq_false early) _ inside] at same
      have still : a ∈ front ++ back.filter (fun b => !asked b) := by
        rw [← same]
        simp
      rcases List.mem_append.mp still with earlier | later
      · rw [before a earlier] at own
        cases own
      · simp [own] at later
    refine ⟨apart, ?_⟩
    rw [List.eraseP_append_right _ (by simpa using apart), List.eraseP_cons_of_pos hit] at same
    have rest := List.append_cancel_left same
    intro b inside
    rw [rest] at inside
    simpa using (List.mem_filter.mp inside).2
  · intro both
    obtain ⟨apart, rest⟩ := both
    have all : back.filter (fun b => !asked b) = back := by
      apply List.filter_eq_self.mpr
      intro b inside
      simp [rest b inside]
    rw [List.eraseP_append_right _ (by simpa using apart), List.eraseP_cons_of_pos hit, all]

theorem filter_updateFirst {q : α → Bool} (f : α → α) (found : l.find? p = some e)
    (hidden : q e = false) (still : q (f e) = false) :
    (updateFirst p f l).filter q = l.filter q := by
  induction l with
  | nil => rfl
  | cons a l ih =>
    by_cases hit : p a
    · simp only [List.find?_cons, hit, Option.some.injEq] at found
      subst found
      simp [updateFirst, hit, hidden, still]
    · simp only [List.find?_cons, hit] at found
      simp [updateFirst, hit, List.filter_cons, ih found]

/-- When the first match does pass the other test, one entry fewer is left that does. -/
theorem length_filter_eraseP {q : α → Bool} (found : l.find? p = some e) (shown : q e = true) :
    (l.filter q).length = ((l.eraseP p).filter q).length + 1 := by
  induction l with
  | nil => simp at found
  | cons a l ih =>
    by_cases hit : p a
    · simp only [List.find?_cons, hit, Option.some.injEq] at found
      subst found
      simp [hit, shown]
    · simp only [List.find?_cons, hit] at found
      have rest := ih found
      by_cases passes : q a = true
      · simp [hit, passes, rest]
      · simp [hit, passes, rest]

/-- A change of entries that do not pass the test, before or after. -/
theorem filter_map_hidden {q : α → Bool} {f : α → α}
    (same : ∀ a ∈ l, f a = a ∨ q a = false ∧ q (f a) = false) :
    (l.map f).filter q = l.filter q := by
  induction l with
  | nil => rfl
  | cons a l ih =>
    have rest := ih fun b member => same b (List.mem_cons_of_mem a member)
    rcases same a List.mem_cons_self with kept | ⟨before, after⟩
    · simp [List.filter_cons, kept, rest]
    · simp [before, after, rest]

section pairs
variable {R : α → β → Prop} {m : List β} (related : List.Forall₂ R l m)
include related

/-- What an entry of one list stands for in the other. -/
theorem forall₂_exists {a : α} (member : a ∈ l) : ∃ b ∈ m, R a b := by
  induction related with
  | nil => exact absurd member List.not_mem_nil
  | @cons a' b' l m first rest ih =>
    rcases List.mem_cons.mp member with rfl | later
    · exact ⟨b', List.mem_cons_self, first⟩
    · obtain ⟨b, inside, same⟩ := ih later
      exact ⟨b, List.mem_cons_of_mem _ inside, same⟩

theorem forall₂_filter {q : β → Bool} (same : ∀ a, ∀ b ∈ m, R a b → p a = q b) :
    List.Forall₂ R (l.filter p) (m.filter q) := by
  induction related with
  | nil => exact .nil
  | @cons a b l m first rest ih =>
    have here := same a b List.mem_cons_self first
    have later := ih fun a' b' member => same a' b' (List.mem_cons_of_mem _ member)
    rw [List.filter_cons, List.filter_cons, here]
    split
    · exact .cons first later
    · exact later

end pairs

section lookups
variable {κ : Type*} [DecidableEq κ] (key : α → κ) (value : α → β)

/-- The value of the first element with a key. -/
def valueOf (x : κ) (l : List α) : Option β := (l.find? fun a => key a = x).map value

theorem valueOf_absent {x : κ} {h l : List α} (absent : ∀ a ∈ h, key a ≠ x) :
    valueOf key value x (h ++ l) = valueOf key value x l := by
  have none : h.find? (fun a => key a = x) = none := by
    apply List.find?_eq_none.mpr
    intro a member
    simpa using absent a member
  rw [valueOf, List.find?_append, none]
  rfl

/-- Elements that all have one value are left out of the part behind `h`. -/
theorem valueOf_filter_iff {q : α → Bool} {v : β} {h l : List α}
    (dropped : ∀ a ∈ l, q a = false → value a = v) :
    (∀ x, valueOf key value x (h ++ l.filter q) = valueOf key value x (h ++ l)) ↔
      ∀ u a w, l = u ++ a :: w → q a = false →
        (∃ c ∈ h ++ u, key c = key a) ∨ valueOf key value (key a) (w.filter q) = some v := by
  constructor
  · intro same u a w whole out
    by_cases shadowed : ∃ c ∈ h ++ u, key c = key a
    · exact .inl shadowed
    · right
      push Not at shadowed
      have lost := same (key a)
      have member : a ∈ l := by simp [whole]
      have full : valueOf key value (key a) (h ++ l) = some v := by
        rw [whole, ← List.append_assoc, valueOf_absent key value shadowed]
        simp [valueOf, dropped a member out]
      have kept : valueOf key value (key a) (h ++ l.filter q) =
          valueOf key value (key a) (w.filter q) := by
        rw [whole, List.filter_append, List.filter_cons_of_neg (by simp [out]), ← List.append_assoc]
        apply valueOf_absent
        intro c inside
        apply shadowed c
        rcases List.mem_append.mp inside with early | late
        · exact List.mem_append_left _ early
        · exact List.mem_append_right _ (List.mem_filter.mp late).1
      rw [← kept, lost, full]
  · intro covered x
    cases found : h.find? (fun a => key a = x) with
    | some c => simp [valueOf, List.find?_append, found]
    | none =>
      have noHead : ∀ a ∈ h, key a ≠ x := by
        intro a member
        simpa using List.find?_eq_none.mp found a member
      rw [valueOf_absent key value noHead, valueOf_absent key value noHead]
      cases first : l.find? (fun a => key a = x) with
      | none =>
        have noTail : (l.filter q).find? (fun a => key a = x) = none := by
          apply List.find?_eq_none.mpr
          intro a member
          exact List.find?_eq_none.mp first a (List.mem_filter.mp member).1
        simp [valueOf, first, noTail]
      | some a =>
        obtain ⟨here, u, w, rfl, before⟩ := List.find?_eq_some_iff_append.mp first
        obtain rfl : key a = x := by simpa using here
        have noEarlier : ∀ c ∈ u, key c ≠ key a := by
          intro c member
          simpa using before c member
        have noKept : ∀ c ∈ u.filter q, key c ≠ key a := fun c member =>
          noEarlier c (List.mem_filter.mp member).1
        rw [List.filter_append, valueOf_absent key value noKept, valueOf_absent key value noEarlier]
        cases out : q a with
        | true =>
          rw [List.filter_cons_of_pos out]
          simp [valueOf]
        | false =>
          rw [List.filter_cons_of_neg (by simp [out])]
          rcases covered u a w rfl out with ⟨c, member, same⟩ | later
          · rcases List.mem_append.mp member with early | late
            · exact absurd same (noHead c early)
            · exact absurd same (noEarlier c late)
          · rw [later]
            simp [valueOf, dropped a (by simp) out]

end lookups

end FirstMatch
