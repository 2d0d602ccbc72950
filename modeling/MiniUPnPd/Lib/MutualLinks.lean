import Mathlib.Data.List.Nodup
import Mathlib.Logic.Function.Basic

/-!
Two lists of objects in memory that point at each other. An address holds no object, or one whose
pointer is null or an address. The links are mutual when every pointer of a listed object goes to a
listed object that points back.
-/
namespace MutualLinks

structure Links (α β : Type) where
  lefts : List α
  rights : List β
  right : α → Option (Option β)
  left : β → Option (Option α)

variable {α β : Type}

structure Mutual (l : Links α β) : Prop where
  lefts : ∀ a ∈ l.lefts, ∃ p, l.right a = some p ∧ ∀ b ∈ p, b ∈ l.rights ∧ l.left b = some (some a)
  rights : ∀ b ∈ l.rights, ∃ p, l.left b = some p ∧ ∀ a ∈ p, a ∈ l.lefts ∧ l.right a = some (some b)
  leftsNodup : l.lefts.Nodup
  rightsNodup : l.rights.Nodup

def Links.empty : Links α β :=
  { lefts := [], rights := [], right := fun _ => none, left := fun _ => none }

namespace Links
variable [DecidableEq α] [DecidableEq β] (l : Links α β)

def addLeft (a : α) : Links α β :=
  { l with lefts := a :: l.lefts, right := Function.update l.right a (some none) }

/-- A new object on the right, with pointers in both directions. -/
def addRight (a : α) (b : β) : Links α β :=
  { l with
    rights := b :: l.rights
    right := Function.update l.right a (some (some b))
    left := Function.update l.left b (some (some a)) }

/-- The pointer to the object is set to null before it is freed. -/
def removeLeft (a : α) (pointed : Option β) : Links α β :=
  { l with
    lefts := l.lefts.erase a
    right := Function.update l.right a none
    left :=
      match pointed with
      | none => l.left
      | some b => Function.update l.left b (some none) }

def removeRight (b : β) (pointed : Option α) : Links α β :=
  { l with
    rights := l.rights.erase b
    left := Function.update l.left b none
    right :=
      match pointed with
      | none => l.right
      | some a => Function.update l.right a (some none) }

end Links

section links
variable {l : Links α β} {a : α} {b : β}

theorem empty_mutual : Mutual (Links.empty : Links α β) where
  lefts _ member := absurd member List.not_mem_nil
  rights _ member := absurd member List.not_mem_nil
  leftsNodup := List.nodup_nil
  rightsNodup := List.nodup_nil

theorem left_unlisted (linked : Mutual l) (free : l.right a = none) : a ∉ l.lefts := by
  intro member
  obtain ⟨p, here, _⟩ := linked.lefts a member
  rw [free] at here
  cases here

theorem right_unlisted (linked : Mutual l) (free : l.left b = none) : b ∉ l.rights := by
  intro member
  obtain ⟨p, here, _⟩ := linked.rights b member
  rw [free] at here
  cases here

/-- The two sides are alike. -/
def Links.swap (l : Links α β) : Links β α :=
  { lefts := l.rights, rights := l.lefts, right := l.left, left := l.right }

theorem swap_mutual (linked : Mutual l) : Mutual l.swap where
  lefts := linked.rights
  rights := linked.lefts
  leftsNodup := linked.rightsNodup
  rightsNodup := linked.leftsNodup

variable [DecidableEq α] [DecidableEq β]

omit [DecidableEq β] in
theorem addLeft_mutual (linked : Mutual l) (free : l.right a = none) : Mutual (l.addLeft a) := by
  have unlisted := left_unlisted linked free
  constructor
  · intro a' member
    by_cases same : a' = a
    · subst same
      refine ⟨none, Function.update_self .., ?_⟩
      intro b none
      cases none
    · have old : a' ∈ l.lefts := by simpa [Links.addLeft, same] using member
      obtain ⟨p, here, points⟩ := linked.lefts a' old
      refine ⟨p, ?_, points⟩
      rw [← here]
      exact Function.update_of_ne same ..
  · intro b member
    obtain ⟨p, here, points⟩ := linked.rights b member
    refine ⟨p, here, ?_⟩
    intro a' pointed
    obtain ⟨old, back⟩ := points a' pointed
    refine ⟨List.mem_cons_of_mem a old, ?_⟩
    rw [← back]
    apply Function.update_of_ne
    rintro rfl
    exact unlisted old
  · exact List.nodup_cons.mpr ⟨unlisted, linked.leftsNodup⟩
  · exact linked.rightsNodup

theorem addRight_mutual (linked : Mutual l) (listed : a ∈ l.lefts) (null : l.right a = some none)
    (free : l.left b = none) : Mutual (l.addRight a b) := by
  have unlisted := right_unlisted linked free
  constructor
  · intro a' member
    by_cases same : a' = a
    · subst same
      refine ⟨some b, Function.update_self .., ?_⟩
      rintro _ ⟨⟩
      exact ⟨List.mem_cons_self, Function.update_self ..⟩
    · obtain ⟨p, here, points⟩ := linked.lefts a' member
      refine ⟨p, ?_, ?_⟩
      · rw [← here]
        exact Function.update_of_ne same ..
      · intro b' pointed
        obtain ⟨old, back⟩ := points b' pointed
        refine ⟨List.mem_cons_of_mem b old, ?_⟩
        rw [← back]
        apply Function.update_of_ne
        rintro rfl
        exact unlisted old
  · intro b' member
    by_cases same : b' = b
    · subst same
      refine ⟨some a, Function.update_self .., ?_⟩
      rintro _ ⟨⟩
      exact ⟨listed, Function.update_self ..⟩
    · have old : b' ∈ l.rights := by simpa [Links.addRight, same] using member
      obtain ⟨p, here, points⟩ := linked.rights b' old
      refine ⟨p, ?_, ?_⟩
      · rw [← here]
        exact Function.update_of_ne same ..
      · intro a' pointed
        obtain ⟨there, back⟩ := points a' pointed
        refine ⟨there, ?_⟩
        rw [← back]
        apply Function.update_of_ne
        rintro rfl
        rw [null] at back
        cases back
  · exact linked.leftsNodup
  · exact List.nodup_cons.mpr ⟨unlisted, linked.rightsNodup⟩

theorem removeLeft_mutual (linked : Mutual l) (listed : a ∈ l.lefts) {pointed : Option β}
    (here : l.right a = some pointed) : Mutual (l.removeLeft a pointed) := by
  have own : ∀ b' ∈ pointed, b' ∈ l.rights ∧ l.left b' = some (some a) := by
    obtain ⟨p, there, points⟩ := linked.lefts a listed
    rw [here] at there
    cases there
    exact points
  have kept : ∀ b', b' ∉ pointed → (l.removeLeft a pointed).left b' = l.left b' := by
    intro b' other
    cases pointed with
    | none => rfl
    | some b =>
      apply Function.update_of_ne
      rintro rfl
      exact other rfl
  constructor
  · intro a' member
    have both := linked.leftsNodup.mem_erase_iff.mp member
    obtain ⟨p, there, points⟩ := linked.lefts a' both.2
    refine ⟨p, ?_, ?_⟩
    · rw [← there]
      exact Function.update_of_ne both.1 ..
    · intro b' pointer
      obtain ⟨inside, back⟩ := points b' pointer
      refine ⟨inside, ?_⟩
      rw [kept, back]
      intro shared
      have other := (own b' shared).2
      rw [back] at other
      cases other
      exact both.1 rfl
  · intro b' member
    by_cases shared : b' ∈ pointed
    · obtain rfl : pointed = some b' := shared
      refine ⟨none, Function.update_self .., ?_⟩
      intro a' none
      cases none
    · obtain ⟨p, there, points⟩ := linked.rights b' member
      refine ⟨p, (kept b' shared).trans there, ?_⟩
      intro a' pointer
      obtain ⟨inside, back⟩ := points a' pointer
      have other : a' ≠ a := by
        rintro rfl
        rw [here] at back
        cases back
        exact shared rfl
      refine ⟨linked.leftsNodup.mem_erase_iff.mpr ⟨other, inside⟩, ?_⟩
      rw [← back]
      exact Function.update_of_ne other ..
  · exact linked.leftsNodup.erase a
  · exact linked.rightsNodup

theorem removeRight_mutual (linked : Mutual l) (listed : b ∈ l.rights) {pointed : Option α}
    (here : l.left b = some pointed) : Mutual (l.removeRight b pointed) :=
  swap_mutual (removeLeft_mutual (swap_mutual linked) listed here)

end links

end MutualLinks
