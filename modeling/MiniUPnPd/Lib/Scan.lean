import Mathlib.Data.List.Infix

/-!
Parsers that move a pointer forward through a bounded buffer and make calls on what they
find. A pointer is the part of the buffer that is left from it on. A read at the end of the
buffer or after it is a result of its own, apart from a return at the end.
-/
namespace Scan

inductive Reading (α : Type) where
  | ok (a : α)
  /-- A check meets the end of the buffer, and the parser returns. -/
  | ended
  /-- The parser reads a byte at the end of the buffer or after it. -/
  | outside
  /-- A loop takes more rounds than it was given. -/
  | unfinished
  deriving DecidableEq

structure Parse (ι α : Type) where
  calls : List ι
  result : Reading α
  deriving DecidableEq

namespace Parse
variable {ι α β : Type}

def ended : Parse ι α := { calls := [], result := .ended }

def outside : Parse ι α := { calls := [], result := .outside }

def unfinished : Parse ι α := { calls := [], result := .unfinished }

def call (c : ι) : Parse ι Unit := { calls := [c], result := .ok () }

/-- A call of a callback that may be missing. -/
def callIf (set : Bool) (c : ι) : Parse ι Unit :=
  { calls := if set then [c] else [], result := .ok () }

/-- The calls made so far stay made whatever becomes of the rest. -/
def andThen (m : Parse ι α) (f : α → Parse ι β) : Parse ι β :=
  match m.result with
  | .ok a => { calls := m.calls ++ (f a).calls, result := (f a).result }
  | .ended => { calls := m.calls, result := .ended }
  | .outside => { calls := m.calls, result := .outside }
  | .unfinished => { calls := m.calls, result := .unfinished }

instance : Monad (Parse ι) where
  pure a := { calls := [], result := .ok a }
  bind := andThen

@[simp] theorem pure_calls (a : α) : (pure a : Parse ι α).calls = [] := rfl

@[simp] theorem pure_result (a : α) : (pure a : Parse ι α).result = .ok a := rfl

@[simp] theorem ended_result : (ended : Parse ι α).result = .ended := rfl

@[simp] theorem outside_result : (outside : Parse ι α).result = .outside := rfl

@[simp] theorem unfinished_result : (unfinished : Parse ι α).result = .unfinished := rfl

@[simp] theorem callIf_result (set : Bool) (c : ι) : (callIf set c).result = .ok () := rfl

/-- A part that makes no calls is known by its result. -/
theorem eq_pure {m : Parse ι α} {a : α} (silent : m.calls = []) (read : m.result = .ok a) :
    m = pure a := by
  cases m with
  | mk calls result =>
    simp only at silent read
    rw [silent, read]
    rfl

theorem bind_of_ok {m : Parse ι α} {f : α → Parse ι β} {calls : List ι} {a : α}
    (first : m = { calls, result := .ok a }) :
    m >>= f = { calls := calls ++ (f a).calls, result := (f a).result } := by
  rw [first]
  rfl

@[simp] theorem pure_then (a : α) (f : α → Parse ι β) : (pure a : Parse ι α) >>= f = f a := rfl

theorem bind_calls {m : Parse ι α} {f : α → Parse ι β} (first : m.calls = [])
    (second : ∀ a, (f a).calls = []) : (m >>= f).calls = [] := by
  change (andThen m f).calls = []
  unfold andThen
  cases m.result with
  | ok a =>
    dsimp only
    rw [first, second a, List.append_nil]
  | ended => exact first
  | outside => exact first
  | unfinished => exact first

theorem bind_result {m : Parse ι α} {f : α → Parse ι β} {a : α} (first : m.result = .ok a) :
    (m >>= f).result = (f a).result := by
  change (andThen m f).result = _
  unfold andThen
  rw [first]

theorem bind_ok_iff {m : Parse ι α} {f : α → Parse ι β} {b : β} :
    (m >>= f).result = .ok b ↔ ∃ a, m.result = .ok a ∧ (f a).result = .ok b := by
  change (andThen m f).result = .ok b ↔ _
  unfold andThen
  cases m.result <;> simp

theorem bind_outside_iff {m : Parse ι α} {f : α → Parse ι β} :
    (m >>= f).result = .outside ↔
      m.result = .outside ∨ ∃ a, m.result = .ok a ∧ (f a).result = .outside := by
  change (andThen m f).result = .outside ↔ _
  unfold andThen
  cases m.result <;> simp

/-- Every call made is `inside`, a result that is reached fulfils `post`, and the rounds that
    the loops were given are enough. -/
structure Ensures (inside : ι → Prop) (post : α → Prop) (m : Parse ι α) : Prop where
  calls : ∀ c ∈ m.calls, inside c
  reached : ∀ a, m.result = .ok a → post a
  finished : m.result ≠ .unfinished

variable {inside : ι → Prop} {post next : α → Prop}

theorem ensures_pure {a : α} (holds : post a) : Ensures inside post (pure a) where
  calls := by simp
  reached := by
    intro b same
    rw [← Reading.ok.inj same]
    exact holds
  finished := by simp

theorem ensures_ended : Ensures inside post ended where
  calls := by simp [ended]
  reached := by simp
  finished := by simp

theorem ensures_outside : Ensures inside post outside where
  calls := by simp [outside]
  reached := by simp
  finished := by simp

theorem ensures_callIf {set : Bool} {c : ι} (within : inside c) :
    Ensures inside (fun _ => True) (callIf set c) where
  calls := by
    intro d made
    cases set with
    | false => simp [callIf] at made
    | true =>
      rw [List.mem_singleton.mp made]
      exact within
  reached := by simp
  finished := by simp

theorem ensures_weaken {m : Parse ι α} (known : Ensures inside post m)
    (weaker : ∀ a, post a → next a) : Ensures inside next m where
  calls := known.calls
  reached := fun a same => weaker a (known.reached a same)
  finished := known.finished

theorem ensures_bind {m : Parse ι α} {f : α → Parse ι β} {goal : β → Prop}
    (first : Ensures inside post m) (second : ∀ a, post a → Ensures inside goal (f a)) :
    Ensures inside goal (m >>= f) := by
  change Ensures inside goal (andThen m f)
  unfold andThen
  cases reached : m.result with
  | ok a =>
    have rest := second a (first.reached a reached)
    refine ⟨?_, rest.reached, rest.finished⟩
    intro c made
    rcases List.mem_append.mp made with early | late
    · exact first.calls c early
    · exact rest.calls c late
  | ended => exact ⟨first.calls, by simp, by simp⟩
  | outside => exact ⟨first.calls, by simp, by simp⟩
  | unfinished => exact absurd reached first.finished

end Parse

open Parse
variable {ι α : Type}

/-- The read `*xml`. -/
def peek : List α → Parse ι α
  | [] => .outside
  | c :: _ => pure c

/-- `xml++; if (xml + margin >= xmlend) return;` -/
def advance (margin : Nat) (xml : List α) : Parse ι (List α) :=
  if xml.tail.length ≤ margin then .ended else pure xml.tail

/-- The test that a loop makes of the byte at the pointer. -/
def here (p : α → Bool) : List α → Bool
  | [] => false
  | c :: _ => p c

/-- `while (!stop(xml)) { i++; xml++; if (xml + margin >= xmlend) return; }` where the test
    reads `width` bytes, at least one. The result is the last `i` and the pointer. -/
def scan (width margin : Nat) (stop : List α → Bool) : Nat → List α → Parse ι (Nat × List α)
  | _, [] => .outside
  | i, c :: t =>
      if (c :: t).length < width then .outside
      else if stop (c :: t) then pure (i, c :: t)
      else if t.length ≤ margin then .ended
      else scan width margin stop (i + 1) t

/-- No pointer into `w`, in front of `r`, is one at which the loop stops. -/
def Passes (stop : List α → Bool) : List α → List α → Prop
  | [], _ => True
  | c :: w, r => stop (c :: w ++ r) = false ∧ Passes stop w r

theorem passes_here_iff {p : α → Bool} {w r : List α} :
    Passes (here p) w r ↔ ∀ c ∈ w, p c = false := by
  induction w with
  | nil => simp [Passes]
  | cons c w ih => simp [Passes, here, ih]

section scan
variable {width margin : Nat} {stop : List α → Bool}

theorem scan_calls (i : Nat) (xml : List α) :
    (scan width margin stop i xml : Parse ι (Nat × List α)).calls = [] := by
  induction xml generalizing i with
  | nil => rfl
  | cons c t ih =>
    unfold scan
    split_ifs
    · rfl
    · rfl
    · rfl
    · exact ih (i + 1)

/-- What the loop passes, it counts. -/
theorem scan_passes {w r : List α} (i : Nat) (passed : Passes stop w r) (stops : stop r = true)
    (nonempty : r ≠ []) (enough : width ≤ r.length) (clear : w ≠ [] → margin < r.length) :
    (scan width margin stop i (w ++ r) : Parse ι (Nat × List α)) = pure (i + w.length, r) := by
  induction w generalizing i with
  | nil =>
    cases r with
    | nil => exact absurd rfl nonempty
    | cons c t =>
      have wide : ¬ (c :: t).length < width := Nat.not_lt.mpr enough
      rw [List.nil_append, scan, if_neg wide, if_pos stops]
      rfl
  | cons c w ih =>
    obtain ⟨goesOn, later⟩ := passed
    have room := clear (by simp)
    have rest := ih (i + 1) later fun _ => room
    have wide : ¬ (c :: w ++ r).length < width := by
      rw [List.length_append]
      omega
    have apart : ¬ (w ++ r).length ≤ margin := by
      rw [List.length_append]
      omega
    simp only [List.cons_append] at goesOn wide ⊢
    rw [scan, if_neg wide, if_neg (by simp [goesOn]), if_neg apart, rest]
    simp only [List.length_cons]
    congr 2
    omega

/-- Where the loop stops, it has passed the part before. -/
theorem scan_ok {i j : Nat} {xml r : List α}
    (found : (scan width margin stop i xml : Parse ι (Nat × List α)).result = .ok (j, r)) :
    ∃ w, xml = w ++ r ∧ j = i + w.length ∧ Passes stop w r ∧ stop r = true ∧ r ≠ [] ∧
      width ≤ r.length ∧ (w ≠ [] → margin < r.length) := by
  induction xml generalizing i with
  | nil => simp [scan] at found
  | cons c t ih =>
    unfold scan at found
    split_ifs at found with short stops near
    · simp at found
    · obtain ⟨rfl, rfl⟩ := Prod.mk.inj (Reading.ok.inj found)
      exact ⟨[], rfl, rfl, trivial, stops, by simp, by omega, by simp⟩
    · simp at found
    · obtain ⟨w, rfl, rfl, passed, stops', nonempty, enough, clear⟩ := ih found
      refine ⟨c :: w, rfl, by simp only [List.length_cons]; omega,
        ⟨by simpa using stops, passed⟩, stops', nonempty, enough, ?_⟩
      intro _
      cases w with
      | nil => simpa using near
      | cons d w => exact clear (by simp)

theorem scan_ok_iff {i j : Nat} {xml r : List α} :
    (scan width margin stop i xml : Parse ι (Nat × List α)).result = .ok (j, r) ↔
      ∃ w, xml = w ++ r ∧ j = i + w.length ∧ Passes stop w r ∧ stop r = true ∧ r ≠ [] ∧
        width ≤ r.length ∧ (w ≠ [] → margin < r.length) := by
  constructor
  · exact scan_ok
  · rintro ⟨w, rfl, rfl, passed, stops, nonempty, enough, clear⟩
    rw [scan_passes i passed stops nonempty enough clear, pure_result]

/-- A loop that looks for one character and checks each move. -/
theorem scan_here_iff {p : α → Bool} {i j : Nat} {xml r : List α} :
    (scan 1 0 (here p) i xml : Parse ι (Nat × List α)).result = .ok (j, r) ↔
      ∃ w c t, xml = w ++ c :: t ∧ r = c :: t ∧ j = i + w.length ∧ (∀ d ∈ w, p d = false) ∧
        p c = true := by
  rw [scan_ok_iff]
  constructor
  · rintro ⟨w, whole, count, passed, stops, nonempty, -⟩
    cases r with
    | nil => exact absurd rfl nonempty
    | cons c t => exact ⟨w, c, t, whole, rfl, count, passes_here_iff.mp passed, stops⟩
  · rintro ⟨w, c, t, whole, rfl, count, passed, stops⟩
    exact ⟨w, whole, count, passes_here_iff.mpr passed, stops, by simp, by simp, by simp⟩

/-- The check after each move leaves room for the next test. -/
theorem scan_outside_iff (i : Nat) (xml : List α) (checked : width ≤ margin + 1) :
    (scan width margin stop i xml : Parse ι (Nat × List α)).result = .outside ↔
      xml = [] ∨ xml.length < width := by
  induction xml generalizing i with
  | nil => simp [scan]
  | cons c t ih =>
    unfold scan
    split_ifs with short stops near
    · simpa using short
    · simpa using short
    · simpa using short
    · rw [ih (i + 1)]
      have long : t ≠ [] := by
        rintro rfl
        simp at near
      simp only [List.length_cons] at short ⊢
      simp only [long, false_or]
      omega

theorem scan_stops {inside : ι → Prop} (i : Nat) (xml : List α) :
    Ensures inside (fun a => ∃ w, xml = w ++ a.2 ∧ a.1 = i + w.length ∧ Passes stop w a.2 ∧
        stop a.2 = true ∧ a.2 ≠ [])
      (scan width margin stop i xml) where
  calls := by simp [scan_calls]
  reached := by
    intro a found
    obtain ⟨w, whole, count, passed, stops, nonempty, -⟩ := scan_ok (j := a.1) (r := a.2) found
    exact ⟨w, whole, count, passed, stops, nonempty⟩
  finished := by
    induction xml generalizing i with
    | nil => simp [scan]
    | cons c t ih =>
      unfold scan
      split_ifs
      · simp
      · simp
      · simp
      · exact ih (i + 1)

theorem scan_ensures {inside : ι → Prop} (i : Nat) (xml : List α) :
    Ensures inside (fun a => ∃ w, xml = w ++ a.2 ∧ a.1 = i + w.length ∧ a.2 ≠ [])
      (scan width margin stop i xml) := by
  apply ensures_weaken (scan_stops i xml)
  rintro a ⟨w, whole, count, -, -, nonempty⟩
  exact ⟨w, whole, count, nonempty⟩

end scan

theorem peek_calls (xml : List α) : (peek xml : Parse ι α).calls = [] := by
  cases xml <;> rfl

theorem peek_ensures {inside : ι → Prop} (xml : List α) :
    Ensures inside (fun c => ∃ t, xml = c :: t) (peek xml) := by
  cases xml with
  | nil => exact ensures_outside
  | cons c t => exact ensures_pure ⟨t, rfl⟩

theorem advance_ok_iff {margin : Nat} {xml t : List α} :
    (advance margin xml : Parse ι (List α)).result = .ok t ↔
      t = xml.tail ∧ margin < xml.tail.length := by
  unfold advance
  split
  · simp only [ended_result, reduceCtorEq, false_iff, not_and]
    omega
  · rename_i long
    simp only [pure_result, Reading.ok.injEq, Nat.lt_of_not_le long, and_true, eq_comm]

theorem advance_calls (margin : Nat) (xml : List α) :
    (advance margin xml : Parse ι (List α)).calls = [] := by
  unfold advance
  split <;> rfl

theorem advance_not_outside {margin : Nat} {xml : List α} :
    (advance margin xml : Parse ι (List α)).result ≠ .outside := by
  unfold advance
  split <;> simp

theorem advance_ensures {inside : ι → Prop} (margin : Nat) (xml : List α) :
    Ensures inside (fun t => t = xml.tail ∧ margin < t.length) (advance margin xml) := by
  unfold advance
  split
  · exact ensures_ended
  · rename_i long
    exact ensures_pure ⟨rfl, Nat.lt_of_not_le long⟩

end Scan
