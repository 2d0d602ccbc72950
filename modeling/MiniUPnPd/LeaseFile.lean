import Mathlib.Data.List.DropRight
import MiniUPnPd.Lib.CString
import MiniUPnPd.Netfilter.Iptcrdr

/-!
The lease file keeps the mappings over a restart, one line for each. It is the contents
of the file, or nothing when there is no file; opening, renaming and removing it succeed.
-/
namespace LeaseFile
open CText Iptcrdr

def protoAtoi (protocol : CString) : Int :=
  if strcaseeq protocol "UDP".toList then IPPROTO_UDP
  else if strcaseeq protocol "UDPLITE".toList then IPPROTO_UDPLITE
  else IPPROTO_TCP

def protoItoa (proto : Int) : CString :=
  if proto = IPPROTO_UDP then "UDP".toList
  else if proto = IPPROTO_TCP then "TCP".toList
  else if proto = IPPROTO_UDPLITE then "UDPLITE".toList
  else "*UNKNOWN*".toList

/-- The clocks, and whether the file stores remaining times instead of Unix times. -/
structure Clock where
  upnpTime : Nat
  unixTime : Nat
  leasefileUseRemainingTime : Bool

def storedTimestamp (clock : Clock) (timestamp : Nat) : Nat :=
  if timestamp ≠ 0 then
    let remaining := (timestamp : Int) - clock.upnpTime
    ((if clock.leasefileUseRemainingTime then remaining else remaining + clock.unixTime)
      % 2 ^ 32).toNat
  else timestamp

def leaseLine (eport : UInt16) (iaddr : CString) (iport : UInt16) (proto : Int) (desc : CString)
    (timestamp : Nat) : CString :=
  protoItoa proto ++ ':' :: utoa eport.toNat ++ ':' :: iaddr ++ ':' :: utoa iport.toNat ++
    ':' :: utoa timestamp ++ ':' :: desc ++ ['\n']

theorem protoItoa_chars (proto : Int) : ∀ c ∈ protoItoa proto, c ≠ ':' ∧ c ≠ '\n' ∧ c ≠ '\x00' := by
  have plain : (protoItoa proto).all (fun c => c ≠ ':' ∧ c ≠ '\n' ∧ c ≠ '\x00') = true := by
    unfold protoItoa
    split
    · decide
    · split
      · decide
      · split
        · decide
        · decide
  intro c member
  exact of_decide_eq_true (List.all_eq_true.mp plain c member)

theorem utoa_chars (n : Nat) : ∀ c ∈ utoa n, c ≠ ':' ∧ c ≠ '\n' ∧ c ≠ '\x00' := by
  intro c member
  have digit := utoa_digits n c member
  refine ⟨?_, ?_, ?_⟩
  · rintro rfl
    exact absurd digit (by decide)
  · rintro rfl
    exact absurd digit (by decide)
  · rintro rfl
    exact absurd digit (by decide)

def leaseFileAdd (clock : Clock) (eport : UInt16) (iaddr : CString) (iport : UInt16) (proto : Int)
    (desc : CString) (timestamp : Nat) (file : Option CString) : Option CString :=
  some (file.getD [] ++ leaseLine eport iaddr iport proto desc (storedTimestamp clock timestamp))

/-- At most `n` characters, up to and with the first newline. -/
def fgets : Nat → CString → CString × CString
  | 0, s => ([], s)
  | _, [] => ([], [])
  | n + 1, c :: s =>
      if c = '\n' then ([c], s)
      else
        let (line, rest) := fgets n s
        (c :: line, rest)

theorem fgets_append (n : Nat) (s : CString) : (fgets n s).1 ++ (fgets n s).2 = s := by
  fun_induction fgets n s with
  | case1 s => rfl
  | case2 n => rfl
  | case3 n s => simp
  | case4 n c s other line rest here ih =>
    rw [here] at ih
    simpa using ih

theorem fgets_progress (n : Nat) (c : Char) (s : CString) :
    (fgets (n + 1) (c :: s)).2.length ≤ s.length := by
  have whole := congrArg List.length (fgets_append n s)
  simp only [List.length_append] at whole
  simp only [fgets]
  split
  · simp
  · show (fgets n s).2.length ≤ s.length
    omega

/-- What `fgets` reads into a buffer of `size` bytes, at least two, call by call. A NUL ends
    the string that is left in the buffer. -/
def fgetsLines (size : Nat) : CString → List CString
  | [] => []
  | c :: s =>
      let read := fgets (size - 2 + 1) (c :: s)
      read.1.takeWhile (· ≠ '\x00') :: fgetsLines size read.2
termination_by s => s.length
decreasing_by
  have progress := fgets_progress (size - 2) c s
  simp only [List.length_cons]
  omega

section reading

/-- The text ends with a newline. -/
def Ended (s : CString) : Prop := ∃ t, s = t ++ ['\n']

theorem ended_tail {c : Char} {s : CString} (ended : Ended (c :: s)) (other : c ≠ '\n') :
    Ended s := by
  obtain ⟨t, whole⟩ := ended
  cases t with
  | nil =>
    simp only [List.nil_append, List.cons.injEq] at whole
    exact absurd whole.1 other
  | cons d t =>
    simp only [List.cons_append, List.cons.injEq] at whole
    exact ⟨t, whole.2⟩

/-- A line is read to its end at most, so what follows the text does not matter. -/
theorem fgets_ended (n : Nat) {s : CString} (ended : Ended s) (rest : CString) :
    fgets n (s ++ rest) = ((fgets n s).1, (fgets n s).2 ++ rest) := by
  induction n generalizing s with
  | zero => rfl
  | succ n ih =>
    cases s with
    | nil =>
      obtain ⟨t, whole⟩ := ended
      simp at whole
    | cons c s =>
      rw [List.cons_append, fgets, fgets]
      by_cases newline : c = '\n'
      · rw [if_pos newline, if_pos newline]
      · rw [if_neg newline, if_neg newline, ih (ended_tail ended newline)]

theorem fgets_left (n : Nat) {s : CString} (ended : Ended s) :
    (fgets n s).2 = [] ∨ Ended (fgets n s).2 := by
  induction n generalizing s with
  | zero => exact .inr ended
  | succ n ih =>
    cases s with
    | nil => exact .inl rfl
    | cons c s =>
      rw [fgets]
      by_cases newline : c = '\n'
      · rw [if_pos newline]
        obtain ⟨t, whole⟩ := ended
        cases t with
        | nil =>
          simp only [List.nil_append, List.cons.injEq] at whole
          exact .inl whole.2
        | cons d t =>
          simp only [List.cons_append, List.cons.injEq] at whole
          exact .inr ⟨t, whole.2⟩
      · rw [if_neg newline]
        exact ih (ended_tail ended newline)

/-- A text without newline is read as far as it fits. -/
theorem fgets_front {n : Nat} {p : CString} (plain : '\n' ∉ p) (fits : p.length ≤ n)
    (s : CString) :
    fgets n (p ++ s) = (p ++ (fgets (n - p.length) s).1, (fgets (n - p.length) s).2) := by
  induction p generalizing n with
  | nil => rfl
  | cons c p ih =>
    cases n with
    | zero => simp at fits
    | succ n =>
      have other : c ≠ '\n' := by
        rintro rfl
        exact plain List.mem_cons_self
      have rest := ih (fun member => plain (List.mem_cons_of_mem c member))
        (by simpa using fits)
      rw [List.cons_append, fgets, if_neg other, rest, List.length_cons, Nat.add_sub_add_right]
      rfl

theorem fgetsLines_cons (size : Nat) {s : CString} (some : s ≠ []) :
    fgetsLines size s =
      (fgets (size - 2 + 1) s).1.takeWhile (· ≠ '\x00') :: fgetsLines size (fgets (size - 2 + 1) s).2 := by
  cases s with
  | nil => exact absurd rfl some
  | cons c s => rw [fgetsLines]

theorem fgets_shorter (size : Nat) {s : CString} (some : s ≠ []) :
    (fgets (size - 2 + 1) s).2.length < s.length := by
  cases s with
  | nil => exact absurd rfl some
  | cons c s =>
    have progress := fgets_progress (size - 2) c s
    simp only [List.length_cons]
    omega

/-- Texts that end with a newline are read one after the other. -/
theorem fgetsLines_append (size : Nat) {s : CString} (ended : s = [] ∨ Ended s) (rest : CString) :
    fgetsLines size (s ++ rest) = fgetsLines size s ++ fgetsLines size rest := by
  induction length : s.length using Nat.strongRecOn generalizing s with
  | ind n ih =>
    rcases ended with rfl | ended
    · rw [fgetsLines, List.nil_append, List.nil_append]
    · have some : s ≠ [] := by
        rintro rfl
        obtain ⟨t, whole⟩ := ended
        simp at whole
      have shorter := fgets_shorter size some
      have tail := ih _ (length ▸ shorter) (fgets_left (size - 2 + 1) ended) rfl
      rw [fgetsLines_cons size some, fgetsLines_cons size (List.append_ne_nil_of_left_ne_nil some rest),
        fgets_ended _ ended, tail, List.cons_append]

theorem fgetsLines_flatMap {α : Type*} (size : Nat) {line : α → CString}
    (ended : ∀ a, Ended (line a)) (l : List α) :
    fgetsLines size (l.flatMap line) = l.flatMap fun a => fgetsLines size (line a) := by
  induction l with
  | nil =>
    rw [List.flatMap_nil, List.flatMap_nil, fgetsLines]
  | cons a l ih =>
    rw [List.flatMap_cons, List.flatMap_cons, fgetsLines_append size (.inr (ended a)), ih]

/-- Without NUL nothing is lost. -/
theorem flatten_fgetsLines (size : Nat) {s : CString} (plain : '\x00' ∉ s) :
    (fgetsLines size s).flatten = s := by
  induction length : s.length using Nat.strongRecOn generalizing s with
  | ind n ih =>
    cases s with
    | nil =>
      rw [fgetsLines]
      rfl
    | cons c s =>
      have some : c :: s ≠ [] := List.cons_ne_nil c s
      have whole := fgets_append (size - 2 + 1) (c :: s)
      have first : ∀ d ∈ (fgets (size - 2 + 1) (c :: s)).1, d ≠ '\x00' := by
        intro d member zero
        apply plain
        rw [← whole, ← zero]
        exact List.mem_append_left _ member
      have later : '\x00' ∉ (fgets (size - 2 + 1) (c :: s)).2 := by
        intro member
        apply plain
        rw [← whole]
        exact List.mem_append_right _ member
      have tail := ih _ (length ▸ fgets_shorter size some) later rfl
      rw [fgetsLines_cons size some, List.flatten_cons, tail]
      rw [List.takeWhile_eq_self_iff.mpr (by simpa using first)]
      exact whole

end reading

def leaseFileRemove (eport : UInt16) (proto : Int) (file : Option CString) : Option CString :=
  file.map fun content =>
    let str := protoItoa proto ++ ':' :: utoa eport.toNat
    ((fgetsLines 511 content).filter fun buf => !str.isPrefixOf buf).flatten

structure Lease where
  proto : CString
  eport : UInt16
  iaddr : CString
  iport : UInt16
  timestamp : Nat
  desc : CString
  deriving DecidableEq

/-- The text before the first colon and the text after it. -/
def cutColon (s : CString) : Option (CString × CString) :=
  match s.dropWhile (· ≠ ':') with
  | [] => none
  | _ :: rest => some (s.takeWhile (· ≠ ':'), rest)

section cutting
variable {s t : CString}

theorem cutColon_append (absent : ':' ∉ s) (t : CString) : cutColon (s ++ ':' :: t) = some (s, t) := by
  unfold cutColon
  rw [dropWhile_ne_append absent, takeWhile_ne_append absent]
  simp

theorem cutColon_some {u : CString} (cut : cutColon s = some (t, u)) :
    s = t ++ ':' :: u := by
  unfold cutColon at cut
  split at cut
  · simp at cut
  · rename_i c rest dropped
    obtain ⟨rfl, rfl⟩ := Prod.mk.inj (Option.some.inj cut)
    have head : c = ':' := by
      have stop := List.head?_dropWhile_not (fun c : Char => decide (c ≠ ':')) s
      rw [dropped] at stop
      simpa using stop
    conv_lhs => rw [← @List.takeWhile_append_dropWhile _ (fun c : Char => decide (c ≠ ':')) s, dropped]
    rw [head]

theorem cutColon_absent {u : CString} (cut : cutColon s = some (t, u)) : ':' ∉ t := by
  unfold cutColon at cut
  split at cut
  · simp at cut
  · obtain ⟨rfl, rfl⟩ := Prod.mk.inj (Option.some.inj cut)
    intro member
    simpa using List.mem_takeWhile_imp member

theorem cutColon_none (cut : cutColon s = none) : ':' ∉ s := by
  intro member
  obtain ⟨t, u, rfl, absent⟩ := List.eq_append_cons_of_mem member
  rw [cutColon_append absent] at cut
  cases cut

end cutting

def trim (s : CString) : CString := (s.dropWhile isspace).rdropWhile isspace

def parseLeaseLine (line : CString) : Option Lease := do
  let (proto, p) ← cutColon line
  let (eport, iaddr) ← cutColon p
  let (iaddr, p) ← cutColon iaddr
  let (iport, p) ← cutColon p
  let (timestamp, desc) ← cutColon p
  some { proto, eport := atous eport, iaddr, iport := atous iport,
         timestamp := strtoul timestamp % 2 ^ 32, desc := trim desc }

end LeaseFile
