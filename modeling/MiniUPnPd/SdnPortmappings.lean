import MiniUPnPd.Lib.ReadBack
import MiniUPnPd.SdnRedirect

/-!
The mappings that the controller lists, as they are read from its JSON. A field of the wrong
type is meant to drop its entry, but the test of a port is joined to the reading of it in such a
way that a port out of range passes, and one that is not there is tested in a variable that was
never set. A negative duration reads as 0.
-/
namespace SdnPortmappings
open CText SdnRedirect

/-- A pointer to the string, which ends for its readers at a NUL. -/
def retrieveStringFromJsonObj (jobj : Json) (key : String) : Option CString :=
  match objectGet jobj key with
  | some (.string s) => some (s.takeWhile (· ≠ '\x00'))
  | _ => none

/-- `json_object_get_uint64`, where a negative number gives 0. -/
def getUint64 (n : Int) : Nat := n.toNat

def retrieveUnsignedIntFromJsonObj (jobj : Json) (key : String) : Option Nat :=
  match objectGet jobj key with
  | some (.int n) => if getUint64 n > 2 ^ 32 - 1 then none else some (getUint64 n)
  | _ => none

structure PortmappingEntry where
  rhost : CString
  eport : UInt16
  proto : CString
  iaddr : CString
  iport : UInt16
  leaseduration : Nat
  deriving DecidableEq

/-- The `if` of the loop, with what the unset variable holds when a port is read. -/
def retrieveEntry (stack : String → Int) (entry : Json) : Option PortmappingEntry := do
  let rhost ← retrieveStringFromJsonObj entry "rhost"
  let eport ← retrievePortNumberFromJsonObj (stack "eport") entry "eport"
  let proto ← retrieveStringFromJsonObj entry "proto"
  let iaddr ← retrieveStringFromJsonObj entry "iaddr"
  let iport ← retrievePortNumberFromJsonObj (stack "iport") entry "iport"
  let leaseduration ← retrieveUnsignedIntFromJsonObj entry "duration"
  some { rhost, eport, proto, iaddr, iport, leaseduration }

def retrievePortmappingArrayFromJsonObj (stack : Nat → String → Int) (jobj : Json)
    (key : String) : Option (List PortmappingEntry) :=
  (retrieveJsonArrayFromJsonObj jobj key).map fun entries =>
    entries.zipIdx.filterMap fun (entry, i) => retrieveEntry (stack i) entry

section fields
variable (entry : Json) (key : String)

def stringField : Option CString :=
  match objectGet entry key with
  | some (.string s) => some s
  | _ => none

def numberField (bound : Int) : Option Int :=
  match objectGet entry key with
  | some (.int n) => if 0 ≤ n ∧ n < bound then some n else none
  | _ => none

end fields

def portOf (jobj : Json) (key : String) : Option UInt16 :=
  (numberField jobj key (2 ^ 16)).map UInt16.ofInt

/-- The entry that a JSON value stands for. -/
def entryOf (entry : Json) : Option PortmappingEntry := do
  let rhost ← stringField entry "rhost"
  let eport ← portOf entry "eport"
  let proto ← stringField entry "proto"
  let iaddr ← stringField entry "iaddr"
  let iport ← portOf entry "iport"
  let leaseduration ← (numberField entry "duration" (2 ^ 32)).map Int.toNat
  some { rhost, eport, proto, iaddr, iport, leaseduration }

/-- The port is in range, or it is not there and the unset variable is in range. -/
def PortReads (stack : Int) (jobj : Json) (key : String) : Prop :=
  match objectGet jobj key with
  | some (.int n) => 0 ≤ n ∧ n < 2 ^ 16
  | _ => 0 ≤ stack ∧ stack < 2 ^ 16

/-- There is no port, and the unset variable is in range: the entry is dropped as it should be. -/
def PortMissed (stack : Int) (entry : Json) (key : String) : Prop :=
  (∀ n, objectGet entry key ≠ some (.int n)) ∧ 0 ≤ stack ∧ stack < 2 ^ 16

def PlainString (entry : Json) (key : String) : Prop := ∀ s ∈ stringField entry key, '\x00' ∉ s

/-- An entry with its strings and a duration of less than 2^32 is one that a missing port drops, or
    all its fields are in order. -/
def EntryReads (stack : String → Int) (entry : Json) : Prop :=
  (stringField entry "rhost").isSome → (stringField entry "proto").isSome →
    (stringField entry "iaddr").isSome → ∀ n, objectGet entry "duration" = some (.int n) →
    n < 2 ^ 32 →
    PortMissed (stack "eport") entry "eport" ∨ PortMissed (stack "iport") entry "iport" ∨
      (portOf entry "eport").isSome ∧ (portOf entry "iport").isSome ∧ 0 ≤ n ∧
        PlainString entry "rhost" ∧ PlainString entry "proto" ∧ PlainString entry "iaddr"

section fields
variable {entry : Json} {key : String}

theorem getInt_port {n : Int} (low : 0 ≤ n) (high : n < 2 ^ 16) : getInt n = n := by
  unfold getInt
  omega

theorem retrieveString_field :
    retrieveStringFromJsonObj entry key =
      (stringField entry key).map fun s => s.takeWhile (· ≠ '\x00') := by
  unfold retrieveStringFromJsonObj stringField
  cases objectGet entry key with
  | none => rfl
  | some value => cases value <;> rfl

theorem port_int {n : Int} (here : objectGet entry key = some (.int n)) (stack : Int) :
    retrievePortNumberFromJsonObj stack entry key = some (UInt16.ofInt (getInt n)) := by
  simp only [retrievePortNumberFromJsonObj, retrieveIntFromJsonObj, here]

theorem port_other (missing : ∀ n, objectGet entry key ≠ some (.int n)) (stack : Int) :
    retrievePortNumberFromJsonObj stack entry key =
      if 0 ≤ stack ∧ stack < 2 ^ 16 then none else some (UInt16.ofInt stack) := by
  have none_read : retrieveIntFromJsonObj entry key = none := by
    unfold retrieveIntFromJsonObj
    split
    · rename_i n here
      exact absurd here (missing n)
    · rfl
  have range : (0 ≤ stack ∧ stack ≤ 65535) ↔ 0 ≤ stack ∧ stack < 2 ^ 16 := by omega
  simp only [retrievePortNumberFromJsonObj, none_read, isvalidUshort, decide_eq_true_eq, range]

theorem portOf_int {n : Int} (here : objectGet entry key = some (.int n)) :
    portOf entry key = if 0 ≤ n ∧ n < 2 ^ 16 then some (UInt16.ofInt n) else none := by
  simp only [portOf, numberField, here]
  split
  · rfl
  · rfl

theorem portOf_other (missing : ∀ n, objectGet entry key ≠ some (.int n)) :
    portOf entry key = none := by
  unfold portOf numberField
  split
  · rename_i n here
    exact absurd here (missing n)
  · rfl

/-- A port that is in order is read as it is. -/
theorem port_of_portOf {p : UInt16} (right : portOf entry key = some p) (stack : Int) :
    retrievePortNumberFromJsonObj stack entry key = some p := by
  by_cases number : ∃ n, objectGet entry key = some (.int n)
  · obtain ⟨n, here⟩ := number
    rw [portOf_int here] at right
    split at right
    · rename_i range
      rw [port_int here, getInt_port range.1 range.2]
      exact right
    · cases right
  · push Not at number
    rw [portOf_other number] at right
    cases right

theorem port_none_iff (stack : Int) :
    retrievePortNumberFromJsonObj stack entry key = none ↔ PortMissed stack entry key := by
  by_cases number : ∃ n, objectGet entry key = some (.int n)
  · obtain ⟨n, here⟩ := number
    rw [port_int here]
    constructor
    · intro missed
      cases missed
    · intro missed
      exact absurd here (missed.1 n)
  · push Not at number
    rw [port_other number]
    constructor
    · intro missed
      split at missed
      · rename_i range
        exact ⟨number, range⟩
      · cases missed
    · intro missed
      rw [if_pos missed.2]

theorem port_right_iff (stack : Int) :
    retrievePortNumberFromJsonObj stack entry key = portOf entry key ↔
      PortReads stack entry key := by
  by_cases number : ∃ n, objectGet entry key = some (.int n)
  · obtain ⟨n, here⟩ := number
    rw [port_int here, portOf_int here]
    simp only [PortReads, here]
    constructor
    · intro same
      split at same
      · assumption
      · cases same
    · intro range
      rw [if_pos range, getInt_port range.1 range.2]
  · push Not at number
    have reads : PortReads stack entry key ↔ 0 ≤ stack ∧ stack < 2 ^ 16 := by
      unfold PortReads
      split
      · rename_i n here
        exact absurd here (number n)
      · exact Iff.rfl
    rw [port_other number, portOf_other number, reads]
    constructor
    · intro same
      split at same
      · assumption
      · cases same
    · intro range
      rw [if_pos range]

theorem duration_none (missing : ∀ n, objectGet entry key = some (.int n) → 2 ^ 32 ≤ n) :
    retrieveUnsignedIntFromJsonObj entry key = none ∧
      (numberField entry key (2 ^ 32)).map Int.toNat = none := by
  unfold retrieveUnsignedIntFromJsonObj numberField getUint64
  split
  · rename_i n here
    have large := missing n here
    rw [if_pos (by omega), if_neg (by omega)]
    exact ⟨rfl, rfl⟩
  · exact ⟨rfl, rfl⟩

theorem duration_some {n : Int} (here : objectGet entry key = some (.int n)) (small : n < 2 ^ 32) :
    retrieveUnsignedIntFromJsonObj entry key = some n.toNat ∧
      (numberField entry key (2 ^ 32)).map Int.toNat = if 0 ≤ n then some n.toNat else none := by
  unfold retrieveUnsignedIntFromJsonObj numberField getUint64
  rw [here]
  dsimp only
  rw [if_neg (by omega)]
  by_cases positive : 0 ≤ n
  · rw [if_pos ⟨positive, small⟩, if_pos positive]
    exact ⟨rfl, rfl⟩
  · rw [if_neg fun both => positive both.1, if_neg positive]
    exact ⟨rfl, rfl⟩

theorem takeWhile_plain {s : CString} :
    s.takeWhile (· ≠ '\x00') = s ↔ '\x00' ∉ s := by
  rw [List.takeWhile_eq_self_iff]
  simp only [decide_eq_true_eq]
  constructor
  · intro others zero
    exact others _ zero rfl
  · intro plain c member zero
    exact plain (zero ▸ member)

end fields

/-- A missing port has no value. -/
theorem portOf_missed {entry : Json} {key : String} {stack : Int}
    (missed : PortMissed stack entry key) : portOf entry key = none := portOf_other missed.1

/-- An entry is read right, or dropped rightly, exactly under the condition. -/
theorem entry_right_iff (stack : String → Int) (entry : Json) :
    retrieveEntry stack entry = entryOf entry ↔ EntryReads stack entry := by
  unfold retrieveEntry entryOf EntryReads PlainString
  simp only [retrieveString_field, Option.bind_eq_bind]
  cases stringField entry "rhost" with
  | none => simp
  | some rhost =>
  cases stringField entry "proto" with
  | none => simp
  | some proto =>
  cases stringField entry "iaddr" with
  | none => simp
  | some iaddr =>
  by_cases lasting : ∃ n, objectGet entry "duration" = some (.int n) ∧ n < 2 ^ 32
  · obtain ⟨n, here, small⟩ := lasting
    obtain ⟨read, right⟩ := duration_some here small
    rw [read, right]
    simp only [Option.map_some, Option.bind_some, Option.isSome_some, forall_const, here,
      Option.some.injEq, Json.int.injEq, forall_eq', small, Option.mem_def]
    by_cases noEport : PortMissed (stack "eport") entry "eport"
    · simp [noEport, portOf_missed noEport, (port_none_iff (stack "eport")).mpr noEport]
    · by_cases noIport : PortMissed (stack "iport") entry "iport"
      · simp [noIport, portOf_missed noIport, (port_none_iff (stack "iport")).mpr noIport]
      · have readE := (port_none_iff (stack "eport")).not.mpr noEport
        have readI := (port_none_iff (stack "iport")).not.mpr noIport
        obtain ⟨eport, foundE⟩ := Option.ne_none_iff_exists'.mp readE
        obtain ⟨iport, foundI⟩ := Option.ne_none_iff_exists'.mp readI
        simp only [foundE, foundI, noEport, noIport, Option.bind_some, false_or]
        cases rightE : portOf entry "eport" with
        | none => simp
        | some eport' =>
        cases rightI : portOf entry "iport" with
        | none => simp
        | some iport' =>
        rw [port_of_portOf rightE, Option.some.injEq] at foundE
        rw [port_of_portOf rightI, Option.some.injEq] at foundI
        by_cases positive : 0 ≤ n
        · simp only [positive, foundE, foundI, Option.bind_some, ↓reduceIte, Option.some.injEq,
            PortmappingEntry.mk.injEq, takeWhile_plain, true_and, and_true, Option.isSome_some]
        · simp [positive]
  · push Not at lasting
    obtain ⟨read, right⟩ := duration_none lasting
    rw [read, right]
    simp only [Option.bind_none, Option.bind_fun_none, true_iff]
    intro _ _ _ n here small
    exact absurd small (Int.not_lt.mpr (lasting n here))

/-- The reader takes every entry that is in order. -/
theorem retrieveEntry_isSome (stack : String → Int) (entry : Json)
    (right : (entryOf entry).isSome) : (retrieveEntry stack entry).isSome := by
  obtain ⟨e, taken⟩ := Option.isSome_iff_exists.mp right
  unfold entryOf at taken
  simp only [Option.bind_eq_bind, Option.bind_eq_some_iff, Option.map_eq_some_iff] at taken
  obtain ⟨rhost, hasRhost, eport, hasEport, proto, hasProto, iaddr, hasIaddr, iport, hasIport, _,
    ⟨n, number, rfl⟩, _⟩ := taken
  have lasting : objectGet entry "duration" = some (.int n) ∧ n < 2 ^ 32 := by
    unfold numberField at number
    split at number
    · rename_i m here
      split at number
      · rename_i range
        obtain rfl := Option.some.inj number
        exact ⟨here, range.2⟩
      · cases number
    · cases number
  obtain ⟨read, _⟩ := duration_some lasting.1 lasting.2
  unfold retrieveEntry
  simp [retrieveString_field, hasRhost, hasProto, hasIaddr, port_of_portOf hasEport,
    port_of_portOf hasIport, read]

/-- What is in the array: the entries in order, and nothing else. -/
def Listed (stack : Nat → String → Int) (jobj : Json) (key : String) : Prop :=
  retrievePortmappingArrayFromJsonObj stack jobj key =
    (retrieveJsonArrayFromJsonObj jobj key).map fun entries => entries.filterMap entryOf

/-- An array is read right exactly if each of its entries is, and a port exactly if it is in range
    or is missing and the unset variable is in range. -/
theorem controller_entries_iff (stack : Nat → String → Int) (unset : Int) (jobj : Json)
    (key : String) :
    (Listed stack jobj key ↔
      ∀ entries, retrieveJsonArrayFromJsonObj jobj key = some entries →
        ∀ i entry, entries[i]? = some entry → EntryReads (stack i) entry) ∧
    (retrievePortNumberFromJsonObj unset jobj key = portOf jobj key ↔
      PortReads unset jobj key) := by
  refine ⟨?_, port_right_iff unset⟩
  unfold Listed retrievePortmappingArrayFromJsonObj
  cases retrieveJsonArrayFromJsonObj jobj key with
  | none => simp
  | some entries =>
    have indexed : entries.filterMap entryOf =
        entries.zipIdx.filterMap fun p => entryOf p.1 := by
      have same := List.filterMap_map (f := Prod.fst) (g := entryOf) (l := entries.zipIdx)
      rw [List.zipIdx_map_fst] at same
      exact same
    have more : ∀ p ∈ entries.zipIdx, (entryOf p.1).isSome → (retrieveEntry (stack p.2) p.1).isSome :=
      fun p _ => retrieveEntry_isSome (stack p.2) p.1
    simp only [Option.map_some, Option.some.injEq, forall_eq']
    rw [indexed, ReadBack.filterMap_eq_iff more]
    constructor
    · intro each i entry here
      have member : (entry, i) ∈ entries.zipIdx := List.mem_zipIdx_iff_getElem?.mpr here
      exact (entry_right_iff (stack i) entry).mp (each (entry, i) member)
    · intro reads p member
      have here : entries[p.2]? = some p.1 := List.mem_zipIdx_iff_getElem?.mp member
      exact (entry_right_iff (stack p.2) p.1).mpr (reads p.2 p.1 here)

/-- The port 65536 of an entry is read as 0. -/
def strayPort : Json :=
  .object [("portmapping".toList, .array [.object [("rhost".toList, .string []),
    ("eport".toList, .int 65536), ("proto".toList, .string "TCP".toList),
    ("iaddr".toList, .string "10.0.0.2".toList), ("iport".toList, .int 80),
    ("duration".toList, .int 0)]])]

theorem port_out_of_range_listed : ¬ Listed (fun _ _ => 0) strayPort "portmapping" := by
  unfold Listed
  decide

end SdnPortmappings
