import Mathlib.Logic.Function.Basic
import MiniUPnPd.Lib.FirstMatch
import MiniUPnPd.Lib.Inet

/-!
The kernel tables as the daemon sees them through libiptc: four chains of rules and,
beside them, the daemon's own list of descriptions and expiry times. Every libiptc call
may fail, and a call that fails changes nothing. `iptcResults` holds the outcomes of the
calls to come; past its end every call succeeds.
-/
namespace Iptc
open FirstMatch

/-- The chains MINIUPNPD and MINIUPNPD-POSTROUTING of the nat table, and MINIUPNPD of
    the filter and mangle tables. -/
inductive Chain where
  | nat
  | postrouting
  | forward
  | mangle
  deriving DecidableEq, Repr

inductive MatchName where
  | tcp
  | udp
  deriving DecidableEq, Repr

inductive TargetName where
  | DNAT
  | MASQUERADE
  | ACCEPT
  deriving DecidableEq, Repr

/-- The target with the first range of its `ip_nat_multi_range`, zero where it has none. -/
structure IptTarget where
  name : TargetName
  minIp : InAddr
  minAll : UInt16
  deriving DecidableEq, Repr

/-- `struct ipt_entry` with its one match. The port ranges are read from the same place
    for both kinds of match. -/
structure IptEntry where
  proto : UInt16
  src : InAddr
  smsk : InAddr
  dst : InAddr
  dmsk : InAddr
  matchName : MatchName
  spts : UInt16 × UInt16
  dpts : UInt16 × UInt16
  target : IptTarget
  pcnt : Nat
  bcnt : Nat
  deriving DecidableEq, Repr

structure RdrDesc where
  timestamp : Nat
  eport : UInt16
  proto : Int16
  str : CString
  deriving DecidableEq

structure Netfilter where
  chain : Chain → List IptEntry
  rdrDescList : List RdrDesc
  iptcResults : List Bool

def Netfilter.setChain (nf : Netfilter) (c : Chain) (rules : List IptEntry) : Netfilter :=
  { nf with chain := Function.update nf.chain c rules }

def Netfilter.setDescs (nf : Netfilter) (descs : List RdrDesc) : Netfilter :=
  { nf with rdrDescList := descs }

def Netfilter.withResults (nf : Netfilter) (results : List Bool) : Netfilter :=
  { nf with iptcResults := results }

/-- No call fails from here on. -/
def Netfilter.Quiet (nf : Netfilter) : Prop := nf.iptcResults = []

def Netfilter.empty : Netfilter := { chain := fun _ => [], rdrDescList := [], iptcResults := [] }

/-- Any of `iptc_init`, `iptc_is_chain`, `iptc_append_entry`, `iptc_replace_entry`,
    `iptc_delete_num_entry` and `iptc_commit`. -/
def iptcCall (nf : Netfilter) : Bool × Netfilter :=
  match nf.iptcResults with
  | [] => (true, nf)
  | result :: results => (result, nf.withResults results)

/-- Calls made one after the other, up to the first that fails. -/
def iptcCalls : Nat → Netfilter → Bool × Netfilter
  | 0, nf => (true, nf)
  | n + 1, nf =>
      let (done, nf) := iptcCall nf
      if done then iptcCalls n nf else (false, nf)

/-- Init, chain check, append and commit. -/
def iptcInitVerifyAndAppend (c : Chain) (e : IptEntry) (nf : Netfilter) : Int × Netfilter :=
  let (done, nf) := iptcCalls 4 nf
  if done then (0, nf.setChain c (nf.chain c ++ [e])) else (-1, nf)

/-- Delete and commit, on a handle that is already open. -/
def deleteRuleAndCommit (index : Nat) (c : Chain) (nf : Netfilter) : Int × Netfilter :=
  let (done, nf) := iptcCalls 2 nf
  if done then (0, nf.setChain c ((nf.chain c).eraseIdx index)) else (-1, nf)

/-- Init, replace and commit. -/
def updateRuleAndCommit (c : Chain) (index : Nat) (e : IptEntry) (nf : Netfilter) :
    Int × Netfilter :=
  let (done, nf) := iptcCalls 3 nf
  if done then (0, nf.setChain c ((nf.chain c).set index e)) else (-1, nf)

section
variable (nf : Netfilter) (c d : Chain) (rules : List IptEntry) (descs : List RdrDesc)
  (results : List Bool)

@[simp] theorem chain_setChain :
    (nf.setChain c rules).chain d = if d = c then rules else nf.chain d := by
  simp only [Netfilter.setChain, Function.update_apply]

@[simp] theorem descs_setChain : (nf.setChain c rules).rdrDescList = nf.rdrDescList := rfl

@[simp] theorem results_setChain : (nf.setChain c rules).iptcResults = nf.iptcResults := rfl

@[simp] theorem chain_setDescs : (nf.setDescs descs).chain = nf.chain := rfl

@[simp] theorem descs_setDescs : (nf.setDescs descs).rdrDescList = descs := rfl

@[simp] theorem results_setDescs : (nf.setDescs descs).iptcResults = nf.iptcResults := rfl

@[simp] theorem chain_withResults : (nf.withResults results).chain = nf.chain := rfl

@[simp] theorem descs_withResults : (nf.withResults results).rdrDescList = nf.rdrDescList := rfl

@[simp] theorem results_withResults : (nf.withResults results).iptcResults = results := rfl

@[simp] theorem withResults_withResults (again : List Bool) :
    (nf.withResults results).withResults again = nf.withResults again := rfl

@[simp] theorem withResults_self : nf.withResults nf.iptcResults = nf := rfl

@[simp] theorem setChain_self : nf.setChain c (nf.chain c) = nf := by
  simp [Netfilter.setChain]

end

@[simp] theorem quiet_setChain {nf : Netfilter} {c : Chain} {rules : List IptEntry} :
    (nf.setChain c rules).Quiet ↔ nf.Quiet := Iff.rfl

@[simp] theorem quiet_setDescs {nf : Netfilter} {descs : List RdrDesc} :
    (nf.setDescs descs).Quiet ↔ nf.Quiet := Iff.rfl

theorem iptcCall_quiet {nf : Netfilter} (quiet : nf.Quiet) : iptcCall nf = (true, nf) := by
  have none : nf.iptcResults = [] := quiet
  simp [iptcCall, none]

/-- A call leaves the tables alone, and the calls that come after a quiet one are quiet. -/
theorem iptcCall_cases (nf : Netfilter) :
    ∃ done results, iptcCall nf = (done, nf.withResults results) ∧
      (nf.Quiet → done = true ∧ results = []) := by
  cases outcome : nf.iptcResults with
  | nil =>
    have same : nf.withResults [] = nf := by rw [← outcome, withResults_self]
    exact ⟨true, [], by rw [iptcCall_quiet outcome, same], fun _ => ⟨rfl, rfl⟩⟩
  | cons done results =>
    refine ⟨done, results, by simp [iptcCall, outcome], ?_⟩
    intro quiet
    simp [Netfilter.Quiet, outcome] at quiet

theorem iptcCalls_quiet (n : Nat) {nf : Netfilter} (quiet : nf.Quiet) :
    iptcCalls n nf = (true, nf) := by
  induction n with
  | zero => rfl
  | succ n ih => simp [iptcCalls, iptcCall_quiet quiet, ih]

theorem iptcCalls_cases (n : Nat) (nf : Netfilter) :
    ∃ done results, iptcCalls n nf = (done, nf.withResults results) := by
  induction n generalizing nf with
  | zero => exact ⟨true, nf.iptcResults, rfl⟩
  | succ n ih =>
    obtain ⟨done, results, call, _⟩ := iptcCall_cases nf
    cases done with
    | false => exact ⟨false, results, by simp [iptcCalls, call]⟩
    | true =>
      obtain ⟨others, rest, calls⟩ := ih (nf.withResults results)
      exact ⟨others, rest, by simp [iptcCalls, call, calls]⟩

/-- Whether the next `n` calls succeed. -/
def callsSucceed (n : Nat) (results : List Bool) : Bool := (results.take n).all id

theorem callsSucceed_add (m n : Nat) (results : List Bool) :
    callsSucceed (m + n) results = (callsSucceed m results && callsSucceed n (results.drop m)) := by
  simp [callsSucceed, List.take_add]

theorem callsSucceed_quiet (n : Nat) {nf : Netfilter} (quiet : nf.Quiet) :
    callsSucceed n nf.iptcResults = true := by
  have none : nf.iptcResults = [] := quiet
  simp [none, callsSucceed]

theorem iptcCalls_fst (n : Nat) (nf : Netfilter) :
    (iptcCalls n nf).1 = callsSucceed n nf.iptcResults := by
  induction n generalizing nf with
  | zero => rfl
  | succ n ih =>
    cases outcome : nf.iptcResults with
    | nil => simp [iptcCalls_quiet (n + 1) outcome, callsSucceed]
    | cons done results =>
      have rest := ih (nf.withResults results)
      cases done with
      | false => simp [iptcCalls, iptcCall, outcome, callsSucceed]
      | true => simpa [iptcCalls, iptcCall, outcome, callsSucceed] using rest

theorem iptcCalls_done {n : Nat} {nf : Netfilter} (done : callsSucceed n nf.iptcResults = true) :
    iptcCalls n nf = (true, nf.withResults (nf.iptcResults.drop n)) := by
  induction n generalizing nf with
  | zero => rfl
  | succ n ih =>
    cases outcome : nf.iptcResults with
    | nil =>
      have same : nf.withResults [] = nf := by rw [← outcome, withResults_self]
      simp [iptcCalls_quiet (n + 1) outcome, same]
    | cons first results =>
      simp only [outcome, callsSucceed, List.take_succ_cons, List.all_cons, id_eq,
        Bool.and_eq_true] at done
      have rest := @ih (nf.withResults results) done.2
      simp [iptcCalls, iptcCall, outcome, done.1, rest]

theorem iptcCalls_failed {n : Nat} {nf : Netfilter}
    (failed : callsSucceed n nf.iptcResults = false) :
    ∃ results, iptcCalls n nf = (false, nf.withResults results) := by
  obtain ⟨done, results, calls⟩ := iptcCalls_cases n nf
  have first := iptcCalls_fst n nf
  rw [calls, failed] at first
  exact ⟨results, calls.trans (congrArg (·, nf.withResults results) first)⟩

theorem append_done (c : Chain) (e : IptEntry) {nf : Netfilter}
    (done : callsSucceed 4 nf.iptcResults = true) :
    iptcInitVerifyAndAppend c e nf =
      (0, (nf.withResults (nf.iptcResults.drop 4)).setChain c (nf.chain c ++ [e])) := by
  simp [iptcInitVerifyAndAppend, iptcCalls_done done]

theorem append_failed (c : Chain) (e : IptEntry) {nf : Netfilter}
    (failed : callsSucceed 4 nf.iptcResults = false) :
    ∃ results, iptcInitVerifyAndAppend c e nf = (-1, nf.withResults results) := by
  obtain ⟨results, calls⟩ := iptcCalls_failed failed
  exact ⟨results, by simp [iptcInitVerifyAndAppend, calls]⟩

theorem iptcCall_done {nf : Netfilter} (done : callsSucceed 1 nf.iptcResults = true) :
    iptcCall nf = (true, nf.withResults (nf.iptcResults.drop 1)) := by
  cases outcome : nf.iptcResults with
  | nil =>
    have same : nf.withResults [] = nf := by rw [← outcome, withResults_self]
    simp [iptcCall_quiet outcome, same]
  | cons first results =>
    have succeeded : first = true := by simpa [outcome, callsSucceed] using done
    simp [iptcCall, outcome, succeeded]

theorem iptcCall_failed {nf : Netfilter} (failed : callsSucceed 1 nf.iptcResults = false) :
    ∃ results, iptcCall nf = (false, nf.withResults results) := by
  cases outcome : nf.iptcResults with
  | nil => simp [outcome, callsSucceed] at failed
  | cons first results =>
    have refused : first = false := by simpa [outcome, callsSucceed] using failed
    exact ⟨results, by simp [iptcCall, outcome, refused]⟩

theorem delete_done (index : Nat) (c : Chain) {nf : Netfilter}
    (done : callsSucceed 2 nf.iptcResults = true) :
    deleteRuleAndCommit index c nf =
      (0, (nf.withResults (nf.iptcResults.drop 2)).setChain c ((nf.chain c).eraseIdx index)) := by
  simp [deleteRuleAndCommit, iptcCalls_done done]

theorem delete_failed (index : Nat) (c : Chain) {nf : Netfilter}
    (failed : callsSucceed 2 nf.iptcResults = false) :
    ∃ results, deleteRuleAndCommit index c nf = (-1, nf.withResults results) := by
  obtain ⟨results, calls⟩ := iptcCalls_failed failed
  exact ⟨results, by simp [deleteRuleAndCommit, calls]⟩

theorem update_done (c : Chain) (index : Nat) (e : IptEntry) {nf : Netfilter}
    (done : callsSucceed 3 nf.iptcResults = true) :
    updateRuleAndCommit c index e nf =
      (0, (nf.withResults (nf.iptcResults.drop 3)).setChain c ((nf.chain c).set index e)) := by
  simp [updateRuleAndCommit, iptcCalls_done done]

theorem update_failed (c : Chain) (index : Nat) (e : IptEntry) {nf : Netfilter}
    (failed : callsSucceed 3 nf.iptcResults = false) :
    ∃ results, updateRuleAndCommit c index e nf = (-1, nf.withResults results) := by
  obtain ⟨results, calls⟩ := iptcCalls_failed failed
  exact ⟨results, by simp [updateRuleAndCommit, calls]⟩

theorem append_quiet (c : Chain) (e : IptEntry) {nf : Netfilter} (quiet : nf.Quiet) :
    iptcInitVerifyAndAppend c e nf = (0, nf.setChain c (nf.chain c ++ [e])) := by
  simp [iptcInitVerifyAndAppend, iptcCalls_quiet 4 quiet]

theorem append_cases (c : Chain) (e : IptEntry) (nf : Netfilter) :
    ∃ results,
      iptcInitVerifyAndAppend c e nf =
        (0, (nf.withResults results).setChain c (nf.chain c ++ [e])) ∨
      iptcInitVerifyAndAppend c e nf = (-1, nf.withResults results) := by
  obtain ⟨done, results, calls⟩ := iptcCalls_cases 4 nf
  refine ⟨results, ?_⟩
  cases done with
  | false => exact Or.inr (by simp [iptcInitVerifyAndAppend, calls])
  | true => exact Or.inl (by simp [iptcInitVerifyAndAppend, calls])

theorem delete_quiet (index : Nat) (c : Chain) {nf : Netfilter} (quiet : nf.Quiet) :
    deleteRuleAndCommit index c nf = (0, nf.setChain c ((nf.chain c).eraseIdx index)) := by
  simp [deleteRuleAndCommit, iptcCalls_quiet 2 quiet]

theorem delete_cases (index : Nat) (c : Chain) (nf : Netfilter) :
    ∃ results,
      deleteRuleAndCommit index c nf =
        (0, (nf.withResults results).setChain c ((nf.chain c).eraseIdx index)) ∨
      deleteRuleAndCommit index c nf = (-1, nf.withResults results) := by
  obtain ⟨done, results, calls⟩ := iptcCalls_cases 2 nf
  refine ⟨results, ?_⟩
  cases done with
  | false => exact Or.inr (by simp [deleteRuleAndCommit, calls])
  | true => exact Or.inl (by simp [deleteRuleAndCommit, calls])

theorem update_quiet (c : Chain) (index : Nat) (e : IptEntry) {nf : Netfilter}
    (quiet : nf.Quiet) :
    updateRuleAndCommit c index e nf = (0, nf.setChain c ((nf.chain c).set index e)) := by
  simp [updateRuleAndCommit, iptcCalls_quiet 3 quiet]

theorem update_cases (c : Chain) (index : Nat) (e : IptEntry) (nf : Netfilter) :
    ∃ results,
      updateRuleAndCommit c index e nf =
        (0, (nf.withResults results).setChain c ((nf.chain c).set index e)) ∨
      updateRuleAndCommit c index e nf = (-1, nf.withResults results) := by
  obtain ⟨done, results, calls⟩ := iptcCalls_cases 3 nf
  refine ⟨results, ?_⟩
  cases done with
  | false => exact Or.inr (by simp [updateRuleAndCommit, calls])
  | true => exact Or.inl (by simp [updateRuleAndCommit, calls])

end Iptc
