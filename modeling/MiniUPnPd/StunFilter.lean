import Mathlib.Data.Fin.VecNotation
import MiniUPnPd.Lib.EraseEach
import MiniUPnPd.Netfilter.IptcrdrSpec

/-!
The rules with which `perform_stun` opens its four local ports while it waits for answers.
`delete_filter_rule` takes the first rule for the protocol and the port, to whatever host. The
chain is as it was before exactly if no rule of a client has one of the ports, but for rules at
the end of the chain that an earlier run left there.
-/
namespace StunFilter
open EraseEach FirstMatch Inet Iptc Iptcrdr IptcrdrSpec
variable {nf : Netfilter}

def deleteFilterRule (port : UInt16) (proto : Int) (nf : Netfilter) : Int × Netfilter :=
  let (opened, nf) := iptcCall nf
  if opened then
    match findFirst (redirectMatches proto port) (nf.chain .forward) with
    | none => (-1, nf)
    | some (index, _) => deleteRuleAndCommit index .forward nf
  else (-1, nf)

/-- A rule that cannot be added is only logged. -/
def unblockLocalPorts (ifAddr : CString) (localPorts : List UInt16) (nf : Netfilter) : Netfilter :=
  localPorts.foldl (fun nf port => (addFilterRule2 none ifAddr port IPPROTO_UDP nf).2) nf

def removeUnblock (localPorts : List UInt16) (nf : Netfilter) : Netfilter :=
  localPorts.foldl (fun nf port => (deleteFilterRule port IPPROTO_UDP nf).2) nf

/-- The part of `perform_stun` that works on the filter rules. -/
def performStunFilter (ifAddr : CString) (localPorts : Fin 4 → UInt16) (nf : Netfilter) :
    Netfilter :=
  removeUnblock (List.ofFn localPorts) (unblockLocalPorts ifAddr (List.ofFn localPorts) nf)

def unblockRule (ifAddr : CString) (port : UInt16) : IptEntry :=
  filterRule IPPROTO_UDP none ifAddr port

theorem redirectMatches_unblockRule (ifAddr : CString) (port other : UInt16) :
    redirectMatches IPPROTO_UDP port (unblockRule ifAddr other) = true ↔ port = other := by
  have first : (portRange other).1 = other := by
    by_cases zero : other = 0
    · simp [portRange, zero]
    · simp [portRange, zero]
  have udp : IPPROTO_UDP = ((UInt16.ofInt IPPROTO_UDP).toNat : Int) := by decide
  simp only [redirectMatches, unblockRule, filterRule, first, ← udp, true_and, decide_eq_true_eq]

theorem redirectMatches_port {proto : Int} (port other : UInt16) (e : IptEntry)
    (hit : redirectMatches proto port e = true) (also : redirectMatches proto other e = true) :
    port = other := by
  simp only [redirectMatches, decide_eq_true_eq] at hit also
  exact hit.2.trans also.2.symm

theorem deleteFilterRule_quiet (quiet : nf.Quiet) (port : UInt16) (proto : Int) :
    (deleteFilterRule port proto nf).2 =
      nf.setChain .forward ((nf.chain .forward).eraseP (redirectMatches proto port)) := by
  simp only [deleteFilterRule, iptcCall_quiet quiet, ↓reduceIte]
  cases search : findFirst (redirectMatches proto port) (nf.chain .forward) with
  | none =>
    have kept := eraseP_of_find?_none (find?_of_findFirst_none search)
    simp only [kept, setChain_self]
  | some hit =>
    simp only [delete_quiet hit.1 .forward quiet, eraseIdx_of_findFirst search]

theorem setChain_setChain (nf : Netfilter) (c : Chain) (rules again : List IptEntry) :
    (nf.setChain c rules).setChain c again = nf.setChain c again := by
  simp [Netfilter.setChain]

theorem unblockLocalPorts_quiet (quiet : nf.Quiet) (ifAddr : CString) (localPorts : List UInt16) :
    unblockLocalPorts ifAddr localPorts nf =
      nf.setChain .forward (nf.chain .forward ++ localPorts.map (unblockRule ifAddr)) := by
  induction localPorts generalizing nf with
  | nil => simp [unblockLocalPorts]
  | cons port localPorts ih =>
    have added := append_quiet .forward (unblockRule ifAddr port) quiet
    have step : (addFilterRule2 none ifAddr port IPPROTO_UDP nf).2 =
        nf.setChain .forward (nf.chain .forward ++ [unblockRule ifAddr port]) :=
      congrArg Prod.snd added
    have rest := @ih (nf.setChain .forward (nf.chain .forward ++ [unblockRule ifAddr port]))
      (quiet_setChain.mpr quiet)
    simp only [unblockLocalPorts, List.foldl_cons, step]
    refine rest.trans ?_
    simp [setChain_setChain]

theorem removeUnblock_quiet (quiet : nf.Quiet) (localPorts : List UInt16) :
    removeUnblock localPorts nf =
      nf.setChain .forward
        (eraseEach (redirectMatches IPPROTO_UDP) localPorts (nf.chain .forward)) := by
  induction localPorts generalizing nf with
  | nil => simp [removeUnblock, eraseEach]
  | cons port localPorts ih =>
    have step := deleteFilterRule_quiet quiet port IPPROTO_UDP
    have rest := ih (quiet_setChain.mpr quiet : (nf.setChain .forward
      ((nf.chain .forward).eraseP (redirectMatches IPPROTO_UDP port))).Quiet)
    simp only [removeUnblock, List.foldl_cons, step]
    refine rest.trans ?_
    simp [setChain_setChain, eraseEach]

theorem performStunFilter_quiet (quiet : nf.Quiet) (ifAddr : CString)
    (localPorts : Fin 4 → UInt16) :
    performStunFilter ifAddr localPorts nf =
      nf.setChain .forward (eraseEach (redirectMatches IPPROTO_UDP) (List.ofFn localPorts)
        (nf.chain .forward ++ (List.ofFn localPorts).map (unblockRule ifAddr))) := by
  rw [performStunFilter, unblockLocalPorts_quiet quiet,
    removeUnblock_quiet (quiet_setChain.mpr quiet), setChain_setChain, chain_setChain, if_pos rfl]

/-- No rule of the chain is for one of the ports, but for rules of an earlier run at its end that
    come out in the order in which they stand. -/
def PortsFree (ifAddr : CString) (localPorts : List UInt16) (rules : List IptEntry) : Prop :=
  ∃ (others : List IptEntry) (leftover : List UInt16),
    rules = others ++ leftover.map (unblockRule ifAddr) ∧
      (∀ e ∈ others, ∀ port ∈ localPorts, redirectMatches IPPROTO_UDP port e = false) ∧
      (leftover ++ localPorts).diff localPorts = leftover

theorem chain_restored_iff (quiet : nf.Quiet) (ifAddr : CString) (localPorts : Fin 4 → UInt16) :
    (performStunFilter ifAddr localPorts nf).chain .forward = nf.chain .forward ↔
      PortsFree ifAddr (List.ofFn localPorts) (nf.chain .forward) := by
  rw [performStunFilter_quiet quiet, chain_setChain, if_pos rfl]
  exact restored_iff redirectMatches_port (redirectMatches_unblockRule ifAddr)

def oneClient (iport : UInt16) : Netfilter :=
  Netfilter.empty.setChain .forward [filterRule IPPROTO_UDP none "192.168.1.2".toList iport]

theorem chain_restored_oneClient :
    let localPorts := ![40000, 40001, 40002, 40003]
    (performStunFilter "192.0.2.1".toList localPorts (oneClient 5000)).chain .forward =
      (oneClient 5000).chain .forward := by
  intro localPorts
  have quiet : (oneClient 5000).Quiet := rfl
  have missed : ((oneClient 5000).chain .forward).all (fun e =>
      (List.ofFn localPorts).all fun port => !redirectMatches IPPROTO_UDP port e) = true := by
    decide +kernel
  apply (chain_restored_iff quiet _ _).mpr
  refine ⟨(oneClient 5000).chain .forward, [], by simp, ?_, by decide⟩
  intro e member port asked
  have other := List.all_eq_true.mp (List.all_eq_true.mp missed e member) port asked
  simpa using other

/-- The rule of a client is taken out, and the rule of the run stays in its place. -/
theorem client_rule_removed :
    let localPorts := ![40000, 40001, 40002, 40003]
    let after := (performStunFilter "192.0.2.1".toList localPorts (oneClient 40001)).chain .forward
    after = [unblockRule "192.0.2.1".toList 40001] ∧ after ≠ (oneClient 40001).chain .forward := by
  decide +kernel

end StunFilter
