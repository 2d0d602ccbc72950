import MiniUPnPd.Lib.Runs
import MiniUPnPd.Mappings
import MiniUPnPd.SdnRedirect
import MiniUPnPd.UpnpSoap

/-!
Whether the subscribers hear of each change in the number of port mappings. The call of
`upnp_event_var_change_notify` stands in some of the functions that change the table and
not in others: a redirection that is left without its filter rule is not announced, and
with SDN neither is the deletion of a range.
-/
namespace MappingEvents
open CText FirstMatch Inet Iptc Iptcrdr IptcrdrSpec LeaseFile Mappings Runs UpnpPermissions UpnpRedirect
  UpnpRedirectSpec UpnpSoap

section netfilter

/-- The operations that add and remove mappings. -/
inductive Op where
  | upnpRedirect (env : Env) (rhost : Option CString) (eport : UInt16) (iaddr : CString)
      (iport : UInt16) (protocol : CString) (desc : Option CString) (leaseduration : Nat)
  | upnpRedirectInternal (env : Env) (rhost : Option CString) (eport : UInt16) (iaddr : CString)
      (iport : UInt16) (proto : Int) (desc : CString) (timestamp : Nat)
  | upnpDeleteRedir (env : Env) (eport : UInt16) (proto : Int)
  | upnpDeleteRedirection (env : Env) (eport : UInt16) (protocol : CString)
  | deletePortMappingRange (env : SoapEnv) (h : Upnphttp)
  | getUpnpRulesStateList (env : Env) (maxRulesNumberTarget : Int)

def perform (d : Daemon) : Op → Daemon
  | .upnpRedirect env rhost eport iaddr iport protocol desc leaseduration =>
      (UpnpRedirect.upnpRedirect env rhost eport iaddr iport protocol desc leaseduration d).2
  | .upnpRedirectInternal env rhost eport iaddr iport proto desc timestamp =>
      (UpnpRedirect.upnpRedirectInternal env rhost eport iaddr iport proto desc timestamp d).2
  | .upnpDeleteRedir env eport proto => (UpnpRedirect.upnpDeleteRedir env eport proto d).2
  | .upnpDeleteRedirection env eport protocol =>
      (UpnpRedirect.upnpDeleteRedirection env eport protocol d).2
  | .deletePortMappingRange env h => (UpnpSoap.deletePortMappingRange env h d).2
  | .getUpnpRulesStateList env maxRulesNumberTarget =>
      (UpnpRedirect.getUpnpRulesStateList env maxRulesNumberTarget d).2

def numberOfEntries (d : Daemon) : Nat := (d.nf.chain .nat).length

/-- A change in the number of mappings is followed by the call that announces it. -/
def Announced (d d' : Daemon) : Prop :=
  numberOfEntries d' ≠ numberOfEntries d →
    ∃ made, d'.calls = d.calls ++ made ∧ .upnpEventVarChangeNotify ∈ made

def Announces (d : Daemon) (op : Op) : Prop := Announced d (perform d op)

/-- The new redirection does not get into the nat table and then lack the rules that go with
    it. -/
def Whole (env : Env) (d : Daemon) : Prop :=
  Enters env d → halfAdded env d.nf.iptcResults = false

def Meets (d : Daemon) : Op → Prop
  | .upnpRedirect env _ eport iaddr iport protocol _ _ =>
      ∀ address, inetAton iaddr = some address →
        checkUpnpRuleAgainstPermissions env.upnppermlist eport address iport = true →
        (d.lookup eport (protoAtoi protocol)).1 = none →
        ¬ (env.checkPortinuse = true ∧ env.portInUse eport (protoAtoi protocol) iaddr iport = true) →
        Whole env (d.lookup eport (protoAtoi protocol)).2
  | .upnpRedirectInternal env _ _ _ _ _ _ _ => Whole env d
  | _ => True

/-- What is announced on the way from one state to another. -/
def Told (d d' : Daemon) : Prop :=
  ∃ made, d'.calls = d.calls ++ made ∧
    (numberOfEntries d' ≠ numberOfEntries d → .upnpEventVarChangeNotify ∈ made)

section told
variable {d d' d'' : Daemon}

theorem told_quietly (calls : d'.calls = d.calls) (same : numberOfEntries d' = numberOfEntries d) :
    Told d d' :=
  ⟨[], by simp [calls], fun changed => absurd same changed⟩

theorem Told.trans (first : Told d d') (second : Told d' d'') : Told d d'' := by
  obtain ⟨made, calls, told⟩ := first
  obtain ⟨made', calls', told'⟩ := second
  refine ⟨made ++ made', by rw [calls', calls, List.append_assoc], ?_⟩
  intro changed
  by_cases mid : numberOfEntries d' = numberOfEntries d
  · exact List.mem_append_right _ (told' (mid ▸ changed))
  · exact List.mem_append_left _ (told mid)

theorem announced_of_told (told : Told d d') : Announced d d' := by
  obtain ⟨made, calls, announced⟩ := told
  exact fun changed => ⟨made, calls, announced changed⟩

theorem delete_told (env : Env) (eport : UInt16) (proto : Int) (d : Daemon) :
    Told d (UpnpRedirect.upnpDeleteRedir env eport proto d).2 := by
  refine ⟨[.upnpEventVarChangeNotify], ?_, fun _ => List.mem_singleton_self _⟩
  unfold UpnpRedirect.upnpDeleteRedir fileRemove
  dsimp only
  split <;> rfl

theorem deleteAll_told (env : Env) (protocol : CString) (entryList : List UInt16) (d : Daemon) :
    Told d (deleteAll env protocol entryList d) := by
  unfold deleteAll
  induction entryList generalizing d with
  | nil => exact told_quietly rfl rfl
  | cons eport entryList ih => exact (delete_told env eport _ d).trans (ih _)

theorem range_told (env : SoapEnv) (h : Upnphttp) (d : Daemon) :
    Told d (UpnpSoap.deletePortMappingRange env h d).2 := by
  unfold UpnpSoap.deletePortMappingRange
  cases rangeArguments h with
  | error reply => exact told_quietly rfl rfl
  | ok given =>
    obtain ⟨startport, endport, protocol⟩ := given
    have read : Told d (upnpGetPortmappingsInRange startport endport protocol d).2 := by
      obtain ⟨done, results, calls⟩ := iptcCalls_cases 2 d.nf
      unfold upnpGetPortmappingsInRange getPortmappingsInRange
      simp only [calls]
      exact told_quietly rfl rfl
    dsimp only
    split
    · exact read
    · exact read.trans (deleteAll_told _ _ _ _)

theorem removeExpired_told (env : Env) (list : List RuleState) (d : Daemon) :
    Told d (removeExpired env list d) := by
  unfold removeExpired
  induction list generalizing d with
  | nil => exact told_quietly rfl rfl
  | cons state list ih =>
    rw [List.foldl_cons]
    split
    · exact (delete_told env _ _ d).trans (ih _)
    · exact ih d

theorem collect_told (now fuel i : Nat) (list : List RuleState) (d : Daemon) :
    Told d (collectRuleStates now fuel i list d).2 := by
  induction fuel generalizing i list d with
  | zero => exact told_quietly rfl rfl
  | succ fuel ih =>
    obtain ⟨done, results, calls⟩ := iptcCalls_cases 2 d.nf
    unfold collectRuleStates
    split
    · rename_i nf missing
      simp only [getRedirectRuleByIndex, calls, Prod.mk.injEq] at missing
      rw [← missing.2]
      exact told_quietly rfl rfl
    · rename_i rule nf found
      simp only [getRedirectRuleByIndex, calls, Prod.mk.injEq] at found
      refine Told.trans ?_ (ih _ _ _)
      rw [← found.2]
      exact told_quietly rfl rfl

theorem clean_told (env : Env) (maxRulesNumberTarget : Int) (d : Daemon) :
    Told d (UpnpRedirect.getUpnpRulesStateList env maxRulesNumberTarget d).2 := by
  unfold UpnpRedirect.getUpnpRulesStateList
  dsimp only
  have restarted : Told d { d with nextruletocleanTimestamp := 0 } := told_quietly rfl rfl
  exact restarted.trans ((collect_told _ _ _ _ _).trans (removeExpired_told _ _ _))

/-- What `upnp_redirect_internal` leaves behind: a redirection that lacks its filter rule is
    not announced. -/
theorem internal_outcome (env : Env) (rhost : Option CString) (eport : UInt16) (iaddr : CString)
    (iport : UInt16) (proto : Int) (desc : CString) (timestamp : Nat) (d : Daemon) :
    let d' := (UpnpRedirect.upnpRedirectInternal env rhost eport iaddr iport proto desc timestamp
      d).2
    ¬ Enters env d ∧ numberOfEntries d' = numberOfEntries d ∨
      Enters env d ∧ numberOfEntries d' = numberOfEntries d + 1 ∧
        d'.calls = d.calls ++
          Call.upnpRedirectInternal rhost eport iaddr iport proto desc timestamp true ::
            if halfAdded env d.nf.iptcResults then [] else [.upnpEventVarChangeNotify] := by
  dsimp only
  have calls := upnpRedirectInternal_calls env rhost eport iaddr iport proto desc timestamp d
  rcases upnpRedirectInternal_cases env rhost eport iaddr iport proto desc timestamp d with
    ⟨refused, same, _⟩ | ⟨enters, ⟨nat, _⟩, _⟩
  · exact Or.inl ⟨refused, congrArg List.length same⟩
  · have long := congrArg List.length nat
    simp only [tables_nat, describe, List.length_append, List.length_singleton] at long
    right
    refine ⟨enters, long, ?_⟩
    rw [calls]
    cases half : halfAdded env d.nf.iptcResults with
    | true => simp [enters]
    | false => simp [enters]

end told

/-- The calls recorded before `upnp_redirect_internal` are of other functions. -/
theorem internal_announced_iff {d mid : Daemon} {made : List Call}
    (before : mid.calls = d.calls ++ made) (silent : .upnpEventVarChangeNotify ∉ made)
    (same : numberOfEntries mid = numberOfEntries d) (env : Env) (rhost : Option CString)
    (eport : UInt16) (iaddr : CString) (iport : UInt16) (proto : Int) (desc : CString)
    (timestamp : Nat) :
    Announced d
        (UpnpRedirect.upnpRedirectInternal env rhost eport iaddr iport proto desc timestamp mid).2 ↔
      Whole env mid := by
  unfold Announced Whole
  rcases internal_outcome env rhost eport iaddr iport proto desc timestamp mid with
    ⟨refused, unchanged⟩ | ⟨enters, longer, calls⟩
  · simp [unchanged, same, refused]
  · cases half : halfAdded env mid.nf.iptcResults with
    | false => simp [longer, same, enters, calls, before, half]
    | true => simp [longer, same, enters, calls, before, half, silent]

theorem updateExisting_length (env : Env) (eport : UInt16) (proto : Int) (iport iportOld : UInt16)
    (desc : CString) (timestamp : Nat) (nf : Netfilter) :
    ((updateExisting env eport proto iport iportOld desc timestamp nf).2.chain .nat).length =
      (nf.chain .nat).length := by
  rcases (updateExisting_cases env eport iport proto desc timestamp iportOld nf).1 with
    same | changed
  · exact congrArg List.length same
  · exact (congrArg List.length changed).trans (length_updateFirst _ _ _)

theorem renew_told (env : Env) (rhost : Option CString) (eport : UInt16) (iaddr : CString)
    (iport : UInt16) (proto : Int) (desc : CString) (leaseduration : Nat) (old : RedirectRule)
    (d : Daemon) :
    Told d (renew env rhost eport iaddr iport proto desc leaseduration old d).2 := by
  unfold renew
  split
  · dsimp only
    split
    · refine told_quietly (by simp) ?_
      simp only [numberOfEntries, fileAdd_nf, fileRemove_nf, withNf_nf, updateExisting_length]
    · refine told_quietly rfl ?_
      simp only [numberOfEntries, withNf_nf, updateExisting_length]
  · exact told_quietly rfl rfl

theorem redirect_announced_iff (env : Env) (rhost : Option CString) (eport : UInt16)
    (iaddr : CString) (iport : UInt16) (protocol : CString) (desc : Option CString)
    (leaseduration : Nat) (d : Daemon) :
    Announced d
        (UpnpRedirect.upnpRedirect env rhost eport iaddr iport protocol desc leaseduration d).2 ↔
      Meets d (.upnpRedirect env rhost eport iaddr iport protocol desc leaseduration) := by
  have recorded : Told d
      (d.record (.upnpRedirect rhost eport iaddr iport protocol desc leaseduration)) :=
    ⟨[_], rfl, fun changed => absurd rfl changed⟩
  simp only [Meets]
  unfold UpnpRedirect.upnpRedirect
  dsimp only
  cases parsed : inetAton iaddr with
  | none => simpa using announced_of_told recorded
  | some address =>
    dsimp only
    cases permitted : checkUpnpRuleAgainstPermissions env.upnppermlist eport address iport with
    | false => simpa [permitted] using announced_of_told recorded
    | true =>
      simp only [↓reduceIte]
      have looked : ∀ call, (d.record call).lookup eport (protoAtoi protocol) =
          ((d.lookup eport (protoAtoi protocol)).1,
            (d.lookup eport (protoAtoi protocol)).2.record call) := fun _ => rfl
      rw [looked]
      have same : numberOfEntries (d.lookup eport (protoAtoi protocol)).2 = numberOfEntries d :=
        congrArg List.length (lookup_tables d eport (protoAtoi protocol)).1
      have calls : (d.lookup eport (protoAtoi protocol)).2.calls = d.calls := rfl
      dsimp only
      cases found : (d.lookup eport (protoAtoi protocol)).1 with
      | some old =>
        have asked : Told d ((d.lookup eport (protoAtoi protocol)).2.record
            (.upnpRedirect rhost eport iaddr iport protocol desc leaseduration)) :=
          ⟨[_], rfl, fun changed => absurd same changed⟩
        have renewed := asked.trans (renew_told env rhost eport iaddr iport (protoAtoi protocol)
          (desc.getD []) leaseduration old _)
        simpa using announced_of_told renewed
      | none =>
        have before : ((d.lookup eport (protoAtoi protocol)).2.record
            (.upnpRedirect rhost eport iaddr iport protocol desc leaseduration)).calls =
            d.calls ++ [.upnpRedirect rhost eport iaddr iport protocol desc leaseduration] := rfl
        have internal := internal_announced_iff before (by simp) same env rhost eport iaddr iport
          (protoAtoi protocol) (desc.getD []) (expiryTime env leaseduration)
        dsimp only
        split
        · rename_i taken
          constructor
          · intro _ _ _ _ _ free
            exact absurd taken free
          · intro _ changed
            exact absurd same changed
        · rename_i free
          rw [internal]
          simp [permitted, free, Whole, Enters]

theorem announces_iff (d : Daemon) (op : Op) : Announces d op ↔ Meets d op := by
  cases op with
  | upnpRedirect env rhost eport iaddr iport protocol desc leaseduration =>
    exact redirect_announced_iff env rhost eport iaddr iport protocol desc leaseduration d
  | upnpRedirectInternal env rhost eport iaddr iport proto desc timestamp =>
    exact internal_announced_iff (List.append_nil _).symm List.not_mem_nil rfl env rhost eport
      iaddr iport proto desc timestamp
  | upnpDeleteRedir env eport proto =>
    exact iff_of_true (announced_of_told (delete_told env eport proto d)) trivial
  | upnpDeleteRedirection env eport protocol =>
    exact iff_of_true (announced_of_told (delete_told env eport (protoAtoi protocol) d)) trivial
  | deletePortMappingRange env h =>
    exact iff_of_true (announced_of_told (range_told env h d)) trivial
  | getUpnpRulesStateList env maxRulesNumberTarget =>
    exact iff_of_true (announced_of_told (clean_told env maxRulesNumberTarget d)) trivial

end netfilter

section sdn
open SdnRedirect
variable {σ : Type*} (controller : Controller σ)

inductive SdnOp where
  | upnpRedirect (env : SdnEnv) (rhost : CString) (eport : UInt16) (iaddr : CString)
      (iport : UInt16) (protocol : CString) (leaseduration : Nat)
      (allowedRdrPorts : Option (List PortRange))
  | upnpRedirectInternal (env : SdnEnv) (rhost : CString) (eport : UInt16) (iaddr : CString)
      (iport : UInt16) (proto : CString) (leaseduration : Nat)
      (allowedRdrPorts : Option (List PortRange))
  | upnpDeleteRedir (rhost : CString) (eport : UInt16) (proto : CString)
  | upnpDeletePortmappingsInRange (startport endport : UInt16) (protocol : CString)

def sdnPerform (d : SdnDaemon σ) : SdnOp → SdnDaemon σ
  | .upnpRedirect env rhost eport iaddr iport protocol leaseduration allowedRdrPorts =>
      (SdnRedirect.upnpRedirect controller env rhost eport iaddr iport protocol leaseduration
        allowedRdrPorts d).2.2
  | .upnpRedirectInternal env rhost eport iaddr iport proto leaseduration allowedRdrPorts =>
      (SdnRedirect.upnpRedirectInternal controller env rhost eport iaddr iport proto leaseduration
        allowedRdrPorts d).2.2
  | .upnpDeleteRedir rhost eport proto =>
      (SdnRedirect.upnpDeleteRedir controller rhost eport proto d).2
  | .upnpDeletePortmappingsInRange startport endport protocol =>
      (SdnRedirect.upnpDeletePortmappingsInRange controller startport endport protocol d).2

def SdnAnnounces (d : SdnDaemon σ) (op : SdnOp) : Prop :=
  controller.number (sdnPerform controller d op).controller ≠ controller.number d.controller →
    d.notified < (sdnPerform controller d op).notified

/-- The answers that count as an added mapping; with a choice of ports one of them has to
    come back. -/
def accepted (env : SdnEnv) (choice : Bool) (hm : HttpMessage) : Bool :=
  retrieveResponseStatus hm = .OK_200 &&
    match retrieveIntFromJsonObj hm.body "return_code" with
    | some 0 => !choice || (retrievePortNumberFromJsonObj env.stack hm.body "eport").isSome
    | some 1 => !choice
    | _ => false

/-- A request that changes the table of the controller is answered as an added mapping. -/
def Answered (env : SdnEnv) (request : AddRequest) (d : SdnDaemon σ) : Prop :=
  let answer := controller.addPortMapping request d.controller
  env.disablePortForwarding = false → controller.number answer.2 ≠ controller.number d.controller →
    ∃ hm, answer.1 = some hm ∧ accepted env request.permitPortRange.isSome hm = true

def SdnMeets (d : SdnDaemon σ) : SdnOp → Prop
  | .upnpRedirect env rhost eport iaddr iport protocol leaseduration allowedRdrPorts =>
      inetAton iaddr ≠ none → Answered controller env
        (addRequest rhost eport iaddr iport protocol leaseduration allowedRdrPorts) d
  | .upnpRedirectInternal env rhost eport iaddr iport proto leaseduration allowedRdrPorts =>
      Answered controller env
        (addRequest rhost eport iaddr iport proto leaseduration allowedRdrPorts) d
  | .upnpDeleteRedir _ _ _ => True
  | .upnpDeletePortmappingsInRange startport endport protocol =>
      controller.number (controller.deletePortMappingRange
        { proto := protocol, startPortNum := startport, endPortNum := endport } d.controller).2 =
      controller.number d.controller

section
variable {controller} {d : SdnDaemon σ}

theorem addResult_none (env : SdnEnv) : addResult env (connRuntimeVars none) = (-1, none) := rfl

theorem accepted_iff (env : SdnEnv) (choice : Bool) (hm : HttpMessage) :
    accepted env choice hm = true ↔
      (addResult env (connRuntimeVars (some hm))).1 = 0 ∨
        choice = false ∧ (addResult env (connRuntimeVars (some hm))).1 = 1 := by
  unfold accepted addResult connRuntimeVars
  dsimp only
  by_cases ok : retrieveResponseStatus hm = .OK_200
  · simp only [ok, decide_true, Bool.true_and, reduceCtorEq, ↓reduceIte, ne_eq, not_true_eq_false]
    cases retrieveIntFromJsonObj hm.body "return_code" with
    | none => simp
    | some retCode =>
      by_cases zero : retCode = 0
      · cases retrievePortNumberFromJsonObj env.stack hm.body "eport" with
        | none => simp [zero]
        | some eport => simp [zero]
      · by_cases one : retCode = 1
        · simp [one]
        · simp [zero, one]
  · by_cases conflict : retrieveResponseStatus hm = .CONFLICT_409
    · simp [conflict]
    · simp [ok, conflict]

theorem addRedirect_zero_iff (env : SdnEnv) (request : AddRequest) :
    (addRedirectAndFilterRules controller env request d).1 = 0 ↔
      ∃ hm, (controller.addPortMapping request d.controller).1 = some hm ∧
        accepted env false hm = true := by
  unfold addRedirectAndFilterRules
  dsimp only
  cases (controller.addPortMapping request d.controller).1 with
  | none => simp [addResult_none]
  | some hm =>
    simp only [Option.some.injEq, exists_eq_left', accepted_iff]
    grind

theorem addAnyRedirect_zero_iff (env : SdnEnv) (request : AddRequest) :
    (addAnyRedirectAndFilterRules controller env request d).1 = 0 ↔
      ∃ hm, (controller.addPortMapping request d.controller).1 = some hm ∧
        accepted env true hm = true := by
  unfold addAnyRedirectAndFilterRules
  dsimp only
  cases (controller.addPortMapping request d.controller).1 with
  | none => simp [addResult_none]
  | some hm =>
    simp only [Option.some.injEq, exists_eq_left', accepted_iff]
    grind

/-- The last step of `upnp_redirect_internal`. -/
theorem counted_iff (r : Int) (port : Option UInt16) (mid : SdnDaemon σ)
    (same : mid.notified = d.notified) :
    let after := if r = 0 then (r, port, { mid with notified := mid.notified + 1 })
      else (r, port, mid)
    (controller.number after.2.2.controller ≠ controller.number d.controller →
        d.notified < after.2.2.notified) ↔
      (controller.number mid.controller ≠ controller.number d.controller → r = 0) := by
  dsimp only
  split
  · rename_i zero
    simp [zero, same]
  · rename_i other
    simp [other, same]

theorem internal_announces_iff (env : SdnEnv) (rhost : CString) (eport : UInt16)
    (iaddr : CString) (iport : UInt16) (proto : CString) (leaseduration : Nat)
    (allowedRdrPorts : Option (List PortRange)) :
    SdnAnnounces controller d (.upnpRedirectInternal env rhost eport iaddr iport proto
      leaseduration allowedRdrPorts) ↔
    Answered controller env (addRequest rhost eport iaddr iport proto leaseduration
      allowedRdrPorts) d := by
  unfold SdnAnnounces Answered
  simp only [sdnPerform, SdnRedirect.upnpRedirectInternal]
  cases env.disablePortForwarding with
  | true => simp
  | false =>
    cases allowedRdrPorts with
    | none =>
      have zero := @addRedirect_zero_iff _ controller d env
        (addRequest rhost eport iaddr iport proto leaseduration none)
      have same : (addRedirectAndFilterRules controller env
        (addRequest rhost eport iaddr iport proto leaseduration none) d).2.notified =
          d.notified := rfl
      simp only [Option.isSome_none, Bool.false_eq_true, ↓reduceIte, forall_const]
      refine (counted_iff _ _ _ same).trans ?_
      exact imp_congr Iff.rfl zero
    | some ranges =>
      have zero := @addAnyRedirect_zero_iff _ controller d env
        (addRequest rhost eport iaddr iport proto leaseduration (some ranges))
      have same : (addAnyRedirectAndFilterRules controller env
        (addRequest rhost eport iaddr iport proto leaseduration (some ranges)) d).2.2.notified =
          d.notified := rfl
      simp only [Option.isSome_some, Bool.false_eq_true, ↓reduceIte, forall_const]
      refine (counted_iff _ _ _ same).trans ?_
      exact imp_congr Iff.rfl zero

theorem sdnAnnounces_iff (op : SdnOp) : SdnAnnounces controller d op ↔ SdnMeets controller d op := by
  cases op with
  | upnpRedirect env rhost eport iaddr iport protocol leaseduration allowedRdrPorts =>
    have internal := @internal_announces_iff _ controller d env rhost eport iaddr iport protocol
      leaseduration allowedRdrPorts
    unfold SdnAnnounces SdnMeets at *
    simp only [sdnPerform, SdnRedirect.upnpRedirect] at *
    cases inetAton iaddr with
    | none => simp
    | some address => simpa using internal
  | upnpRedirectInternal env rhost eport iaddr iport proto leaseduration allowedRdrPorts =>
    exact internal_announces_iff env rhost eport iaddr iport proto leaseduration allowedRdrPorts
  | upnpDeleteRedir rhost eport proto =>
    exact iff_of_true (fun _ => Nat.lt_succ_self _) trivial
  | upnpDeletePortmappingsInRange startport endport protocol =>
    unfold SdnAnnounces SdnMeets
    exact ⟨fun announced => by_contra fun changed => Nat.lt_irrefl _ (announced changed),
      fun same changed => absurd same changed⟩

end

end sdn

/-- Every change of every run is announced exactly if each operation of the run meets its
    condition, for a build without SDN and for one with it. -/
theorem changes_announced_iff (d : Daemon) (ops : List Op) {σ : Type*}
    (controller : SdnRedirect.Controller σ) (sdn : SdnRedirect.SdnDaemon σ)
    (sdnOps : List SdnOp) :
    (Admitted perform Announces d ops ↔ Admitted perform Meets d ops) ∧
      (Admitted (sdnPerform controller) (SdnAnnounces controller) sdn sdnOps ↔
        Admitted (sdnPerform controller) (SdnMeets controller) sdn sdnOps) :=
  ⟨admitted_congr announces_iff d ops,
    admitted_congr (fun _ op => sdnAnnounces_iff op) sdn sdnOps⟩

/-- The four calls for the redirection succeed, the first of the next four does not. -/
def oneShort : Daemon :=
  { Daemon.start none with
    nf := Netfilter.empty.withResults [true, true, true, true, false] }

/-- A table of one mapping, which a deletion by range empties. -/
def oneMapping : SdnRedirect.Controller Nat :=
  { number := id
    addPortMapping := fun _ n => (none, n)
    deletePortMapping := fun _ n => (none, n)
    deletePortMappingRange := fun _ _ =>
      (some { status := "200".toList
              body := .object [("deleted".toList, .array [.int 8080])] }, 0) }

theorem half_added_and_range_not_announced :
    ¬ Admitted perform Announces oneShort
        [.upnpRedirectInternal (Env.plain 0) none 8080 "192.168.1.2".toList 80 6 [] 0] ∧
      ¬ Admitted (sdnPerform oneMapping) (SdnAnnounces oneMapping)
          { controller := 1, notified := 0 }
          [.upnpDeletePortmappingsInRange 8000 9000 "TCP".toList] := by
  constructor
  · intro run
    have whole : Whole (Env.plain 0) oneShort := (announces_iff oneShort _).mp run.1
    have missing := whole (by decide)
    revert missing
    decide
  · intro run
    have told := run.1
    revert told
    unfold SdnAnnounces
    decide

end MappingEvents
