import MiniUPnPd.OnosClient

/-!
When the operations at the controller report success. Each waits for its connection, takes status
200 and then reads what it needs of the body. Deleting needs nothing of it, so that no answer at
all is a success, and the result of adding shares its numbers with the codes of the controller.
-/
namespace ControllerAnswers
open CText SdnRedirect SdnPortmappings SdnRules OnosClient

structure IgdIfaceStatus where
  status : CString
  baudrate : Nat
  obytes : Nat
  ibytes : Nat
  opackets : Nat
  ipackets : Nat

/-- A result of 0 where the response has what is asked for. -/
def foundResult {α : Type} (vars : ConnRuntimeVars) (found : Option α) : Int :=
  if vars.responseCode ≠ .OK_200 then -1
  else
    match found with
    | none => -1
    | some _ => 0

section results
variable (env : SdnEnv) (stack : Nat → String → Int) (vars : ConnRuntimeVars)

/-- The results follow the wait. The copies into the buffers of the caller are left out. -/
def addRedirect : Int :=
  let retCode := (addResult env vars).1
  if retCode = 1 then 0
  else if retCode = 0 then 0
  else if retCode = -2 then -4
  else if retCode = -3 then -2
  else -1

def addAnyRedirect : Int :=
  let retCode := (addResult env vars).1
  if retCode = 1 then -1
  else if retCode = 0 then 0
  else if retCode = -2 then -1
  else if retCode = -3 then 1
  else -1

def getRule (request : GetRequest) : Int :=
  foundResult vars (requestedEntry (stack 0) request vars.response)

def getRuleByIndex : Int := foundResult vars (retrieveEntry (stack 0) vars.response)

def deleteRule : Int := if vars.responseCode ≠ .OK_200 then -1 else 0

/-- NULL is `none`. -/
def getPortmappingsInRange : Option (List PortmappingEntry) :=
  if vars.responseCode ≠ .OK_200 then none
  else retrievePortmappingArrayFromJsonObj stack vars.response "portmapping"

def deletePortmappingsInRange : Int :=
  foundResult vars (retrievePortNumberArrayFromJsonObj vars.response "deleted")

def getSdnIgdExternalIpAddr (maxLen : Nat) : Int :=
  if vars.responseCode ≠ .OK_200 then -1
  else
    match retrieveStringFromJsonObj vars.response "ext_ip_addr" with
    | none => -1
    | some ip => if ip.length ≤ maxLen then 0 else -1

def getSdnIgdWanConnStatus : Int :=
  if vars.responseCode ≠ .OK_200 then -1
  else
    match retrieveStringFromJsonObj vars.response "wan_conn_status" with
    | none => -1
    | some wanConnStat => if wanConnStat.take 9 ≠ "connected".toList then -1 else 0

/-- With the data for a result of 0. -/
def getSdnIgdIfaceStatus : Option IgdIfaceStatus :=
  if vars.responseCode ≠ .OK_200 then none
  else do
    let status ← retrieveStringFromJsonObj vars.response "iface_status"
    let baudrate ← retrieveUnsignedIntFromJsonObj vars.response "baudrate"
    let obytes ← retrieveUnsignedIntFromJsonObj vars.response "total_bytes_sent"
    let ibytes ← retrieveUnsignedIntFromJsonObj vars.response "total_bytes_received"
    let opackets ← retrieveUnsignedIntFromJsonObj vars.response "total_packets_sent"
    let ipackets ← retrieveUnsignedIntFromJsonObj vars.response "total_packets_received"
    some { status, baudrate, obytes, ibytes, opackets, ipackets }

end results

theorem foundResult_zero {α : Type} (vars : ConnRuntimeVars) (found : Option α) :
    foundResult vars found = 0 ↔ vars.responseCode = .OK_200 ∧ found.isSome := by
  unfold foundResult
  by_cases ok : vars.responseCode = .OK_200
  · cases found with
    | none => simp [ok]
    | some a => simp [ok]
  · simp [ok]

section callers
variable {σ : Type*} (controller : RuleController σ) (env : SdnEnv) (stack : Nat → String → Int)

theorem addRedirect_controller (request : AddRequest) (d : SdnDaemon σ) :
    (addRedirectAndFilterRules controller.toController env request d).1 =
      addRedirect env (connRuntimeVars (controller.addPortMapping request d.controller).1) := rfl

theorem addAnyRedirect_controller (request : AddRequest) (d : SdnDaemon σ) :
    (addAnyRedirectAndFilterRules controller.toController env request d).1 =
      addAnyRedirect env (connRuntimeVars (controller.addPortMapping request d.controller).1) := rfl

theorem deleteRule_controller (rhost : CString) (eport : UInt16) (proto : CString)
    (d : SdnDaemon σ) :
    (deleteRedirectAndFilterRules controller.toController rhost eport proto d).1 =
      deleteRule (connRuntimeVars
        (controller.deletePortMapping { rhost, eport, proto } d.controller).1) := by
  unfold deleteRedirectAndFilterRules deleteRule
  dsimp only
  rw [ite_not]

theorem deleteRange_controller (startport endport : UInt16) (protocol : CString)
    (d : SdnDaemon σ) :
    (upnpDeletePortmappingsInRange controller.toController startport endport protocol d).1.isSome ↔
      deletePortmappingsInRange (connRuntimeVars (controller.deletePortMappingRange
        { proto := protocol, startPortNum := startport, endPortNum := endport }
          d.controller).1) = 0 := by
  rw [deletePortmappingsInRange, foundResult_zero]
  unfold upnpDeletePortmappingsInRange
  dsimp only
  generalize connRuntimeVars _ = vars
  by_cases ok : vars.responseCode = .OK_200
  · simp [ok]
  · simp [ok]

theorem bind_some {α β : Type} {x : Except CBuffer.Fault β}
    {f : β → Except CBuffer.Fault (Option α)}
    (some : ∀ b, f b ≠ .ok none) : x >>= f ≠ .ok none := by
  cases x with
  | error fault =>
    intro impossible
    cases impossible
  | ok b => exact some b

theorem map_some {α : Type} (x : Except CBuffer.Fault α) : x.map some ≠ .ok none := by
  intro impossible
  cases x with
  | error fault => cases impossible
  | ok a => cases impossible

theorem writeRule_some (entry : PortmappingEntry) (iaddr : Option (List Char)) (iaddrlen : Nat)
    (desc : Option (List Char)) (desclen : Nat) :
    writeRule entry iaddr iaddrlen desc desclen ≠ .ok none := by
  apply bind_some
  intro iaddr
  apply bind_some
  intro desc impossible
  cases impossible

theorem writeRuleByIndex_some (entry : PortmappingEntry) (iaddr : Option (List Char))
    (iaddrlen : Nat) (proto desc : Option (List Char)) (desclen : Nat) (rhost : Option (List Char))
    (rhostlen : Nat) :
    writeRuleByIndex entry iaddr iaddrlen proto desc desclen rhost rhostlen ≠ .ok none := by
  apply bind_some
  intro proto
  apply bind_some
  intro rhost
  apply bind_some
  intro iaddr
  apply bind_some
  intro desc impossible
  cases impossible

/-- The copies of a lookup do not decide whether it succeeds. -/
theorem getRule_controller (eport : UInt16) (proto : CString) (iaddr : Option (List Char))
    (iaddrlen : Nat) (desc : Option (List Char)) (desclen : Nat) (rhost : CString) (s : σ) :
    (getRedirectRule controller (stack 0) eport proto iaddr iaddrlen desc desclen (some rhost)
        s).1 ≠ .ok none ↔
      getRule stack (connRuntimeVars (controller.getPortMapping { rhost, eport, proto } s).1)
        { rhost, eport, proto } = 0 := by
  rw [getRule, foundResult_zero]
  unfold getRedirectRule
  dsimp only
  generalize connRuntimeVars _ = vars
  by_cases ok : vars.responseCode = .OK_200
  · rw [if_neg (not_not_intro ok), and_iff_right ok]
    cases requestedEntry (stack 0) { rhost, eport, proto } vars.response with
    | none => simp
    | some entry => simp [writeRule_some]
  · rw [if_pos ok]
    simp [ok]

theorem getRuleByIndex_controller (index : Int) (iaddr : Option (List Char)) (iaddrlen : Nat)
    (proto desc : Option (List Char)) (desclen : Nat) (rhost : Option (List Char))
    (rhostlen : Nat) (s : σ) :
    (getRedirectRuleByIndex controller (stack 0) index iaddr iaddrlen proto desc desclen rhost
        rhostlen s).1 ≠ .ok none ↔
      getRuleByIndex stack (connRuntimeVars (controller.getPortMappingByIndex index s).1) = 0 := by
  rw [getRuleByIndex, foundResult_zero]
  unfold getRedirectRuleByIndex
  dsimp only
  generalize connRuntimeVars _ = vars
  by_cases ok : vars.responseCode = .OK_200
  · rw [if_neg (not_not_intro ok), and_iff_right ok]
    cases retrieveEntry (stack 0) vars.response with
    | none => simp
    | some entry => simp [writeRuleByIndex_some]
  · rw [if_pos ok]
    simp [ok]

theorem extIpAddr_controller (retAddr : Option (List Char)) (maxLen : Nat) (s : σ) :
    (SdnRules.getSdnIgdExternalIpAddr controller retAddr maxLen s).1 ≠ .ok none ↔
      getSdnIgdExternalIpAddr (connRuntimeVars (controller.getExtIpAddr s).1) maxLen = 0 := by
  unfold SdnRules.getSdnIgdExternalIpAddr getSdnIgdExternalIpAddr
  dsimp only
  generalize connRuntimeVars _ = vars
  by_cases ok : vars.responseCode = .OK_200
  · rw [if_neg (not_not_intro ok), if_neg (not_not_intro ok)]
    cases SdnPortmappings.retrieveStringFromJsonObj vars.response "ext_ip_addr" with
    | none => simp
    | some ip =>
      dsimp only
      by_cases short : ip.length ≤ maxLen
      · rw [if_pos short, if_pos short]
        exact iff_of_true (map_some _) rfl
      · simp [short]
  · rw [if_pos ok, if_pos ok]
    simp

end callers

/-- The operations, with those of their arguments that the answer is compared with. -/
inductive Operation where
  | add
  | addAny
  | get (request : GetRequest)
  | getByIndex
  | delete
  | getRange
  | deleteRange
  | extIpAddr (maxLen : Nat)
  | wanConnStatus
  | ifaceStatus

def returnCode (body : Json) : Option Json := objectGet body "return_code"

namespace Operation

def handler : Operation → Handler
  | add | addAny => onosAddIGDPortMapping
  | get _ => onosGetIGDPortMapping
  | getByIndex => onosGetIGDPortMappingByIndex
  | delete => onosDeleteIGDPortMapping
  | getRange => onosGetIGDPortMappingRange
  | deleteRange => onosDeleteIGDPortMappingRange
  | extIpAddr _ => onosGetExtIpAddr
  | wanConnStatus => onosGetWanConnectionStatus
  | ifaceStatus => onosGetIGDRuntimeStatus

def adds : Operation → Bool
  | add | addAny => true
  | _ => false

section
variable (env : SdnEnv) (stack : Nat → String → Int)

def succeeds (op : Operation) (vars : ConnRuntimeVars) : Bool :=
  match op with
  | add => addRedirect env vars = 0
  | addAny => addAnyRedirect env vars = 0
  | get request => getRule stack vars request = 0
  | getByIndex => getRuleByIndex stack vars = 0
  | delete => deleteRule vars = 0
  | getRange => (getPortmappingsInRange stack vars).isSome
  | deleteRange => deletePortmappingsInRange vars = 0
  | extIpAddr maxLen => getSdnIgdExternalIpAddr vars maxLen = 0
  | wanConnStatus => getSdnIgdWanConnStatus vars = 0
  | ifaceStatus => (getSdnIgdIfaceStatus vars).isSome

/-- What the operation needs of a body. -/
def Reads (op : Operation) (body : Json) : Prop :=
  match op with
  | add => returnCode body = some (.int 0) ∨ returnCode body = some (.int 1)
  | addAny =>
      returnCode body = some (.int 0) ∧
        (retrievePortNumberFromJsonObj env.stack body "eport").isSome
  | get request => (requestedEntry (stack 0) request body).isSome
  | getByIndex => (retrieveEntry (stack 0) body).isSome
  | delete => True
  | getRange => (retrieveJsonArrayFromJsonObj body "portmapping").isSome
  | deleteRange => (retrieveJsonArrayFromJsonObj body "deleted").isSome
  | extIpAddr maxLen => ∃ ip ∈ retrieveStringFromJsonObj body "ext_ip_addr", ip.length ≤ maxLen
  | wanConnStatus =>
      ∃ wanConnStat ∈ retrieveStringFromJsonObj body "wan_conn_status",
        wanConnStat.take 9 = "connected".toList
  | ifaceStatus =>
      (retrieveStringFromJsonObj body "iface_status").isSome ∧
        ∀ key ∈ ["baudrate", "total_bytes_sent", "total_bytes_received", "total_packets_sent",
          "total_packets_received"], (retrieveUnsignedIntFromJsonObj body key).isSome

end

end Operation

section successes
variable {env : SdnEnv} {stack : Nat → String → Int} {vars : ConnRuntimeVars}

theorem retrieveInt_small {body : Json} {key : String} {k : Int} (low : -2 ^ 31 < k)
    (high : k < 2 ^ 31 - 1) :
    retrieveIntFromJsonObj body key = some k ↔ objectGet body key = some (.int k) := by
  unfold retrieveIntFromJsonObj getInt
  constructor
  · intro read
    split at read
    · rename_i n here
      have clamped := Option.some.inj read
      have same : n = k := by omega
      rw [here, same]
    · cases read
  · intro here
    rw [here]
    dsimp only
    congr 1
    omega

theorem addResult_iff (ok : vars.responseCode = .OK_200) :
    ((addResult env vars).1 = 0 ↔ returnCode vars.response = some (.int 0) ∧
      (retrievePortNumberFromJsonObj env.stack vars.response "eport").isSome) ∧
    ((addResult env vars).1 = 0 ∨ (addResult env vars).1 = 1 ↔
      returnCode vars.response = some (.int 0) ∨ returnCode vars.response = some (.int 1)) := by
  have zero := @retrieveInt_small vars.response "return_code" 0 (by decide) (by decide)
  have one := @retrieveInt_small vars.response "return_code" 1 (by decide) (by decide)
  unfold addResult returnCode
  rw [if_neg (by simp [ok]), if_neg (by simp [ok]), ← zero, ← one]
  cases retrieveIntFromJsonObj vars.response "return_code" with
  | none => simp
  | some retCode =>
    by_cases none : retCode = 0
    · subst none
      cases retrievePortNumberFromJsonObj env.stack vars.response "eport" with
      | none => simp
      | some eport => simp
    · simp [none]

theorem addRedirect_zero :
    addRedirect env vars = 0 ↔
      vars.responseCode = .OK_200 ∧ Operation.add.Reads env stack vars.response := by
  by_cases ok : vars.responseCode = .OK_200
  · have results := (@addResult_iff env vars ok).2
    simp only [Operation.Reads, ok, true_and, ← results, addRedirect]
    generalize (addResult env vars).1 = retCode
    by_cases one : retCode = 1
    · simp [one]
    · by_cases zero : retCode = 0
      · simp [zero]
      · simp only [one, zero, or_self, ↓reduceIte, iff_false]
        split_ifs <;> decide
  · have refused : (addResult env vars).1 ≠ 0 ∧ (addResult env vars).1 ≠ 1 := by
      unfold addResult
      split_ifs <;> simp
    simp only [ok, false_and, iff_false, addRedirect, refused, ↓reduceIte]
    split_ifs <;> decide

theorem addAnyRedirect_zero :
    addAnyRedirect env vars = 0 ↔
      vars.responseCode = .OK_200 ∧ Operation.addAny.Reads env stack vars.response := by
  have code : addAnyRedirect env vars = 0 ↔ (addResult env vars).1 = 0 := by
    unfold addAnyRedirect
    generalize (addResult env vars).1 = retCode
    by_cases zero : retCode = 0
    · simp [zero]
    · simp only [zero, iff_false, ↓reduceIte]
      split_ifs <;> decide
  rw [code]
  by_cases ok : vars.responseCode = .OK_200
  · rw [(@addResult_iff env vars ok).1]
    simp [ok, Operation.Reads]
  · have refused : (addResult env vars).1 ≠ 0 := by
      unfold addResult
      split_ifs <;> simp
    simp [ok, refused]

theorem checked_isSome {α : Type} (x : Option α) :
    (if vars.responseCode ≠ .OK_200 then none else x).isSome = true ↔
      vars.responseCode = .OK_200 ∧ x.isSome := by
  by_cases ok : vars.responseCode = .OK_200
  · simp [ok]
  · simp [ok]

theorem getSdnIgdExternalIpAddr_zero (maxLen : Nat) :
    getSdnIgdExternalIpAddr vars maxLen = 0 ↔
      vars.responseCode = .OK_200 ∧ (Operation.extIpAddr maxLen).Reads env stack vars.response := by
  unfold getSdnIgdExternalIpAddr Operation.Reads
  by_cases ok : vars.responseCode = .OK_200
  · cases SdnPortmappings.retrieveStringFromJsonObj vars.response "ext_ip_addr" with
    | none => simp [ok]
    | some ip => simp [ok]
  · simp [ok]

theorem getSdnIgdWanConnStatus_zero :
    getSdnIgdWanConnStatus vars = 0 ↔
      vars.responseCode = .OK_200 ∧ Operation.wanConnStatus.Reads env stack vars.response := by
  unfold getSdnIgdWanConnStatus Operation.Reads
  dsimp only
  generalize "connected".toList = connected
  by_cases ok : vars.responseCode = .OK_200
  · cases SdnPortmappings.retrieveStringFromJsonObj vars.response "wan_conn_status" with
    | none => simp [ok]
    | some wanConnStat => simp [ok]
  · simp [ok]

theorem bind_isSome {α β : Type} {x : Option α} {f : α → Option β} {p : Prop}
    (each : ∀ a, (f a).isSome = true ↔ p) : (x >>= f).isSome = true ↔ x.isSome = true ∧ p := by
  cases x with
  | none => simp
  | some a => simpa using each a

theorem getSdnIgdIfaceStatus_isSome :
    (getSdnIgdIfaceStatus vars).isSome = true ↔
      vars.responseCode = .OK_200 ∧ Operation.ifaceStatus.Reads env stack vars.response := by
  rw [getSdnIgdIfaceStatus, checked_isSome]
  apply and_congr_right
  intro _
  simp only [Operation.Reads, List.forall_mem_cons, List.not_mem_nil, false_implies, implies_true]
  apply bind_isSome
  intro status
  apply bind_isSome
  intro baudrate
  apply bind_isSome
  intro obytes
  apply bind_isSome
  intro ibytes
  apply bind_isSome
  intro opackets
  apply bind_isSome
  intro ipackets
  simp

/-- An operation succeeds with status 200 and a body that has what it needs. -/
theorem succeeds_iff (op : Operation) :
    op.succeeds env stack vars = true ↔
      vars.responseCode = .OK_200 ∧ op.Reads env stack vars.response := by
  cases op with
  | add => exact decide_eq_true_iff.trans addRedirect_zero
  | addAny => exact decide_eq_true_iff.trans addAnyRedirect_zero
  | get request =>
    rw [Operation.succeeds, decide_eq_true_eq]
    exact foundResult_zero vars _
  | getByIndex =>
    rw [Operation.succeeds, decide_eq_true_eq]
    exact foundResult_zero vars _
  | delete => simp [Operation.succeeds, Operation.Reads, deleteRule]
  | getRange =>
    rw [Operation.succeeds, getPortmappingsInRange, checked_isSome,
      retrievePortmappingArrayFromJsonObj, Option.isSome_map]
    rfl
  | deleteRange =>
    rw [Operation.succeeds, decide_eq_true_eq, deletePortmappingsInRange, foundResult_zero,
      retrievePortNumberArrayFromJsonObj, Option.isSome_map]
    rfl
  | extIpAddr maxLen => exact decide_eq_true_iff.trans (getSdnIgdExternalIpAddr_zero maxLen)
  | wanConnStatus => exact decide_eq_true_iff.trans getSdnIgdWanConnStatus_zero
  | ifaceStatus => exact getSdnIgdIfaceStatus_isSome

end successes

/-- Success is reported only for an answer with status 200, and for an addition only when its
    return code is 0. -/
def Truthful (env : SdnEnv) (stack : Nat → String → Int) (op : Operation) (events : List Event) :
    Prop :=
  ∀ vars, wait op.handler events = some vars → op.succeeds env stack vars = true →
    ∃ hm, Received events hm ∧ hm.status = "200".toList ∧
      (op.adds = true → returnCode hm.body = some (.int 0))

section truth
variable (env : SdnEnv) (stack : Nat → String → Int) (op : Operation) (events : List Event)

/-- What has to be so of the event that ends the wait. -/
structure Fits : Prop where
  /-- A deletion is answered. -/
  answered : op = .delete →
    ∀ ev, events.find? Event.ends = some ev → ∃ hm, ev = .MG_EV_HTTP_MSG hm
  /-- A status that begins with 200 does not go on behind it. -/
  status : ∀ hm, Received events hm → hm.status.take 3 = "200".toList →
    op.Reads env stack hm.body → hm.status = "200".toList
  /-- The return code is not the one that stands for a port that cannot be read. -/
  code : op = .add → ∀ hm, Received events hm → hm.status.take 3 = "200".toList →
    returnCode hm.body ≠ some (.int 1)

end truth

section truth
variable {env : SdnEnv} {stack : Nat → String → Int} {op : Operation} {events : List Event}

theorem wait_handler (op : Operation) (events : List Event) :
    wait op.handler events =
      (events.find? Event.ends).map fun ev => connRuntimeVars ev.answer := by
  cases op <;> exact wait_answer _ events

theorem retrieve_null (key : String) :
    SdnPortmappings.retrieveStringFromJsonObj .null key = none := rfl

/-- Without an answer only a deletion succeeds. -/
theorem unanswered_iff :
    op.succeeds env stack (connRuntimeVars none) = true ↔ op = .delete := by
  rw [succeeds_iff]
  have nothing : op.Reads env stack .null ↔ op = .delete := by
    cases op with
    | delete => simp [Operation.Reads]
    | get request => simp [Operation.Reads, requestedEntry, retrieve_null]
    | getByIndex => simp [Operation.Reads, retrieveEntry, retrieve_null]
    | _ =>
      simp [Operation.Reads, retrieve_null, returnCode, objectGet, retrieveJsonArrayFromJsonObj]
  simpa [connRuntimeVars] using nothing

theorem answered_iff (hm : HttpMessage) :
    op.succeeds env stack (connRuntimeVars (some hm)) = true ↔
      hm.status.take 3 = "200".toList ∧ op.Reads env stack hm.body := by
  rw [succeeds_iff, ← responseStatus_ok]
  rfl

/-- The operations are truthful exactly in the runs that fit. -/
theorem truthful_iff (env : SdnEnv) (stack : Nat → String → Int) (op : Operation)
    (events : List Event) : Truthful env stack op events ↔ Fits env stack op events := by
  constructor
  · intro truthful
    have claimed : ∀ ev, events.find? Event.ends = some ev →
        op.succeeds env stack (connRuntimeVars ev.answer) = true →
        ∃ hm, Received events hm ∧ hm.status = "200".toList ∧
          (op.adds = true → returnCode hm.body = some (.int 0)) := by
      intro ev found success
      apply truthful _ _ success
      rw [wait_handler, found]
      rfl
    have same : ∀ {hm hm' : HttpMessage}, Received events hm → Received events hm' → hm' = hm := by
      intro hm hm' first second
      rw [received_iff] at first second
      rw [first] at second
      cases second
      rfl
    constructor
    · intro deletes ev found
      cases answer : ev.answer with
      | none =>
        have success := claimed ev found (by rw [answer]; exact unanswered_iff.mpr deletes)
        obtain ⟨hm, received, _⟩ := success
        rw [received_iff, found] at received
        exact ⟨hm, Option.some.inj received⟩
      | some hm =>
        cases ev with
        | MG_EV_HTTP_MSG hm => exact ⟨hm, rfl⟩
        | _ => cases answer
    · intro hm received first reads
      have success := claimed _ ((received_iff events hm).mp received)
        ((answered_iff hm).mpr ⟨first, reads⟩)
      obtain ⟨hm', received', status, _⟩ := success
      rwa [same received received'] at status
    · intro adds hm received first one
      have reads : op.Reads env stack hm.body := by
        rw [adds]
        exact .inr one
      have success := claimed _ ((received_iff events hm).mp received)
        ((answered_iff hm).mpr ⟨first, reads⟩)
      obtain ⟨hm', received', _, code⟩ := success
      rw [same received received'] at code
      rw [code (by rw [adds]; rfl)] at one
      cases one
  · intro fits vars waited success
    rw [wait_handler, Option.map_eq_some_iff] at waited
    obtain ⟨ev, found, rfl⟩ := waited
    have answered : ∃ hm, ev = .MG_EV_HTTP_MSG hm := by
      by_cases deletes : op = .delete
      · exact fits.answered deletes ev found
      · cases ev with
        | MG_EV_HTTP_MSG hm => exact ⟨hm, rfl⟩
        | _ => exact absurd (unanswered_iff.mp success) deletes
    obtain ⟨hm, rfl⟩ := answered
    have received := (received_iff events hm).mpr found
    obtain ⟨first, reads⟩ := (answered_iff hm).mp success
    refine ⟨hm, received, fits.status hm received first reads, ?_⟩
    intro adds
    cases op with
    | add =>
      rcases reads with zero | one
      · exact zero
      · exact absurd one (fits.code rfl hm received first)
    | addAny => exact reads.1
    | _ => cases adds

/-- A deletion whose connection fails. -/
theorem failed_connection_deletes :
    ¬ Truthful { disablePortForwarding := false, stack := 0 } (fun _ _ => 0) .delete
        [.MG_EV_ERROR] := by
  intro truthful
  obtain ⟨hm, received, _⟩ := truthful (connRuntimeVars none) rfl rfl
  rw [received_iff] at received
  cases received

end truth

end ControllerAnswers
