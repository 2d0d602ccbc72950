import MiniUPnPd.Lib.CString
import MiniUPnPd.Lib.Inet

/-!
The redirection functions of a build with SDN. The mappings are at the controller, which
is asked over HTTP; it may change its table and answer as it likes, or not answer. JSON
objects are built and sent without failing.
-/
namespace SdnRedirect
open CText Inet

/-- A parsed body. Real numbers and booleans are read like `null` here. -/
inductive Json where
  | null
  | int (n : Int)
  | string (s : CString)
  | array (entries : List Json)
  | object (fields : List (CString × Json))

def objectGet (jobj : Json) (key : String) : Option Json :=
  match jobj with
  | .object fields => (fields.find? fun field => field.1 = key.toList).map (·.2)
  | _ => none

/-- `json_object_get_int`, which stays within 32 bits. -/
def getInt (n : Int) : Int := max (-2 ^ 31) (min n (2 ^ 31 - 1))

def retrieveIntFromJsonObj (jobj : Json) (key : String) : Option Int :=
  match objectGet jobj key with
  | some (.int n) => some (getInt n)
  | _ => none

def isvalidUshort (n : Int) : Bool := 0 ≤ n ∧ n ≤ 65535

/-- When there is no integer under the key, the test is of a variable that was never set,
    `stack`. -/
def retrievePortNumberFromJsonObj (stack : Int) (jobj : Json) (key : String) : Option UInt16 :=
  match retrieveIntFromJsonObj jobj key with
  | some n => some (UInt16.ofInt n)
  | none => if isvalidUshort stack then none else some (UInt16.ofInt stack)

def retrieveJsonArrayFromJsonObj (jobj : Json) (key : String) : Option (List Json) :=
  match objectGet jobj key with
  | some (.array entries) => some entries
  | _ => none

def portNumber : Json → Option UInt16
  | .int n => if isvalidUshort (getInt n) then some (UInt16.ofInt (getInt n)) else none
  | _ => none

def retrievePortNumberArrayFromJsonObj (jobj : Json) (key : String) : Option (List UInt16) :=
  (retrieveJsonArrayFromJsonObj jobj key).map fun entries => entries.filterMap portNumber

inductive HttpResponseCode where
  | OK_200
  | BADREQUEST_400
  | NOTFOUND_404
  | METHODNOTALLOWED_405
  | CONFLICT_409
  | INTERNALSERVERERROR_500
  | UNKNOWNERRORCODE
  deriving DecidableEq

/-- A response as the HTTP client hands it over. -/
structure HttpMessage where
  status : CString
  body : Json

def retrieveResponseStatus (hm : HttpMessage) : HttpResponseCode :=
  match atoi (hm.status.take 3) with
  | 200 => .OK_200
  | 400 => .BADREQUEST_400
  | 404 => .NOTFOUND_404
  | 405 => .METHODNOTALLOWED_405
  | 409 => .CONFLICT_409
  | 500 => .INTERNALSERVERERROR_500
  | _ => .UNKNOWNERRORCODE

structure ConnRuntimeVars where
  response : Json
  responseCode : HttpResponseCode

/-- The variables start zeroed, and a connection that fails or is closed leaves them so. -/
def connRuntimeVars : Option HttpMessage → ConnRuntimeVars
  | none => { response := .null, responseCode := .OK_200 }
  | some hm => { response := hm.body, responseCode := retrieveResponseStatus hm }

structure PortRange where
  start : UInt16
  stop : UInt16

/-- The object sent for a new mapping; the duration goes through `int`. -/
structure AddRequest where
  rhost : CString
  eport : UInt16
  proto : CString
  iport : UInt16
  iaddr : CString
  duration : Int
  permitPortRange : Option (List PortRange)

structure DeleteRequest where
  rhost : CString
  eport : UInt16
  proto : CString

structure RangeRequest where
  proto : CString
  startPortNum : UInt16
  endPortNum : UInt16

/-- `number` is the size of the controller's table. -/
structure Controller (σ : Type*) where
  number : σ → Nat
  addPortMapping : AddRequest → σ → Option HttpMessage × σ
  deletePortMapping : DeleteRequest → σ → Option HttpMessage × σ
  deletePortMappingRange : RangeRequest → σ → Option HttpMessage × σ

structure SdnEnv where
  disablePortForwarding : Bool
  stack : Int

/-- `notified` counts the calls of `upnp_event_var_change_notify(EWanIPC)`. -/
structure SdnDaemon (σ : Type*) where
  controller : σ
  notified : Nat

section functions
variable {σ : Type*} (controller : Controller σ) (env : SdnEnv)

def addRequest (rhost : CString) (eport : UInt16) (iaddr : CString) (iport : UInt16)
    (proto : CString) (duration : Nat) (allowedRdrPorts : Option (List PortRange)) : AddRequest :=
  { rhost, eport, proto, iport, iaddr, duration := (duration : Int).bmod (2 ^ 32)
    permitPortRange := allowedRdrPorts }

/-- The result of `_add_redirect_and_filter_rules`, and the port it hands back with 0. -/
def addResult (vars : ConnRuntimeVars) : Int × Option UInt16 :=
  if vars.responseCode = .CONFLICT_409 then (-3, none)
  else if vars.responseCode ≠ .OK_200 then (-1, none)
  else
    match retrieveIntFromJsonObj vars.response "return_code" with
    | none => (-1, none)
    | some retCode =>
      if retCode = 0 then
        match retrievePortNumberFromJsonObj env.stack vars.response "eport" with
        | none => (1, none)
        | some eport => (0, some eport)
      else (retCode, none)

def addRedirectAndFilterRules (request : AddRequest) (d : SdnDaemon σ) : Int × SdnDaemon σ :=
  let (answer, next) := controller.addPortMapping request d.controller
  let retCode := (addResult env (connRuntimeVars answer)).1
  let r :=
    if retCode = 1 then 0
    else if retCode = 0 then 0
    else if retCode = -2 then -4
    else if retCode = -3 then -2
    else -1
  (r, { d with controller := next })

def addAnyRedirectAndFilterRules (request : AddRequest) (d : SdnDaemon σ) :
    Int × Option UInt16 × SdnDaemon σ :=
  let (answer, next) := controller.addPortMapping request d.controller
  let (retCode, finalEport) := addResult env (connRuntimeVars answer)
  let r :=
    if retCode = 1 then -1
    else if retCode = 0 then 0
    else if retCode = -2 then -1
    else if retCode = -3 then 1
    else -1
  (r, if retCode = 0 then finalEport else none, { d with controller := next })

/-- With the port that the caller gets back, if one is written. -/
def upnpRedirectInternal (rhost : CString) (eport : UInt16) (iaddr : CString) (iport : UInt16)
    (proto : CString) (leaseduration : Nat) (allowedRdrPorts : Option (List PortRange))
    (d : SdnDaemon σ) : Int × Option UInt16 × SdnDaemon σ :=
  if env.disablePortForwarding then (-1, none, d)
  else
    let request := addRequest rhost eport iaddr iport proto leaseduration allowedRdrPorts
    let (r, retEport, d) :=
      if allowedRdrPorts.isSome then addAnyRedirectAndFilterRules controller env request d
      else
        let (r, d) := addRedirectAndFilterRules controller env request d
        (r, none, d)
    if r = 0 then (r, retEport, { d with notified := d.notified + 1 }) else (r, retEport, d)

def upnpRedirect (rhost : CString) (eport : UInt16) (iaddr : CString) (iport : UInt16)
    (protocol : CString) (leaseduration : Nat) (allowedRdrPorts : Option (List PortRange))
    (d : SdnDaemon σ) : Int × Option UInt16 × SdnDaemon σ :=
  match inetAton iaddr with
  | none => (-1, none, d)
  | some _ =>
    upnpRedirectInternal controller env rhost eport iaddr iport protocol leaseduration
      allowedRdrPorts d

/-- Without an answer this is a success. -/
def deleteRedirectAndFilterRules (rhost : CString) (eport : UInt16) (proto : CString)
    (d : SdnDaemon σ) : Int × SdnDaemon σ :=
  let (answer, next) := controller.deletePortMapping { rhost, eport, proto } d.controller
  (if (connRuntimeVars answer).responseCode = .OK_200 then 0 else -1, { d with controller := next })

/-- `_upnp_delete_redir`, the same as `upnp_delete_redirection` here. -/
def upnpDeleteRedir (rhost : CString) (eport : UInt16) (proto : CString) (d : SdnDaemon σ) :
    Int × SdnDaemon σ :=
  let (r, d) := deleteRedirectAndFilterRules controller rhost eport proto d
  (r, { d with notified := d.notified + 1 })

/-- The ports that the controller says it has deleted, none for an error. -/
def upnpDeletePortmappingsInRange (startport endport : UInt16) (protocol : CString)
    (d : SdnDaemon σ) : Option (List UInt16) × SdnDaemon σ :=
  let (answer, next) := controller.deletePortMappingRange
    { proto := protocol, startPortNum := startport, endPortNum := endport } d.controller
  let vars := connRuntimeVars answer
  (if vars.responseCode = .OK_200 then retrievePortNumberArrayFromJsonObj vars.response "deleted"
    else none,
    { d with controller := next })

end functions

end SdnRedirect
