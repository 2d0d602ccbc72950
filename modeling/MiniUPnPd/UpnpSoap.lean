import MiniUPnPd.UpnpRedirect

/-!
The SOAP actions of WANIPConnection that write the redirection tables, without JWT
authorisation. A request is the client and the arguments, names with values in the order
of the parser's list. Compile-time options are part of the environment.
-/
namespace UpnpSoap
open CText Inet UpnpPermissions UpnpRedirect WordBitmap

structure SoapEnv extends Env where
  upnpStrict : Bool
  supportRemotehost : Bool
  igdV2 : Bool
  secureMode : Bool
  /-- The first IPv4 address of a host name. -/
  gethostbyname : CString → Option InAddr
  random : Nat

structure Upnphttp where
  clientaddr : InAddr
  clientport : UInt16
  args : List (CString × CString)

inductive SoapReply where
  | soapError (code : Nat) (description : String)
  | done
  | reservedPort (eport : UInt16)
  deriving DecidableEq

def invalidArgs : SoapReply := .soapError 402 "Invalid Args"

def getValueFromNameValueList (h : Upnphttp) (name : String) : Option CString :=
  (h.args.find? fun nv => nv.1 = name.toList).map (·.2)

/-- The text of the client's socket address, with the port. -/
def clientaddrStr (h : Upnphttp) : CString :=
  inetNtoa h.clientaddr ++ ':' :: utoa h.clientport.toNat

def isNumeric (s : CString) : Bool := s.all Char.isDigit

/-- Only for a build with `UPNP_STRICT` and without `SUPPORT_REMOTEHOST`. -/
def remotehostRefused (env : SoapEnv) (rHost : Option CString) : Bool :=
  env.upnpStrict ∧ env.supportRemotehost = false ∧
    ∃ s ∈ rHost, s ≠ [] ∧ s ≠ "*".toList

def onlyWildcard : SoapReply := .soapError 726 "RemoteHostOnlySupportsWildcard"

/-- The text and the address of the internal client, which may be given as a host name. -/
def resolveClient (env : SoapEnv) (intIp : CString) : Except SoapReply (CString × InAddr) :=
  match inetPton intIp with
  | some address => .ok (intIp, address)
  | none =>
    match env.gethostbyname intIp with
    | some address => .ok (inetNtoa address, address)
    | none => .error invalidArgs

/-- A client that is not given is the one that asks, unless the build is strict. -/
def internalClient (env : SoapEnv) (h : Upnphttp) : Except SoapReply (CString × InAddr) :=
  let intIp := ((getValueFromNameValueList h "NewInternalClient").getD []).dropWhile (· = ' ')
  if env.upnpStrict ∧ intIp = [] then .error invalidArgs
  else if remotehostRefused env (getValueFromNameValueList h "NewRemoteHost") then
    .error onlyWildcard
  else if intIp = [] then .ok (clientaddrStr h, h.clientaddr)
  else resolveClient env intIp

theorem resolveClient_text {env : SoapEnv} {given intIp : CString} {address : InAddr}
    (resolved : resolveClient env given = .ok (intIp, address)) : intIp = inetNtoa address := by
  unfold resolveClient at resolved
  split at resolved
  · rename_i read
    obtain ⟨rfl, rfl⟩ := Prod.mk.inj (Except.ok.inj resolved)
    exact (inetPton_iff _ _).mp read
  · split at resolved
    · obtain ⟨rfl, rfl⟩ := Prod.mk.inj (Except.ok.inj resolved)
      rfl
    · simp at resolved

theorem internalClient_text {env : SoapEnv} {h : Upnphttp} {intIp : CString} {address : InAddr}
    (resolved : internalClient env h = .ok (intIp, address)) :
    intIp = inetNtoa address ∨ intIp = inetNtoa address ++ ':' :: utoa h.clientport.toNat := by
  unfold internalClient at resolved
  dsimp only at resolved
  split at resolved
  · simp at resolved
  · split at resolved
    · simp at resolved
    · split at resolved
      · obtain ⟨rfl, rfl⟩ := Prod.mk.inj (Except.ok.inj resolved)
        exact .inr rfl
      · exact .inl (resolveClient_text resolved)

structure PortArguments where
  eport : UInt16
  iport : UInt16
  protocol : CString
  leaseduration : Nat

/-- `(unsigned int)atoi(s)`, 0 where the argument is missing. -/
def leaseArgument (h : Upnphttp) : Nat :=
  match getValueFromNameValueList h "NewLeaseDuration" with
  | some s => (atoi s % 2 ^ 32).toNat
  | none => 0

def portArguments (env : SoapEnv) (h : Upnphttp) : Except SoapReply PortArguments :=
  match getValueFromNameValueList h "NewInternalPort",
      getValueFromNameValueList h "NewExternalPort",
      getValueFromNameValueList h "NewProtocol" with
  | some intPort, some extPort, some protocol =>
    let eport := atous extPort
    if extPort = "*".toList ∨ eport = 0 then
      .error (.soapError 716 "Wildcard not permited in ExtPort")
    else
      let lease := leaseArgument h
      .ok { eport, iport := atous intPort, protocol
            leaseduration := if env.igdV2 ∧ (lease = 0 ∨ lease > 604800) then 604800 else lease }
  | _, _, _ => .error invalidArgs

def addPortMappingReply (env : SoapEnv) (r : Int) : SoapReply :=
  let conflict : SoapReply := .soapError 718 "ConflictInMappingEntry"
  if r = 0 then .done
  else if r = -4 then
    if env.igdV2 then .soapError 729 "ConflictWithOtherMechanisms" else conflict
  else if r = -3 then if env.igdV2 then .soapError 606 "Action not authorized" else conflict
  else if r = -2 then conflict
  else .soapError 501 "ActionFailed"

/-- `upnp_redirect` with the arguments of the request. -/
def redirectRequest (env : SoapEnv) (h : Upnphttp) (eport : UInt16) (intIp : CString)
    (iport : UInt16) (protocol : CString) (leaseduration : Nat) (d : Daemon) : Int × Daemon :=
  upnpRedirect env.toEnv (getValueFromNameValueList h "NewRemoteHost") eport intIp iport protocol
    (getValueFromNameValueList h "NewPortMappingDescription") leaseduration d

def addPortMapping (env : SoapEnv) (h : Upnphttp) (d : Daemon) : SoapReply × Daemon :=
  match internalClient env h with
  | .error reply => (reply, d)
  | .ok (intIp, address) =>
    if env.secureMode ∧ h.clientaddr ≠ address then
      (.soapError 718 "ConflictInMappingEntry", d)
    else
      match portArguments env h with
      | .error reply => (reply, d)
      | .ok args =>
          let (r, d) := redirectRequest env h args.eport intIp args.iport args.protocol
            args.leaseduration d
          (addPortMappingReply env r, d)

/-- The arguments of AddAnyPortMapping, with external port 0 for a wildcard. -/
def anyPortArguments (h : Upnphttp) : Except SoapReply (CString × PortArguments) :=
  match getValueFromNameValueList h "NewInternalClient",
      getValueFromNameValueList h "NewExternalPort",
      getValueFromNameValueList h "NewInternalPort",
      getValueFromNameValueList h "NewProtocol" with
  | some intIp, some extPort, some intPort, some protocol =>
    let iport := atous intPort
    if iport = 0 ∨ (isNumeric extPort = false ∧ extPort ≠ "*".toList) then .error invalidArgs
    else
      let lease := leaseArgument h
      .ok (intIp, { eport := atous extPort, iport, protocol
                    leaseduration := if lease = 0 then 604800 else lease })
  | _, _, _, _ => .error invalidArgs

def randomPort (random : Nat) : UInt16 :=
  UInt16.ofNat (1024 + (random &&& 0x7ffffff) % (65536 - 1024))

/-- The ports around the requested one that were tried so far are those from
    `eportBelow` to `eportAbove`. -/
structure Tried where
  eport : UInt16
  eportBelow : UInt16
  eportAbove : UInt16

/-- The next port to try, one step further out. -/
def Tried.next (t : Tried) : Option Tried :=
  if t.eportBelow ≤ 1 ∧ t.eportAbove = 65535 then none
  else if t.eportAbove = 65535 ∨ (t.eport > t.eportBelow ∧ t.eportBelow > 1) then
    some { t with eport := t.eportBelow - 1, eportBelow := t.eportBelow - 1 }
  else some { t with eport := t.eportAbove + 1, eportAbove := t.eportAbove + 1 }

/-- The loop of AddAnyPortMapping over the permitted ports, with the last port tried. -/
def searchAround (allowed : PortBitmap) (redirect : UInt16 → Daemon → Int × Daemon) :
    (fuel : Nat) → Tried → Daemon → (Int × UInt16) × Daemon
  | 0, t, d => ((1, t.eport), d)
  | fuel + 1, t, d =>
      match t.next with
      | none => ((1, t.eport), d)
      | some t =>
        if bit allowed t.eport.toNat then
          let (r, d) := redirect t.eport d
          if r = 0 ∨ r = -1 then ((r, t.eport), d) else searchAround allowed redirect fuel t d
        else searchAround allowed redirect fuel t d

/-- Each round leaves one port less. -/
def aroundFuel : Nat := 65536

/-- The requested port first, then the ports around it. -/
def redirectAny (env : SoapEnv) (intIp : CString) (iport eport : UInt16)
    (redirect : UInt16 → Daemon → Int × Daemon) (d : Daemon) : (Int × UInt16) × Daemon :=
  let (r, d) := redirect eport d
  if r ≠ 0 ∧ r ≠ -1 then
    searchAround (getPermittedExtPorts env.upnppermlist ((inetAton intIp).getD 0) iport) redirect
      aroundFuel { eport, eportBelow := eport, eportAbove := eport } d
  else ((r, eport), d)

def addAnyPortMappingReply (r : Int) (eport : UInt16) : SoapReply :=
  if r = 1 then .soapError 728 "NoPortMapsAvailable"
  else if r = 0 then .reservedPort eport
  else if r = -2 then .soapError 718 "ConflictInMappingEntry"
  else if r = -3 then .soapError 606 "Action not authorized"
  else .soapError 501 "ActionFailed"

def addAnyPortMapping (env : SoapEnv) (h : Upnphttp) (d : Daemon) : SoapReply × Daemon :=
  match anyPortArguments h with
  | .error reply => (reply, d)
  | .ok (intIp, args) =>
    let eport := if args.eport = 0 then randomPort env.random else args.eport
    if remotehostRefused env (getValueFromNameValueList h "NewRemoteHost") then (onlyWildcard, d)
    else
      match resolveClient env intIp with
      | .error reply => (reply, d)
      | .ok (intIp, address) =>
        if env.secureMode ∧ h.clientaddr ≠ address then
          (.soapError 606 "Action not authorized", d)
        else
          let ((r, eport), d) := redirectAny env intIp args.iport eport
            (fun eport d =>
              redirectRequest env h eport intIp args.iport args.protocol args.leaseduration d) d
          (addAnyPortMappingReply r eport, d)

/-- In secure mode a mapping of another client is refused, when the lookup finds it. -/
def deletionRefused (env : SoapEnv) (h : Upnphttp) (eport : UInt16) (protocol : CString)
    (d : Daemon) : Bool × Daemon :=
  if env.secureMode then
    let (infos, d) := upnpGetRedirectionInfos env.toEnv eport protocol d
    match infos with
    | none => (false, d)
    | some (rule, _) =>
      match inetPton rule.iaddr with
      | none => (false, d)
      | some address => (decide (h.clientaddr ≠ address), d)
  else (false, d)

def deleteArguments (env : SoapEnv) (h : Upnphttp) : Except SoapReply (UInt16 × CString) :=
  let rHost := getValueFromNameValueList h "NewRemoteHost"
  match getValueFromNameValueList h "NewExternalPort",
      getValueFromNameValueList h "NewProtocol" with
  | some extPort, some protocol =>
    if env.upnpStrict ∧ rHost = none then .error invalidArgs
    else if remotehostRefused env rHost then .error onlyWildcard
    else if atous extPort = 0 then .error invalidArgs
    else .ok (atous extPort, protocol)
  | _, _ => .error invalidArgs

theorem deleteArguments_error {env : SoapEnv} {h : Upnphttp} {reply : SoapReply}
    (refused : deleteArguments env h = .error reply) : reply ≠ .done := by
  intro done
  subst done
  unfold deleteArguments at refused
  dsimp only at refused
  split at refused
  · split_ifs at refused
    · simp [invalidArgs] at refused
    · simp [onlyWildcard] at refused
    · simp [invalidArgs] at refused
  · simp [invalidArgs] at refused

def deletePortMapping (env : SoapEnv) (h : Upnphttp) (d : Daemon) : SoapReply × Daemon :=
  match deleteArguments env h with
  | .error reply => (reply, d)
  | .ok (eport, protocol) =>
    let (refused, d) := deletionRefused env h eport protocol d
    if refused then (.soapError 606 "Action not authorized", d)
    else
      let (r, d) := upnpDeleteRedirection env.toEnv eport protocol d
      (if r < 0 then .soapError 714 "NoSuchEntryInArray" else .done, d)

def rangeArguments (h : Upnphttp) : Except SoapReply (UInt16 × UInt16 × CString) :=
  match getValueFromNameValueList h "NewStartPort", getValueFromNameValueList h "NewEndPort",
      getValueFromNameValueList h "NewProtocol" with
  | some startportS, some endportS, some protocol =>
    if isNumeric startportS ∧ isNumeric endportS then
      if atous startportS > atous endportS then .error (.soapError 733 "InconsistentParameter")
      else .ok (atous startportS, atous endportS, protocol)
    else .error invalidArgs
  | _, _, _ => .error invalidArgs

def deleteAll (env : Env) (protocol : CString) (entryList : List UInt16) (d : Daemon) : Daemon :=
  entryList.foldl (fun d eport => (upnpDeleteRedirection env eport protocol d).2) d

def deletePortMappingRange (env : SoapEnv) (h : Upnphttp) (d : Daemon) : SoapReply × Daemon :=
  match rangeArguments h with
  | .error reply => (reply, d)
  | .ok (startport, endport, protocol) =>
    let (entryList, d) := upnpGetPortmappingsInRange startport endport protocol d
    match entryList.getD [] with
    | [] => (.soapError 730 "PortMappingNotFound", d)
    | eport :: entryList => (.done, deleteAll env.toEnv protocol (eport :: entryList) d)

end UpnpSoap
