import MiniUPnPd.SdnRules
import MiniUPnPd.UpnpSoap

/-!
DeletePortMapping in a build with SDN. In secure mode the internal client of the mapping is
looked up first, under the same port and protocol but without the remote host.
-/
namespace SdnDeletion
open CText Inet CBuffer SdnRedirect SdnPortmappings SdnRules UpnpSoap

structure SdnSoapEnv where
  upnpStrict : Bool
  supportRemotehost : Bool
  secureMode : Bool
  stack : String → Int

/-- The arguments of `get_redirect_rule`. -/
structure Lookup where
  rhost : Option CString
  eport : UInt16
  proto : CString

/-- The daemon, with the lookups it has made and the deletions it has sent. -/
structure SdnRun (σ : Type*) extends SdnDaemon σ where
  lookups : List Lookup
  deletions : List DeleteRequest

/-- The remote host, the external port and the protocol. -/
def deleteArguments (env : SdnSoapEnv) (h : Upnphttp) : Except SoapReply DeleteRequest :=
  match getValueFromNameValueList h "NewExternalPort", getValueFromNameValueList h "NewProtocol",
      getValueFromNameValueList h "NewRemoteHost" with
  | some extPort, some protocol, some rHost =>
    if env.upnpStrict ∧ env.supportRemotehost = false ∧ rHost ≠ [] ∧ rHost ≠ "*".toList then
      .error onlyWildcard
    else if atous extPort = 0 then .error invalidArgs
    else .ok { rhost := rHost, eport := atous extPort, proto := protocol }
  | _, _, _ => .error invalidArgs

section functions
variable {σ : Type*} (controller : RuleController σ) (env : SdnSoapEnv)

/-- The buffer of a description is cleared when it is there. -/
def upnpGetRedirectionInfos (eport : UInt16) (protocol : CString) (iaddr : Option (List Char))
    (iaddrlen : Nat) (desc : Option (List Char)) (desclen : Nat) (rhost : Option CString)
    (d : SdnRun σ) : Except Fault (Option RuleInfos) × SdnRun σ :=
  let desc := if desclen > 0 then desc.map fun cells => cells.set 0 '\x00' else desc
  let d := { d with lookups := d.lookups ++ [Lookup.mk rhost eport protocol] }
  let (infos, next) := getRedirectRule controller env.stack eport protocol iaddr iaddrlen desc
    desclen rhost d.controller
  (infos, { d with controller := next })

/-- `intIp` is what the buffer of the address holds before. -/
def deletionRefused (intIp : List Char) (h : Upnphttp) (eport : UInt16) (protocol : CString)
    (d : SdnRun σ) : Except Fault Bool × SdnRun σ :=
  if env.secureMode then
    let (infos, d) := upnpGetRedirectionInfos controller env eport protocol (some intIp) intIp.length
      none 0 none d
    (infos.map fun
      | none => false
      | some infos =>
        match inetPton (untilNul (infos.iaddr.getD [])) with
        | none => false
        | some address => h.clientaddr ≠ address,
      d)
  else (.ok false, d)

def upnpDeleteRedirection (request : DeleteRequest) (d : SdnRun σ) : Int × SdnRun σ :=
  let (r, daemon) := upnpDeleteRedir controller.toController request.rhost request.eport
    request.proto d.toSdnDaemon
  (r, { daemon with lookups := d.lookups, deletions := d.deletions ++ [request] })

def deletePortMapping (intIp : List Char) (h : Upnphttp) (d : SdnRun σ) :
    Except Fault SoapReply × SdnRun σ :=
  match deleteArguments env h with
  | .error reply => (.ok reply, d)
  | .ok request =>
    match deletionRefused controller env intIp h request.eport request.proto d with
    | (.error fault, d) => (.error fault, d)
    | (.ok true, d) => (.ok (.soapError 606 "Action not authorized"), d)
    | (.ok false, d) =>
      let (r, d) := upnpDeleteRedirection controller request d
      (.ok (if r < 0 then .soapError 714 "NoSuchEntryInArray" else .done), d)

end functions

section checks
variable {σ : Type*} {controller : RuleController σ} {env : SdnSoapEnv} {h : Upnphttp}
  {request : DeleteRequest}

/-- The mapping that is deleted is the one that has been looked up, and the controller knows no
    such mapping or one of the client. -/
structure OwnerChecked (controller : RuleController σ) (env : SdnSoapEnv) (h : Upnphttp)
    (request : DeleteRequest) (d after : SdnRun σ) : Prop where
  lookup : after.lookups = d.lookups ++ [Lookup.mk (some request.rhost) request.eport request.proto]
  deletion : after.deletions = d.deletions ∨ after.deletions = d.deletions ++ [request] ∧
    ∀ entry, FoundEntry env.stack (controller.getPortMapping
      { rhost := request.rhost, eport := request.eport, proto := request.proto } d.controller).1
      entry → inetPton entry.iaddr = some h.clientaddr

/-- The lookup of the check takes the length of a remote host that is not there, and nothing
    is sent. -/
theorem deletePortMapping_null (secure : env.secureMode = true)
    (valid : deleteArguments env h = .ok request) (intIp : List Char) (d : SdnRun σ) :
    deletePortMapping controller env intIp h d =
      (.error .nullPointer,
        { d with lookups := d.lookups ++ [Lookup.mk none request.eport request.proto] }) := by
  have refused : deletionRefused controller env intIp h request.eport request.proto d =
      (.error .nullPointer,
        { d with lookups := d.lookups ++ [Lookup.mk none request.eport request.proto] }) := by
    unfold deletionRefused
    rw [if_pos secure]
    rfl
  unfold deletePortMapping
  rw [valid]
  dsimp only
  rw [refused]

/-- In secure mode no deletion is checked. -/
theorem never_checked (controller : RuleController σ) (secure : env.secureMode = true)
    (valid : deleteArguments env h = .ok request) (intIp : List Char) (d : SdnRun σ) :
    ¬ OwnerChecked controller env h request d (deletePortMapping controller env intIp h d).2 := by
  rw [deletePortMapping_null secure valid]
  intro checked
  have other := List.append_cancel_left checked.lookup
  simp at other

end checks

def secureEnv : SdnSoapEnv :=
  { upnpStrict := false, supportRemotehost := false, secureMode := true, stack := fun _ => 0 }

def deleteWeb : Upnphttp :=
  { clientaddr := 0x0a000002, clientport := 50000
    args := [("NewRemoteHost".toList, []), ("NewExternalPort".toList, "80".toList),
             ("NewProtocol".toList, "TCP".toList)] }

def webMapping : DeleteRequest := { rhost := [], eport := 80, proto := "TCP".toList }

def started : SdnRun Unit := { controller := (), notified := 0, lookups := [], deletions := [] }

theorem deleteWeb_never : ¬ OwnerChecked eightLetters secureEnv deleteWeb webMapping started
    (deletePortMapping eightLetters secureEnv (List.replicate 32 '\x00') deleteWeb started).2 :=
  never_checked eightLetters rfl rfl (List.replicate 32 '\x00') started

/-- The daemon stops at the lookup, before the controller is asked. -/
theorem deleteWeb_unchecked :
    (deletePortMapping eightLetters secureEnv (List.replicate 32 '\x00') deleteWeb started).1 =
        .error .nullPointer ∧
      ¬ OwnerChecked eightLetters secureEnv deleteWeb webMapping started
        (deletePortMapping eightLetters secureEnv (List.replicate 32 '\x00') deleteWeb started).2 := by
  have stopped := @deletePortMapping_null Unit eightLetters secureEnv deleteWeb webMapping rfl rfl
    (List.replicate 32 '\x00') started
  constructor
  · rw [stopped]
  · intro checked
    have looked := checked.lookup
    rw [stopped] at looked
    have other := List.append_cancel_left looked
    simp at other

end SdnDeletion
