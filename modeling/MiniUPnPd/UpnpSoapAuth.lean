import MiniUPnPd.JwtAuth
import MiniUPnPd.UpnpSoap

/-!
AddPortMapping and AddAnyPortMapping in a build with USE_JWT_AUTH. The token of the
request takes the place of secure mode.
-/
namespace UpnpSoapAuth
open CText Inet JwtAuth JwtAuthUtils UpnpRedirect UpnpSoap

def containsIp (perm : Permission) (intIpAddr : InAddr) : Bool :=
  perm.intIpRange.any fun range => containIp range.address range.mask intIpAddr = 1

def containsPort (perm : Permission) (eport : UInt16) : Bool :=
  perm.pubPortRange.any fun range => range.start ≤ eport ∧ range.stop ≥ eport

def veridyAddPortMappingAuth (perm : Permission) (intIpAddr : InAddr) (eport : UInt16) : Int :=
  if containsIp perm intIpAddr = false then 0
  else if containsPort perm eport = false then 0
  else 1

/-- External port 0 is a wildcard. -/
def veridyAddAnyPortMappingAuth (perm : Permission) (intIpAddr : InAddr) (eport : UInt16) : Int :=
  if containsIp perm intIpAddr = false then 0
  else if eport = 0 ∧ perm.pubPortRange ≠ [] then 1
  else if containsPort perm eport = false then 0
  else 1

structure JwtEnv extends SoapEnv where
  libs : JwtLibs
  /-- What the memory holds after the copy that ParseIpAddress makes. -/
  heapTail : CString

/-- `auth` and `sig` are header values, empty where the header is missing. -/
structure JwtRequest extends Upnphttp where
  auth : List Char
  sig : List Char
  content : List Char

abbrev Reply := Except MemoryFault SoapReply

def notAuthorized : SoapReply := .soapError 606 "Action not authorized"

def requestPermission (env : JwtEnv) (h : JwtRequest) : Except MemoryFault (Int × Permission) :=
  verifyAndExtractAuthToken env.libs h.auth h.sig h.content createPermissionObject

/-- The checks between the arguments and the redirection. -/
def authorize (env : JwtEnv) (h : JwtRequest) (intIp : CString)
    (veridy : Permission → InAddr → Int) : Except Reply Permission :=
  match requestPermission env h with
  | .error fault => .error (.error fault)
  | .ok (r, perm) =>
    if r = -1 then .error (.ok notAuthorized)
    else
      match parseIpAddress env.heapTail intIp with
      | none => .error (.ok invalidArgs)
      | some intIpAddr =>
        if veridy perm intIpAddr ≠ 1 then .error (.ok notAuthorized) else .ok perm

def addPortMapping (env : JwtEnv) (h : JwtRequest) (d : Daemon) : Reply × Daemon :=
  match internalClient env.toSoapEnv h.toUpnphttp with
  | .error reply => (.ok reply, d)
  | .ok (intIp, _) =>
    match portArguments env.toSoapEnv h.toUpnphttp with
    | .error reply => (.ok reply, d)
    | .ok args =>
      match authorize env h intIp fun perm addr => veridyAddPortMappingAuth perm addr args.eport with
      | .error reply => (reply, d)
      | .ok _ =>
        let (r, d) := redirectRequest env.toSoapEnv h.toUpnphttp args.eport intIp args.iport
          args.protocol args.leaseduration d
        (.ok (addPortMappingReply env.toSoapEnv r), d)

/-- A wildcard stands for the start of the first range. -/
def chosenPort (perm : Permission) (eport : UInt16) : UInt16 :=
  if eport = 0 then (perm.pubPortRange.head?.map (·.start)).getD 0 else eport

def addAnyPortMapping (env : JwtEnv) (h : JwtRequest) (d : Daemon) : Reply × Daemon :=
  match anyPortArguments h.toUpnphttp with
  | .error reply => (.ok reply, d)
  | .ok (intIp, args) =>
    if remotehostRefused env.toSoapEnv (getValueFromNameValueList h.toUpnphttp "NewRemoteHost") then
      (.ok onlyWildcard, d)
    else
      match resolveClient env.toSoapEnv intIp with
      | .error reply => (.ok reply, d)
      | .ok (intIp, _) =>
        match authorize env h intIp fun perm addr =>
            veridyAddAnyPortMappingAuth perm addr args.eport with
        | .error reply => (reply, d)
        | .ok perm =>
          let ((r, eport), d) := redirectAny env.toSoapEnv intIp args.iport
            (chosenPort perm args.eport)
            (fun eport d => redirectRequest env.toSoapEnv h.toUpnphttp eport intIp args.iport
              args.protocol args.leaseduration d) d
          (.ok (addAnyPortMappingReply r eport), d)

end UpnpSoapAuth
