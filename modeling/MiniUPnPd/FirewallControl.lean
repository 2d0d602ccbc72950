import MiniUPnPd.Lib.InetNtop6
import MiniUPnPd.Lib.Runs
import MiniUPnPd.PcpPinholes

/-!
The SOAP actions of WANIPv6FirewallControl that write the table of pinholes. A client may
act on pinholes to its own address only, which is decided by the text of the address.
-/
namespace FirewallControl
open CText FirstMatch Inet Iptcrdr Iptpinhole NetBytes PcpPinholes PcpServer Runs

inductive AiFamily where
  | AF_UNSPEC
  | AF_INET6

/-- An entry of the list that `getaddrinfo` returns. `head` is what its first 16 bytes, the
    flags, the family, the type and the protocol, are as an IPv6 address. -/
structure AddrInfo where
  isInet6 : Bool
  head : In6Addr
  addr : In6Addr

structure FirewallEnv extends PinholeEnv where
  ipv6fcFwDisabled : Bool
  ipv6fcInboundDisallowed : Bool
  getaddrinfo : (name : CString) → (service : Option CString) → AiFamily → Option (List AddrInfo)

def FirewallEnv.libc (env : FirewallEnv) : PinholeEnv :=
  { env.toPinholeEnv with inetPton6 := inetPton6, inetNtop6 := inetNtop6 }

inductive Reply where
  | soapError (code : Nat) (description : String)
  | uniqueID (uid : Int)
  | done
  deriving DecidableEq

def invalidArgs : Reply := .soapError 402 "Invalid Args"

def notAuthorized : Reply := .soapError 606 "Action not authorized"

def noSuchEntry : Reply := .soapError 704 "NoSuchEntry"

def actionFailed : Reply := .soapError 501 "ActionFailed"

abbrev Args := List (CString × CString)

def getValueFromNameValueList (args : Args) (name : String) : Option CString :=
  (args.find? fun nv => nv.1 = name.toList).map (·.2)

/-- `strtol` with base 0. Values beyond its range are not valid for the caller either. -/
def strtolBase0 (s : CString) : Int :=
  match s.dropWhile isspace with
  | '-' :: t => -((strtoulBase0 t).1 : Int)
  | '+' :: t => (strtoulBase0 t).1
  | t => (strtoulBase0 t).1

def firstInet6 (ai : Option (List AddrInfo)) : Option AddrInfo :=
  ai.bind fun list => list.find? (·.isInet6)

def checkStatus (env : FirewallEnv) : Option Reply :=
  if env.ipv6fcFwDisabled then some (.soapError 702 "FirewallDisabled")
  else if env.ipv6fcInboundDisallowed then some (.soapError 703 "InboundPinholeNotAllowed")
  else none

section functions
variable (env : FirewallEnv) (clientaddrV6 : In6Addr)

/-- The text of the internal client after its conversion. For a host name it is not the
    address of the entry that is converted but the entry itself, into a buffer of 16 bytes;
    a text that does not fit leaves the host name there. -/
def convertedClient (intIp : CString) : Option CString :=
  match inetPton6 intIp with
  | some _ => some intIp
  | none =>
    (firstInet6 (env.getaddrinfo intIp none .AF_UNSPEC)).map fun p =>
      if (inetNtop6 p.head).length < 16 then inetNtop6 p.head else intIp

/-- The result with the text that is left in the argument. When the texts differ, the places
    of two arrays are compared in place of the addresses in them, and these always differ. -/
def pinholeVerification (intIp : CString) (intPort : UInt16) : Int × CString :=
  match convertedClient env intIp with
  | none => (-1, intIp)
  | some text =>
    if inetNtop6 clientaddrV6 ≠ text then (0, text)
    else if intPort < 1024 then (0, text)
    else (1, text)

/-- The error that goes with a result that is not positive. -/
def verificationError (r : Int) : Reply := if r = 0 then notAuthorized else invalidArgs

/-- A remote host that is a name is replaced by its first IPv6 address, if it has one. -/
def remoteHost (remHost remPort : Option CString) : Option CString :=
  remHost.map fun given =>
    let s := given.dropWhile isspace
    if s = [] ∨ s.head? = some '*' then s
    else
      match firstInet6 (env.getaddrinfo s remPort .AF_INET6) with
      | some p => inetNtop6 p.addr
      | none => s

structure PinholeRequest where
  remHost : Option CString
  rport : UInt16
  intIp : CString
  iport : UInt16
  proto : UInt8
  ltime : Nat

def portArgument (args : Args) (name : String) : UInt16 :=
  ((getValueFromNameValueList args name).map atous).getD 0

/-- -1 where the argument is missing. -/
def intArgument (args : Args) (name : String) : Int :=
  ((getValueFromNameValueList args name).map atoi).getD (-1)

def protocolArgument (args : Args) : Int :=
  ((getValueFromNameValueList args "Protocol").map strtolBase0).getD (-1)

/-- The checks of `AddPinhole` before that of the client. -/
def addArguments (args : Args) : Except Reply PinholeRequest :=
  let iport := portArgument args "InternalPort"
  let proto := protocolArgument args
  let ltime := intArgument args "LeaseTime"
  if proto > 65535 ∨ proto < 0 then .error invalidArgs
  else if iport = 0 then .error (.soapError 706 "InternalPortWilcardingNotAllowed")
  else
    match getValueFromNameValueList args "InternalClient" with
    | none => .error (.soapError 708 "WildCardNotPermittedInSrcIP")
    | some intIp =>
      if intIp = [] ∨ intIp = "*".toList then .error (.soapError 708 "WildCardNotPermittedInSrcIP")
      else if proto = 65535 then .error (.soapError 707 "ProtocolWilcardingNotAllowed")
      else if proto ≠ IPPROTO_UDP ∧ proto ≠ IPPROTO_TCP then
        .error (.soapError 705 "ProtocolNotSupported")
      else if ltime < 1 ∨ ltime > 86400 then .error invalidArgs
      else
        .ok
          { remHost := remoteHost env (getValueFromNameValueList args "RemoteHost")
              (getValueFromNameValueList args "RemotePort")
            rport := portArgument args "RemotePort"
            intIp, iport, proto := UInt8.ofInt proto, ltime := ltime.toNat }

/-- The uid that `upnp_add_inboundpinhole` hands back. -/
def inboundpinholeUid (req : PinholeRequest) (intIp : CString) (fw : Firewall) : Int :=
  match upnpFindInboundpinhole env.libc req.remHost req.rport intIp req.iport req.proto fw with
  | some uid => uid.toNat
  | none =>
    ((Iptpinhole.addPinhole inetPton6 env.extIfName6 req.remHost req.rport intIp req.iport req.proto
      "IGD2 pinhole".toList (pinholeExpiry env.libc req.ltime) fw).map (·.1)).getD (-1)

def addReply (r uid : Int) : Reply :=
  if r = 1 then .uniqueID uid
  else if r = -1 then .soapError 701 "PinholeSpaceExhausted"
  else actionFailed

/-- None when the search for a uid never ends. -/
def addPinhole (args : Args) (fw : Firewall) : Option (Reply × Firewall) :=
  match checkStatus env with
  | some reply => some (reply, fw)
  | none =>
    match addArguments env args with
    | .error reply => some (reply, fw)
    | .ok req =>
      let (verified, intIp) := pinholeVerification env clientaddrV6 req.intIp req.iport
      if verified ≤ 0 then some (verificationError verified, fw)
      else
        (upnpAddInboundpinhole env.libc req.remHost req.rport intIp req.iport req.proto
          "IGD2 pinhole".toList req.ltime fw).map fun (r, fw') =>
            (addReply r (inboundpinholeUid env req intIp fw), fw')

def updatePinhole (args : Args) (fw : Firewall) : Reply × Firewall :=
  match checkStatus env with
  | some reply => (reply, fw)
  | none =>
    let uid := intArgument args "UniqueID"
    let ltime := intArgument args "NewLeaseTime"
    if uid < 0 ∨ uid > 65535 ∨ ltime ≤ 0 ∨ ltime > 86400 then (invalidArgs, fw)
    else
      match upnpGetPinholeInfo env.libc (UInt16.ofInt uid) fw with
      | none => (noSuchEntry, fw)
      | some info =>
        let (verified, _) := pinholeVerification env clientaddrV6 info.iaddr info.iport
        if verified ≤ 0 then (verificationError verified, fw)
        else
          let (n, fw) := upnpUpdateInboundpinhole env.libc (UInt16.ofInt uid) ltime.toNat fw
          (if n = -1 then noSuchEntry else if n < 0 then actionFailed else .done, fw)

def deletePinhole (args : Args) (fw : Firewall) : Reply × Firewall :=
  match checkStatus env with
  | some reply => (reply, fw)
  | none =>
    let uid := intArgument args "UniqueID"
    if uid < 0 ∨ uid > 65535 then (invalidArgs, fw)
    else
      match upnpGetPinholeInfo env.libc (UInt16.ofInt uid) fw with
      | none => (noSuchEntry, fw)
      | some info =>
        let (verified, _) := pinholeVerification env clientaddrV6 info.iaddr info.iport
        if verified ≤ 0 then (verificationError verified, fw)
        else
          let (n, fw) := upnpDeleteInboundpinhole (UInt16.ofInt uid) fw
          (if n < 0 then actionFailed else .done, fw)

end functions

end FirewallControl
