import MiniUPnPd.Netfilter.Iptc

/-!
The redirection functions of the netfilter backend. A mapping is a DNAT rule in the nat
table, an ACCEPT rule in the filter table, with port triggering also a MASQUERADE rule,
and an entry of the description list under the external port and the protocol.
Allocations succeed.
-/
namespace Iptcrdr
open FirstMatch Iptc

def IPPROTO_TCP : Int := 6
def IPPROTO_UDP : Int := 17
def IPPROTO_UDPLITE : Int := 136

def addRedirectDesc (eport : UInt16) (proto : Int) (desc : Option CString) (timestamp : Nat)
    (nf : Netfilter) : Netfilter :=
  nf.setDescs ({ timestamp, eport, proto := Int16.ofInt proto,
                 str := desc.getD "miniupnpd".toList } :: nf.rdrDescList)

def descMatches (eport : UInt16) (proto : Int) (p : RdrDesc) : Bool :=
  p.eport = eport ∧ p.proto.toInt = proto

def delRedirectDesc (eport : UInt16) (proto : Int) (nf : Netfilter) : Netfilter :=
  nf.setDescs (nf.rdrDescList.eraseP (descMatches eport proto))

def getRedirectDesc (eport : UInt16) (proto : Int) (nf : Netfilter) : CString × Nat :=
  match nf.rdrDescList.find? fun p => p.eport = eport ∧ p.proto = Int16.ofInt proto with
  | some p => (p.str, p.timestamp)
  | none => ("miniupnpd".toList, 0)

/-- Port 0 stands for all ports. -/
def portRange (port : UInt16) : UInt16 × UInt16 :=
  if port = 0 then (0, 0xFFFF) else (port, port)

def getMatchName (proto : Int) : MatchName := if proto = IPPROTO_TCP then .tcp else .udp

/-- The address given with `-s` or `-d`, if any. -/
def hostGiven (host : Option CString) : Option InAddr :=
  match host with
  | none => none
  | some s => if s = [] ∨ s = "*".toList then none else some (Inet.inetAddr s)

def hostMask (host : Option CString) : InAddr :=
  if (hostGiven host).isSome then Inet.INADDR_NONE else 0

def natRule (proto : Int) (eport : UInt16) (iaddr : CString) (iport : UInt16)
    (rhost : Option CString) : IptEntry :=
  { proto := UInt16.ofInt proto
    src := (hostGiven rhost).getD 0
    smsk := hostMask rhost
    dst := 0
    dmsk := 0
    matchName := getMatchName proto
    spts := portRange 0
    dpts := portRange eport
    target := { name := .DNAT, minIp := Inet.inetAddr iaddr, minAll := iport }
    pcnt := 0
    bcnt := 0 }

def masqueradeRule (proto : Int) (eport : UInt16) (iaddr : CString) (iport : UInt16)
    (rhost : Option CString) : IptEntry :=
  { proto := UInt16.ofInt proto
    src := (hostGiven (some iaddr)).getD 0
    smsk := hostMask (some iaddr)
    dst := (hostGiven rhost).getD 0
    dmsk := hostMask rhost
    matchName := getMatchName proto
    spts := portRange iport
    dpts := portRange 0
    target := { name := .MASQUERADE, minIp := 0, minAll := eport }
    pcnt := 0
    bcnt := 0 }

def filterRule (proto : Int) (rhost : Option CString) (iaddr : CString) (iport : UInt16) :
    IptEntry :=
  { proto := UInt16.ofInt proto
    src := (hostGiven rhost).getD 0
    smsk := hostMask rhost
    dst := Inet.inetAddr iaddr
    dmsk := Inet.INADDR_NONE
    matchName := getMatchName proto
    spts := portRange 0
    dpts := portRange iport
    target := { name := .ACCEPT, minIp := 0, minAll := 0 }
    pcnt := 0
    bcnt := 0 }

def addnatrule (proto : Int) (eport : UInt16) (iaddr : CString) (iport : UInt16)
    (rhost : Option CString) (nf : Netfilter) : Int × Netfilter :=
  iptcInitVerifyAndAppend .nat (natRule proto eport iaddr iport rhost) nf

def addmasqueraderule (proto : Int) (eport : UInt16) (iaddr : CString) (iport : UInt16)
    (rhost : Option CString) (nf : Netfilter) : Int × Netfilter :=
  iptcInitVerifyAndAppend .postrouting (masqueradeRule proto eport iaddr iport rhost) nf

def addRedirectRule2 (portTriggering : Bool) (rhost : Option CString) (eport : UInt16)
    (iaddr : CString) (iport : UInt16) (proto : Int) (desc : Option CString) (timestamp : Nat)
    (nf : Netfilter) : Int × Netfilter :=
  let (r, nf) := addnatrule proto eport iaddr iport rhost nf
  if r ≥ 0 then
    let nf := addRedirectDesc eport proto desc timestamp nf
    if portTriggering then addmasqueraderule proto eport iaddr iport rhost nf else (r, nf)
  else (r, nf)

def addFilterRule2 (rhost : Option CString) (iaddr : CString) (iport : UInt16) (proto : Int)
    (nf : Netfilter) : Int × Netfilter :=
  iptcInitVerifyAndAppend .forward (filterRule proto rhost iaddr iport) nf

def redirectMatches (proto : Int) (eport : UInt16) (e : IptEntry) : Bool :=
  proto = e.proto.toNat ∧ eport = e.dpts.1

def filterMatches (proto : Int) (iport : UInt16) (iaddr : InAddr) (e : IptEntry) : Bool :=
  proto = e.proto.toNat ∧ iport = e.dpts.1 ∧ iaddr = e.dst

def peerMatches (proto : Int) (eport : UInt16) (e : IptEntry) : Bool :=
  proto = e.proto.toNat ∧ eport = e.target.minAll

def sourceMatches (proto : Int) (iport : UInt16) (iaddr : InAddr) (e : IptEntry) : Bool :=
  proto = e.proto.toNat ∧ iport = e.spts.1 ∧ iaddr = e.src

/-- What the lookups hand back about a rule. -/
structure RedirectRule where
  eport : UInt16
  proto : Int
  iaddr : CString
  iport : UInt16
  desc : CString
  rhost : CString
  timestamp : Nat
  packets : Nat
  bytes : Nat
  deriving DecidableEq

def rhostOf (e : IptEntry) : CString := if e.src = 0 then [] else Inet.inetNtoa e.src

def readRule (nf : Netfilter) (e : IptEntry) : RedirectRule :=
  let (desc, timestamp) := getRedirectDesc e.dpts.1 e.proto.toNat nf
  { eport := e.dpts.1
    proto := e.proto.toNat
    iaddr := Inet.inetNtoa e.target.minIp
    iport := e.target.minAll
    desc
    rhost := rhostOf e
    timestamp
    packets := e.pcnt
    bytes := e.bcnt }

def getRedirectRule (eport : UInt16) (proto : Int) (nf : Netfilter) :
    Option RedirectRule × Netfilter :=
  let (done, nf) := iptcCalls 2 nf
  (if done then ((nf.chain .nat).find? (redirectMatches proto eport)).map (readRule nf) else none,
    nf)

def getRedirectRuleByIndex (index : Int) (nf : Netfilter) : Option RedirectRule × Netfilter :=
  let (done, nf) := iptcCalls 2 nf
  (if done ∧ 0 ≤ index then (nf.chain .nat)[index.toNat]?.map (readRule nf) else none, nf)

/-- The external ports in the order of the rules; no list when libiptc fails. -/
def getPortmappingsInRange (startport endport : UInt16) (proto : Int) (nf : Netfilter) :
    Option (List UInt16) × Netfilter :=
  let (done, nf) := iptcCalls 2 nf
  (if done then
      some (((nf.chain .nat).filter fun e =>
        proto = e.proto.toNat ∧ startport ≤ e.dpts.1 ∧ e.dpts.1 ≤ endport).map fun e => e.dpts.1)
    else none,
    nf)

/-- The first filter rule for the internal host and port of the redirection `e`. -/
def deleteFilterOf (e : IptEntry) (proto : Int) (nf : Netfilter) : Int × Netfilter :=
  let (opened, nf) := iptcCall nf
  if opened then
    match findFirst (filterMatches proto e.target.minAll e.target.minIp) (nf.chain .forward) with
    | none => (0, nf)
    | some (index, _) => deleteRuleAndCommit index .forward nf
  else (0, nf)

/-- When the second `iptc_init` fails the result stays 0 and the nat rule stays. -/
def deleteNatAndFilter (index : Nat) (e : IptEntry) (proto : Int) (nf : Netfilter) :
    Int × Netfilter :=
  let (opened, nf) := iptcCall nf
  let (r, nf) := if opened then deleteRuleAndCommit index .nat nf else (0, nf)
  if r = 0 then deleteFilterOf e proto nf else (r, nf)

def deleteDscp (proto : Int) (iport : UInt16) (iaddr : InAddr) (nf : Netfilter) :
    Int × Netfilter :=
  let (opened, nf) := iptcCall nf
  if opened then
    match findFirst (sourceMatches proto iport iaddr) (nf.chain .mangle) with
    | none => (0, nf)
    | some (index, _) => deleteRuleAndCommit index .mangle nf
  else (0, nf)

def deletePeer (eport : UInt16) (proto : Int) (nf : Netfilter) : Int × Netfilter :=
  let (opened, nf) := iptcCall nf
  if opened then
    match findFirst (peerMatches proto eport) (nf.chain .postrouting) with
    | none => (-1, nf)
    | some (index, e) =>
        let (r2, nf) := deleteRuleAndCommit index .postrouting nf
        if r2 = 0 then deleteDscp proto e.spts.1 e.src nf else (r2, nf)
  else (-1, nf)

def deleteRedirectAndFilterRules (eport : UInt16) (proto : Int) (nf : Netfilter) :
    Int × Netfilter :=
  let (opened, nf) := iptcCall nf
  if opened then
    let (isChain, nf) := iptcCall nf
    let found := if isChain then findFirst (redirectMatches proto eport) (nf.chain .nat) else none
    let (r, nf) :=
      match found with
      | none => (-1, nf)
      | some (index, e) => deleteNatAndFilter index e proto nf
    let (r2, nf) := deletePeer eport proto nf
    (r * r2, delRedirectDesc eport proto nf)
  else (-1, nf)

def updatePortmappingDescTimestamp (eport : UInt16) (proto : Int) (desc : Option CString)
    (timestamp : Nat) (nf : Netfilter) : Int × Netfilter :=
  (0, addRedirectDesc eport proto desc timestamp (delRedirectDesc eport proto nf))

def withIport (iport : UInt16) (e : IptEntry) : IptEntry :=
  { e with target := { e.target with minAll := iport } }

def withDpts (iport : UInt16) (e : IptEntry) : IptEntry := { e with dpts := (iport, iport) }

def withSpts (iport : UInt16) (e : IptEntry) : IptEntry := { e with spts := (iport, iport) }

/-- A failure here is not reported. -/
def updateSnat (eport : UInt16) (proto : Int) (oldIport : UInt16) (iaddr : InAddr)
    (iport : UInt16) (nf : Netfilter) : Netfilter :=
  let (done, nf) := iptcCalls 2 nf
  if done then
    match findFirst (fun e => peerMatches proto eport e && sourceMatches proto oldIport iaddr e)
        (nf.chain .postrouting) with
    | none => nf
    | some (index, e) => (updateRuleAndCommit .postrouting index (withSpts iport e) nf).2
  else nf

def updateFilter (proto : Int) (oldIport : UInt16) (iaddr : InAddr) (iport : UInt16)
    (nf : Netfilter) : Int × Netfilter :=
  let (done, nf) := iptcCalls 2 nf
  if done then
    match findFirst (filterMatches proto oldIport iaddr) (nf.chain .forward) with
    | none => (-1, nf)
    | some (index, e) => updateRuleAndCommit .forward index (withDpts iport e) nf
  else (-1, nf)

def updatePortmapping (portTriggering : Bool) (eport : UInt16) (proto : Int) (iport : UInt16)
    (desc : Option CString) (timestamp : Nat) (nf : Netfilter) : Int × Netfilter :=
  let (done, nf) := iptcCalls 2 nf
  if done then
    match findFirst (redirectMatches proto eport) (nf.chain .nat) with
    | none => (-1, nf)
    | some (index, e) =>
        let (r, nf) := updateRuleAndCommit .nat index (withIport iport e) nf
        if r < 0 then (r, nf)
        else
          let (r, nf) := updateFilter proto e.target.minAll e.target.minIp iport nf
          if r < 0 then (r, nf)
          else
            let nf :=
              if portTriggering then
                updateSnat eport proto e.target.minAll e.target.minIp iport nf
              else nf
            updatePortmappingDescTimestamp eport proto desc timestamp nf
  else (-1, nf)

end Iptcrdr
