import MiniUPnPd.Lib.FirstMatch
import MiniUPnPd.Pf.Pfpinhole

/-!
The port mappings of the pf backend. The old style of pf keeps one ruleset for each kind of
rule, the new style a single one for all. The calls of `ioctl` and `malloc` succeed, and nobody
else writes to the anchor.
-/
namespace Obsdrdr
open CText FirstMatch Inet PinholeLabel Pfpinhole
open PcpServer (In6Addr)

structure Config where
  newstyle : Bool
  enableFilterRules : Bool
  portTriggering : Bool
  useIfnameInRules : Bool
  /-- `use_ext_ip_addr` where it is set and `PF_SET_DST_ADDR` is defined. -/
  setDstAddr : Option CString

inductive Action where
  | PF_PASS
  | PF_MATCH
  | PF_NAT
  | PF_RDR
  deriving DecidableEq

inductive Ruleset where
  | PF_RULESET_FILTER
  | PF_RULESET_NAT
  | PF_RULESET_RDR
  deriving DecidableEq

/-- The ruleset that `rule.action` selects. -/
def rulesetOf (cfg : Config) (action : Action) : Ruleset :=
  if cfg.newstyle then .PF_RULESET_FILTER
  else
    match action with
    | .PF_PASS | .PF_MATCH => .PF_RULESET_FILTER
    | .PF_NAT => .PF_RULESET_NAT
    | .PF_RDR => .PF_RULESET_RDR

/-- A redirection has its target in `rpool` in the old style, in `rdr` in the new style. -/
structure Rule extends PfRule where
  action : Action
  dstPort1 : UInt16 := 0
  rpoolList : List InAddr := []
  rpoolPort : UInt16 := 0
  rdrAddr : InAddr := 0
  rdrPort : UInt16 := 0
  deriving DecidableEq

structure TimestampEntry where
  timestamp : Nat
  eport : UInt16
  protocol : Int16
  deriving DecidableEq

structure State where
  rules : Ruleset → List Rule
  timestampList : List TimestampEntry
  nextUid : Nat

def State.start : State := { rules := fun _ => [], timestampList := [], nextUid := 1 }

def stampMatches (eport : UInt16) (proto : Int) (e : TimestampEntry) : Bool :=
  e.eport = eport ∧ e.protocol = Int16.ofInt proto

def getTimestamp (eport : UInt16) (proto : Int) (timestampList : List TimestampEntry) : Nat :=
  match timestampList.find? (stampMatches eport proto) with
  | some e => e.timestamp
  | none => 0

def removeTimestampEntry (eport : UInt16) (proto : Int) (timestampList : List TimestampEntry) :
    List TimestampEntry := timestampList.eraseP (stampMatches eport proto)

def addTimestampEntry (eport : UInt16) (proto : Int) (timestamp : Nat)
    (timestampList : List TimestampEntry) : List TimestampEntry :=
  { timestamp, eport, protocol := Int16.ofInt proto } :: timestampList

/-- `DIOCCHANGERULE` with `PF_CHANGE_ADD_TAIL`. -/
def State.addTail (cfg : Config) (r : Rule) (s : State) : State :=
  let ruleset := rulesetOf cfg r.action
  { s with rules := Function.update s.rules ruleset (s.rules ruleset ++ [r]) }

/-- `DIOCCHANGERULE` with `PF_CHANGE_REMOVE`. -/
def State.removeRule (ruleset : Ruleset) (i : Nat) (s : State) : State :=
  { s with rules := Function.update s.rules ruleset ((s.rules ruleset).eraseIdx i) }

/-- An IPv4 address in the union with an IPv6 address, which begins at the same byte. -/
def v4Addr (a : InAddr) : In6Addr := a ++ 0#96

def v4Part (a : In6Addr) : InAddr := a.extractLsb' 96 32

def anyHost : PfRuleAddr := { addr := 0, mask := 0, portOp := .PF_OP_NONE, port := 0 }

def oneHost (a : InAddr) : PfRuleAddr :=
  { addr := v4Addr a, mask := v4Addr INADDR_NONE, portOp := .PF_OP_NONE, port := 0 }

/-- Any text that begins with a star stands for any host. -/
def remoteHost : Option CString → PfRuleAddr
  | none | some [] => anyHost
  | some (c :: s) => if c = '*' then anyHost else oneHost ((inetPton (c :: s)).getD 0)

def ruleIfname (cfg : Config) (ifname : Option CString) : Option CString :=
  if cfg.useIfnameInRules then ifname else none

def ruleLabel (desc : CString) : CString := desc.take (PF_RULE_LABEL_SIZE - 1)

def redirectRule (cfg : Config) (ifname rhost : Option CString) (eport : UInt16) (iaddr : CString)
    (iport : UInt16) (proto : Int) (desc : CString) : Rule :=
  let target := (inetPton iaddr).getD 0
  let dst :=
    match cfg.setDstAddr with
    | some ext => oneHost ((inetPton ext).getD 0)
    | none => anyHost
  { ifname := ruleIfname cfg ifname
    proto := UInt8.ofInt proto
    src := remoteHost rhost
    dst := { dst with portOp := .PF_OP_EQ, port := eport }
    dstPort1 := eport
    label := ruleLabel desc
    action :=
      if cfg.newstyle then (if cfg.enableFilterRules then .PF_MATCH else .PF_PASS) else .PF_RDR
    rpoolList := if cfg.newstyle then [] else [target]
    rpoolPort := if cfg.newstyle then 0 else iport
    rdrAddr := if cfg.newstyle then target else 0
    rdrPort := if cfg.newstyle then iport else 0 }

def passRule (cfg : Config) (ifname rhost : Option CString) (iaddr : CString) (iport : UInt16)
    (proto : Int) (desc : CString) : Rule :=
  { ifname := ruleIfname cfg ifname
    proto := UInt8.ofInt proto
    src := remoteHost rhost
    dst := { oneHost ((inetPton iaddr).getD 0) with portOp := .PF_OP_EQ, port := iport }
    label := ruleLabel desc
    action := .PF_PASS
    rpoolPort := if cfg.newstyle then 0 else iport }

/-- The external address and port are in `nat` in the new style, which nothing here reads. -/
def natRule (cfg : Config) (ifname rhost : Option CString) (eport : UInt16) (iaddr : CString)
    (iport : UInt16) (proto : Int) (desc extaddr : CString) : Rule :=
  { ifname := ruleIfname cfg ifname
    proto := UInt8.ofInt proto
    src := { oneHost ((inetPton iaddr).getD 0) with portOp := .PF_OP_EQ, port := iport }
    dst := remoteHost rhost
    label := ruleLabel desc
    action := .PF_NAT
    rpoolList := if cfg.newstyle then [] else [(inetPton extaddr).getD 0]
    rpoolPort := if cfg.newstyle then 0 else eport }

def IPPROTO_UDP : Int := 17

/-- `extaddr` is `use_ext_ip_addr`, or else what `getifaddr` finds for the interface. -/
def addNatRule (cfg : Config) (ifname rhost : Option CString) (eport : UInt16) (iaddr : CString)
    (iport : UInt16) (proto : Int) (desc : CString) (extaddr : Option CString) (s : State) :
    Int × State :=
  match extaddr with
  | none => (-1, s)
  | some ext => (0, s.addTail cfg (natRule cfg ifname rhost eport iaddr iport proto desc ext))

def addRedirectRule2 (cfg : Config) (ifname rhost : Option CString) (eport : UInt16)
    (iaddr : CString) (iport : UInt16) (proto : Int) (desc : CString) (timestamp : Nat)
    (extaddr : Option CString) (s : State) : Int × State :=
  let s := s.addTail cfg (redirectRule cfg ifname rhost eport iaddr iport proto desc)
  let s :=
    if timestamp > 0 then
      { s with timestampList := addTimestampEntry eport proto timestamp s.timestampList }
    else s
  let s :=
    if cfg.portTriggering ∧ proto = IPPROTO_UDP then
      (addNatRule cfg ifname rhost eport iaddr iport proto desc extaddr s).2
    else s
  (0, s)

def addFilterRule2 (cfg : Config) (ifname rhost : Option CString) (iaddr : CString)
    (iport : UInt16) (proto : Int) (desc : CString) (s : State) : Int × State :=
  if cfg.enableFilterRules then
    (0, s.addTail cfg (passRule cfg ifname rhost iaddr iport proto desc))
  else (0, s)

def getRedirectRuleCount (cfg : Config) (s : State) : Int :=
  (s.rules (rulesetOf cfg .PF_RDR)).length

/-- `DIOCGETADDRS` and `DIOCGETADDR` in the old style. -/
def internalAddr (cfg : Config) (r : Rule) : Option InAddr :=
  if cfg.newstyle then some r.rdrAddr
  else
    match r.rpoolList with
    | [a] => some a
    | _ => none

def proxyPort (cfg : Config) (r : Rule) : UInt16 :=
  if cfg.newstyle then r.rdrPort else r.rpoolPort

def rhostText (r : Rule) : CString :=
  if v4Part r.src.addr = 0 then [] else inetNtoa (v4Part r.src.addr)

structure RedirectInfo where
  ifname : Option CString
  eport : UInt16
  iaddr : CString
  iport : UInt16
  proto : Int
  desc : CString
  rhost : CString
  timestamp : Nat
  deriving DecidableEq

/-- What is read of a rule, into buffers that are large enough. -/
def redirectInfo (cfg : Config) (timestampList : List TimestampEntry) (r : Rule) :
    Option RedirectInfo := do
  let iaddr ← internalAddr cfg r
  pure
    { ifname := r.ifname
      eport := r.dst.port
      iaddr := inetNtoa iaddr
      iport := proxyPort cfg r
      proto := r.proto.toNat
      desc := r.label
      rhost := rhostText r
      timestamp := getTimestamp r.dst.port r.proto.toNat timestampList }

def redirectMatches (eport : UInt16) (proto : Int) (r : Rule) : Bool :=
  eport = r.dst.port ∧ eport = r.dstPort1 ∧ (r.proto.toNat : Int) = proto

def getRedirectRule (cfg : Config) (eport : UInt16) (proto : Int) (s : State) :
    Option RedirectInfo := do
  let r ← (s.rules (rulesetOf cfg .PF_RDR)).find? (redirectMatches eport proto)
  redirectInfo cfg s.timestampList r

def getRedirectRuleByIndex (cfg : Config) (index : Int) (s : State) : Option RedirectInfo :=
  if index < 0 then none
  else do
    let r ← (s.rules (rulesetOf cfg .PF_RDR))[index.toNat]?
    redirectInfo cfg s.timestampList r

/-- What the deletion of a redirection hands to its callers. -/
structure Deleted where
  iport : UInt16
  iaddr : InAddr
  rhost : CString

/-- `none` is the result -1. The rule is left where it is, with the result 1, when its label is
    the description to check. -/
def privDeleteRedirectRuleCheckDesc (cfg : Config) (eport : UInt16) (proto : Int)
    (checkDesc : Option CString) (s : State) : Option (Int × Deleted) × State :=
  match findFirst (redirectMatches eport proto) (s.rules (rulesetOf cfg .PF_RDR)) with
  | none => (none, s)
  | some (i, r) =>
    match internalAddr cfg r with
    | none => (none, s)
    | some iaddr =>
      let deleted : Deleted := { iport := proxyPort cfg r, iaddr, rhost := rhostText r }
      if checkDesc = some r.label then (some (1, deleted), s)
      else
        let s := s.removeRule (rulesetOf cfg .PF_RDR) i
        (some (0, deleted),
          { s with timestampList := removeTimestampEntry eport proto s.timestampList })

def filterMatches (iport : UInt16) (proto : Int) (iaddr : InAddr) (r : Rule) : Bool :=
  iport = r.dst.port ∧ (r.proto.toNat : Int) = proto ∧ (iaddr = 0 ∨ iaddr = v4Part r.dst.addr)

def privDeleteFilterRule (cfg : Config) (iport : UInt16) (proto : Int) (iaddr : InAddr)
    (s : State) : Int × State :=
  if cfg.enableFilterRules then
    match findFirst (filterMatches iport proto iaddr) (s.rules (rulesetOf cfg .PF_PASS)) with
    | none => (-1, s)
    | some (i, _) => (0, s.removeRule (rulesetOf cfg .PF_PASS) i)
  else (0, s)

def natMatches (iport : UInt16) (proto : Int) (iaddr : InAddr) (r : Rule) : Bool :=
  iport = r.src.port ∧ (r.proto.toNat : Int) = proto ∧ iaddr = v4Part r.src.addr

def deleteNatRule (cfg : Config) (iport : UInt16) (proto : Int) (iaddr : InAddr) (s : State) :
    Int × State :=
  match findFirst (natMatches iport proto iaddr) (s.rules (rulesetOf cfg .PF_NAT)) with
  | none => (-1, s)
  | some (i, _) => (0, s.removeRule (rulesetOf cfg .PF_NAT) i)

def deleteRedirectAndFilterRules (cfg : Config) (eport : UInt16) (proto : Int) (s : State) :
    Int × State :=
  match privDeleteRedirectRuleCheckDesc cfg eport proto none s with
  | (none, s) => (-1, s)
  | (some (_, deleted), s) =>
    let s :=
      if cfg.portTriggering ∧ proto = IPPROTO_UDP then
        (deleteNatRule cfg deleted.iport proto deleted.iaddr s).2
      else s
    privDeleteFilterRule cfg deleted.iport proto deleted.iaddr s

/-- The second half of the two updates. -/
def replaceRules (cfg : Config) (ifname : Option CString) (eport : UInt16) (proto : Int)
    (deleted : Deleted) (iport : UInt16) (desc : CString) (timestamp : Nat)
    (extaddr : Option CString) (s : State) : Int × State :=
  match privDeleteFilterRule cfg deleted.iport proto deleted.iaddr s with
  | (r, s) =>
    if r < 0 then (-1, s)
    else
      let iaddr := inetNtoa deleted.iaddr
      match addRedirectRule2 cfg ifname (some deleted.rhost) eport iaddr iport proto desc
          timestamp extaddr s with
      | (r, s) =>
        if r < 0 then (-1, s)
        else
          match addFilterRule2 cfg ifname (some deleted.rhost) iaddr iport proto desc s with
          | (r, s) => if r < 0 then (-1, s) else (0, s)

def updatePortmapping (cfg : Config) (ifname : Option CString) (eport : UInt16) (proto : Int)
    (iport : UInt16) (desc : CString) (timestamp : Nat) (extaddr : Option CString) (s : State) :
    Int × State :=
  match privDeleteRedirectRuleCheckDesc cfg eport proto none s with
  | (none, s) => (-1, s)
  | (some (_, deleted), s) =>
    replaceRules cfg ifname eport proto deleted iport desc timestamp extaddr s

def updatePortmappingDescTimestamp (cfg : Config) (ifname : Option CString) (eport : UInt16)
    (proto : Int) (desc : CString) (timestamp : Nat) (extaddr : Option CString) (s : State) :
    Int × State :=
  match privDeleteRedirectRuleCheckDesc cfg eport proto (some desc) s with
  | (none, s) => (-1, s)
  | (some (r, deleted), s) =>
    if r = 1 then
      let entries := removeTimestampEntry eport proto s.timestampList
      (0, { s with timestampList := addTimestampEntry eport proto timestamp entries })
    else replaceRules cfg ifname eport proto deleted deleted.iport desc timestamp extaddr s

def addPinhole (cfg : Config) (ifname remHost : Option CString) (remPort : UInt16)
    (intClient : CString) (intPort : UInt16) (proto : UInt8) (desc : CString) (timestamp : Nat)
    (s : State) : Int × State :=
  let uid := s.nextUid
  let label := (pinholeLabel uid timestamp desc).take (PF_RULE_LABEL_SIZE - 1)
  let rule := pinholeRule ifname remHost remPort intClient intPort proto label
  let s := s.addTail cfg { rule with action := .PF_PASS }
  (uid, { s with nextUid := succUid uid })

/-- The label after `strtok(label, " ")`. -/
def labelStart (label : CString) : CString :=
  label.takeWhile (· = ' ') ++ (label.dropWhile (· = ' ')).takeWhile (· ≠ ' ')

def labelledPinhole (uid : UInt16) (r : Rule) : Bool :=
  labelStart r.label = pinholeText ++ utoa uid.toNat

def deletePinhole (cfg : Config) (uid : UInt16) (s : State) : Int × State :=
  match findFirst (labelledPinhole uid) (s.rules (rulesetOf cfg .PF_PASS)) with
  | none => (-2, s)
  | some (i, _) => (0, s.removeRule (rulesetOf cfg .PF_PASS) i)

def UINT_MAX : Nat := 2 ^ 32 - 1

def INT_MAX : Int := 2 ^ 31 - 1

/-- The counts of the loop of `clean_pinhole_list`. -/
structure Cleaning where
  minTs : Nat
  minUid : Int
  maxUid : Int
  n : Nat

/-- The loop with the rules below this index still to go, the last one first. -/
def cleanLoop (cfg : Config) (now : Nat) : (i : Nat) → Cleaning → State → Cleaning × State
  | 0, c, s => (c, s)
  | i + 1, c, s =>
      match (s.rules (rulesetOf cfg .PF_PASS))[i]?.bind fun r => scanLabel r.label with
      | none => cleanLoop cfg now i c s
      | some (uid, ts) =>
          if ts ≤ now then
            cleanLoop cfg now i { c with n := c.n + 1 } (s.removeRule (rulesetOf cfg .PF_PASS) i)
          else
            let c :=
              if uid > c.maxUid then { c with maxUid := uid }
              else if uid < c.minUid then { c with minUid := uid }
              else c
            cleanLoop cfg now i { c with minTs := min ts c.minTs } s

/-- The next uid after a cleaning. -/
def renumbered (c : Cleaning) (nextUid : Nat) : Nat :=
  if c.maxUid > 0 then
    let next :=
      if c.minUid - 32000 ≤ nextUid ∧ (nextUid : Int) ≤ c.maxUid then (c.maxUid + 1).toNat
      else nextUid
    if next ≥ 65535 then 1 else next
  else nextUid

/-- The next expiry time is written unless no pinhole is left that has one. -/
def cleanPinholeList (cfg : Config) (now : Nat) (s : State) : (Nat × Option Nat) × State :=
  let (c, s) := cleanLoop cfg (now % 2 ^ 32) (s.rules (rulesetOf cfg .PF_PASS)).length
    { minTs := UINT_MAX, minUid := INT_MAX, maxUid := -1, n := 0 } s
  ((c.n, if c.minTs = UINT_MAX then none else some c.minTs),
    { s with nextUid := renumbered c s.nextUid })

end Obsdrdr
