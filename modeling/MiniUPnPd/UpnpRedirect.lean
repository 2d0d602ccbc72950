import MiniUPnPd.LeaseFile
import MiniUPnPd.Netfilter.Iptcrdr
import MiniUPnPd.UpnpPermissions

/-!
The redirection layer that UPnP, NAT-PMP, PCP and the lease file share, on Linux without
SDN. `Env` is what a call reads besides the state of the daemon. The daemon also keeps a
record of the calls made, for statements about them; no function reads it.
-/
namespace UpnpRedirect
open CText Inet Iptc Iptcrdr LeaseFile UpnpPermissions

structure Env where
  enablePortTriggering : Bool
  checkPortinuse : Bool
  enableLeasefile : Bool
  disablePortForwarding : Bool
  upnppermlist : List UpnpPerm
  portInUse : (eport : UInt16) → (proto : Int) → (iaddr : CString) → (iport : UInt16) → Bool
  clock : Clock

inductive Call where
  | upnpRedirect (rhost : Option CString) (eport : UInt16) (iaddr : CString) (iport : UInt16)
      (protocol : CString) (desc : Option CString) (leaseduration : Nat)
  /-- `added` tells whether the redirection got into the nat table. -/
  | upnpRedirectInternal (rhost : Option CString) (eport : UInt16) (iaddr : CString)
      (iport : UInt16) (proto : Int) (desc : CString) (timestamp : Nat) (added : Bool)
  /-- `upnp_event_var_change_notify(EWanIPC)` -/
  | upnpEventVarChangeNotify
  deriving DecidableEq

structure Daemon where
  nf : Netfilter
  nextruletocleanTimestamp : Nat
  leaseFile : Option CString
  calls : List Call

/-- The tables are empty and no libiptc call will fail. -/
def Daemon.start (leaseFile : Option CString) : Daemon :=
  { nf := Netfilter.empty, nextruletocleanTimestamp := 0, leaseFile, calls := [] }

/-- No optional feature, everything permitted. -/
def Env.plain (now : Nat) : Env :=
  { enablePortTriggering := false
    checkPortinuse := false
    enableLeasefile := false
    disablePortForwarding := false
    upnppermlist := []
    portInUse := fun _ _ _ _ => false
    clock := { upnpTime := now, unixTime := now, leasefileUseRemainingTime := false } }

def Daemon.withNf (d : Daemon) (nf : Netfilter) : Daemon := { d with nf }

def Daemon.record (d : Daemon) (call : Call) : Daemon := { d with calls := d.calls ++ [call] }

/-- The record starts here. -/
def Daemon.fresh (d : Daemon) : Daemon := { d with calls := [] }

def Daemon.lookup (d : Daemon) (eport : UInt16) (proto : Int) : Option RedirectRule × Daemon :=
  let (rule, nf) := getRedirectRule eport proto d.nf
  (rule, d.withNf nf)

/-- `(leaseduration > 0) ? upnp_time() + leaseduration : 0` in unsigned arithmetic. -/
def expiryTime (env : Env) (leaseduration : Nat) : Nat :=
  if leaseduration > 0 then (env.clock.upnpTime + leaseduration) % 2 ^ 32 else 0

def fileAdd (env : Env) (eport : UInt16) (iaddr : CString) (iport : UInt16) (proto : Int)
    (desc : CString) (timestamp : Nat) (d : Daemon) : Daemon :=
  if env.enableLeasefile then
    { d with leaseFile := leaseFileAdd env.clock eport iaddr iport proto desc timestamp d.leaseFile }
  else d

def fileRemove (env : Env) (eport : UInt16) (proto : Int) (d : Daemon) : Daemon :=
  if env.enableLeasefile then { d with leaseFile := leaseFileRemove eport proto d.leaseFile } else d

def upnpRedirectInternal (env : Env) (rhost : Option CString) (eport : UInt16) (iaddr : CString)
    (iport : UInt16) (proto : Int) (desc : CString) (timestamp : Nat) (d : Daemon) :
    Int × Daemon :=
  let call := Call.upnpRedirectInternal rhost eport iaddr iport proto desc timestamp
  if env.disablePortForwarding then (-1, d.record (call false))
  else
    let (r, nf) := addRedirectRule2 env.enablePortTriggering rhost eport iaddr iport proto
      (some desc) timestamp d.nf
    let added := decide ((d.nf.chain .nat).length < (nf.chain .nat).length)
    let d := (d.withNf nf).record (call added)
    if r < 0 then (-1, d)
    else
      let d := fileAdd env eport iaddr iport proto desc timestamp d
      let (r, nf) := addFilterRule2 rhost iaddr iport proto d.nf
      let d := d.withNf nf
      if r < 0 then (-1, d)
      else
        let next := d.nextruletocleanTimestamp
        let d :=
          if timestamp > 0 ∧ (next = 0 ∨ timestamp < next) then
            { d with nextruletocleanTimestamp := timestamp }
          else d
        (0, d.record .upnpEventVarChangeNotify)

def sameRhost (rhost : Option CString) (rhostOld : CString) : Bool :=
  match rhost with
  | none => rhostOld = []
  | some s => (s = "*".toList ∧ rhostOld = []) ∨ s = rhostOld

/-- The in-place update of an existing mapping, which the code makes twice. -/
def updateExisting (env : Env) (eport : UInt16) (proto : Int) (iport iportOld : UInt16)
    (desc : CString) (timestamp : Nat) (nf : Netfilter) : Int × Netfilter :=
  if iport ≠ iportOld then
    updatePortmapping env.enablePortTriggering eport proto iport (some desc) timestamp nf
  else updatePortmappingDescTimestamp eport proto (some desc) timestamp nf

/-- The branch of `upnp_redirect` for a rule that is already there. -/
def renew (env : Env) (rhost : Option CString) (eport : UInt16) (iaddr : CString)
    (iport : UInt16) (proto : Int) (desc : CString) (leaseduration : Nat) (old : RedirectRule)
    (d : Daemon) : Int × Daemon :=
  if iaddr = old.iaddr ∧ sameRhost rhost old.rhost then
    let timestamp := expiryTime env leaseduration
    let (_, nf) := updateExisting env eport proto iport old.iport desc timestamp d.nf
    let (r, nf) := updateExisting env eport proto iport old.iport desc timestamp nf
    let d := d.withNf nf
    if r = 0 then
      (r, fileAdd env eport iaddr iport proto desc timestamp (fileRemove env eport proto d))
    else (r, d)
  else (-2, d)

def upnpRedirect (env : Env) (rhost : Option CString) (eport : UInt16) (iaddr : CString)
    (iport : UInt16) (protocol : CString) (desc : Option CString) (leaseduration : Nat)
    (d : Daemon) : Int × Daemon :=
  let d := d.record (.upnpRedirect rhost eport iaddr iport protocol desc leaseduration)
  let proto := protoAtoi protocol
  match inetAton iaddr with
  | none => (-1, d)
  | some address =>
    if checkUpnpRuleAgainstPermissions env.upnppermlist eport address iport then
      let desc := desc.getD []
      let (old, d) := d.lookup eport proto
      match old with
      | some old => renew env rhost eport iaddr iport proto desc leaseduration old d
      | none =>
        if env.checkPortinuse ∧ env.portInUse eport proto iaddr iport then (-4, d)
        else
          upnpRedirectInternal env rhost eport iaddr iport proto desc
            (expiryTime env leaseduration) d
    else (-3, d)

/-- `_upnp_delete_redir` -/
def upnpDeleteRedir (env : Env) (eport : UInt16) (proto : Int) (d : Daemon) : Int × Daemon :=
  let (r, nf) := deleteRedirectAndFilterRules eport proto d.nf
  (r, (fileRemove env eport proto (d.withNf nf)).record .upnpEventVarChangeNotify)

def upnpDeleteRedirection (env : Env) (eport : UInt16) (protocol : CString) (d : Daemon) :
    Int × Daemon :=
  upnpDeleteRedir env eport (protoAtoi protocol) d

/-- The rule with its remaining lease. -/
def upnpGetRedirectionInfos (env : Env) (eport : UInt16) (protocol : CString) (d : Daemon) :
    Option (RedirectRule × Nat) × Daemon :=
  let (rule, d) := d.lookup eport (protoAtoi protocol)
  let now := env.clock.upnpTime % 2 ^ 32
  (rule.map fun rule => (rule, if rule.timestamp > now then rule.timestamp - now else 0), d)

def upnpGetPortmappingsInRange (startport endport : UInt16) (protocol : CString) (d : Daemon) :
    Option (List UInt16) × Daemon :=
  let (ports, nf) := getPortmappingsInRange startport endport (protoAtoi protocol) d.nf
  (ports, d.withNf nf)

structure RuleState where
  packets : Nat
  bytes : Nat
  eport : UInt16
  proto : Int16
  toRemove : Bool
  deriving DecidableEq

def cleanTimestamp (now timestamp next : Nat) : Nat :=
  if timestamp > now ∧ (next ≤ now ∨ timestamp < next) then timestamp else next

/-- The first loop of `get_upnp_rules_state_list`, from index `i` on. The newest state is
    at the head of the list, and a lookup that fails ends the loop. -/
def collectRuleStates (now : Nat) : (fuel i : Nat) → List RuleState → Daemon →
    List RuleState × Daemon
  | 0, _, list, d => (list, d)
  | fuel + 1, i, list, d =>
      match getRedirectRuleByIndex i d.nf with
      | (none, nf) => (list, d.withNf nf)
      | (some rule, nf) =>
          collectRuleStates now fuel (i + 1)
            ({ packets := rule.packets, bytes := rule.bytes, eport := rule.eport,
               proto := Int16.ofInt rule.proto,
               toRemove := 0 < rule.timestamp ∧ rule.timestamp ≤ now } :: list)
            { d with
              nf
              nextruletocleanTimestamp :=
                cleanTimestamp now rule.timestamp d.nextruletocleanTimestamp }

def removeExpired (env : Env) (list : List RuleState) (d : Daemon) : Daemon :=
  list.foldl
    (fun d state =>
      if state.toRemove then (upnpDeleteRedir env state.eport state.proto.toInt d).2 else d)
    d

def getUpnpRulesStateList (env : Env) (maxRulesNumberTarget : Int) (d : Daemon) :
    List RuleState × Daemon :=
  let now := env.clock.upnpTime % 2 ^ 32
  let (list, d) := collectRuleStates now ((d.nf.chain .nat).length + 1) 0 []
    { d with nextruletocleanTimestamp := 0 }
  let left := list.filter fun state => !state.toRemove
  (if (left.length : Int) ≤ maxRulesNumberTarget then [] else left, removeExpired env list d)

/-- The loop of `remove_unused_rules`. The port that it deletes is read through `tmp`, which
    points nowhere in the first round and to the state that the last round has freed in the
    others; `stale` is what the read gives in each round. -/
def removeUnusedRules (env : Env) (stale : Nat → UInt16) : (round : Nat) → List RuleState →
    Daemon → Daemon
  | _, [], d => d
  | round, list :: next, d =>
      let (rule, d) := d.lookup list.eport list.proto.toInt
      let d :=
        match rule with
        | some rule =>
            if rule.packets = list.packets ∧ rule.bytes = list.bytes then
              (upnpDeleteRedir env (stale round) list.proto.toInt d).2
            else d
        | none => d
      removeUnusedRules env stale (round + 1) next d

/-- A mapping that is already there goes back to the file. -/
def reloadMapping (env : Env) (l : Lease) (leaseduration timestamp : Nat) (d : Daemon) : Daemon :=
  let (r, d) := upnpRedirect env none l.eport l.iaddr l.iport l.proto (some l.desc) leaseduration d
  if r = -2 then fileAdd env l.eport l.iaddr l.iport (protoAtoi l.proto) l.desc timestamp d else d

/-- One line of the file. -/
def reloadLine (env : Env) (line : CString) (d : Daemon) : Daemon :=
  match parseLeaseLine line with
  | none => d
  | some l =>
    let now := env.clock.upnpTime
    let unix := env.clock.unixTime
    if l.timestamp > 0 then
      if env.clock.leasefileUseRemainingTime then
        reloadMapping env l l.timestamp ((l.timestamp + now) % 2 ^ 32) d
      else if l.timestamp ≤ unix % 2 ^ 32 then d
      else
        let leaseduration := (((l.timestamp : Int) - unix) % 2 ^ 32).toNat
        reloadMapping env l leaseduration ((leaseduration + now) % 2 ^ 32) d
    else reloadMapping env l 0 l.timestamp d

/-- The file is unlinked once it is open, so what is added goes to a new one. -/
def reloadFromLeaseFile (env : Env) (d : Daemon) : Int × Daemon :=
  if env.enableLeasefile then
    match d.leaseFile with
    | none => (-1, d)
    | some content =>
        (0, (fgetsLines 128 content).foldl (fun d line => reloadLine env line d)
          { d with leaseFile := none })
  else (-1, d)

end UpnpRedirect
