import MiniUPnPd.Lib.Bytes
import MiniUPnPd.UpnpRedirect

/-!
The NAT-PMP server: one packet in, at most one packet out. `Uplink` is what the answers
tell about the gateway itself.
-/
namespace NatPmp
open NetBytes CText Inet Iptc Iptcrdr UpnpPermissions UpnpRedirect

/-- First address of each block that is not public, and the number of host bits. -/
def reserved : List (InAddr × Nat) :=
  [(ofBytes 0 0 0 0, 24), (ofBytes 10 0 0 0, 24), (ofBytes 100 64 0 0, 22),
   (ofBytes 127 0 0 0, 24), (ofBytes 169 254 0 0, 16), (ofBytes 192 0 0 0, 8),
   (ofBytes 192 0 2 0, 8), (ofBytes 192 31 196 0, 8), (ofBytes 192 52 193 0, 8),
   (ofBytes 192 88 99 0, 8), (ofBytes 192 168 0 0, 16), (ofBytes 192 175 48 0, 8),
   (ofBytes 198 18 0 0, 17), (ofBytes 198 51 100 0, 8), (ofBytes 203 0 113 0, 8),
   (ofBytes 224 0 0 0, 28), (ofBytes 240 0 0 0, 28)]

def addrIsReserved (addr : InAddr) : Bool :=
  reserved.any fun block => addr >>> block.2 = block.1 >>> block.2

structure Uplink where
  useExtIpAddr : Option CString
  extIfName : Option CString
  getifaddr : Option InAddr
  startupTime : Nat
  epochOrigin : Nat

/-- Seconds since the origin, which is the start of the daemon until it is set. -/
def Uplink.epoch (uplink : Uplink) (upnpTime : Nat) : Nat :=
  let origin := if uplink.epochOrigin = 0 then uplink.startupTime else uplink.epochOrigin
  (((upnpTime : Int) - origin) % 2 ^ 32).toNat

/-- The result code and the address. -/
def fillPublicAddressResponse (uplink : Uplink) : UInt8 × InAddr :=
  match uplink.useExtIpAddr with
  | some address => (0, (inetPton address).getD 0)
  | none =>
    if uplink.extIfName.getD [] = [] then (3, 0)
    else
      match uplink.getifaddr with
      | none => (3, 0)
      | some addr => if addrIsReserved addr then (3, 0) else (0, addr)

def natPmpDesc (eport : UInt16) (proto : Int) : CString :=
  "NAT-PMP ".toList ++ utoa eport.toNat ++
    (if proto = IPPROTO_TCP then " tcp".toList else " udp".toList)

/-- The rule is the client's, made through NAT-PMP, and asked for. Port 0 asks for all. -/
def asksToRemove (senderaddr : CString) (iport : UInt16) (proto : Int) (rule : RedirectRule) :
    Bool :=
  rule.iaddr = senderaddr ∧ "NAT-PMP".toList <+: rule.desc ∧
    (iport = 0 ∨ (iport = rule.iport ∧ proto = rule.proto))

/-- The loop of the removal request from `index` on, with the result code. -/
def removeMappings (env : Env) (senderaddr : CString) (iport : UInt16) (proto : Int) :
    (fuel : Nat) → (index : Int) → Daemon → UInt8 × Daemon
  | 0, _, d => (0, d)
  | fuel + 1, index, d =>
      match getRedirectRuleByIndex index d.nf with
      | (none, nf) => (0, d.withNf nf)
      | (some rule, nf) =>
          let d := d.withNf nf
          if asksToRemove senderaddr iport proto rule then
            let (r, d) := upnpDeleteRedir env rule.eport rule.proto d
            if r < 0 then (2, d) else removeMappings env senderaddr iport proto fuel index d
          else removeMappings env senderaddr iport proto fuel (index + 1) d

/-- A round of the loop either passes a rule, or removes one, or meets a libiptc failure. -/
def removeFuel (d : Daemon) : Nat := (d.nf.chain .nat).length + d.nf.iptcResults.length + 1

def nextPort (eport : UInt16) : UInt16 := if eport + 1 = 0 then 1 else eport + 1

structure Search where
  code : UInt8
  eport : UInt16

/-- The search for an external port, from `eport` on; `first` is 0 before the first round. -/
def searchPort (env : Env) (senderaddr : InAddr) (iport : UInt16) (proto : Int)
    (lifetime : Nat) : (fuel : Nat) → (first eport : UInt16) → (anyEportAllowed : Bool) →
    Daemon → Search × Daemon
  | 0, _, eport, _, d => ({ code := 0, eport }, d)
  | fuel + 1, first, eport, anyEportAllowed, d =>
      let client := inetNtoa senderaddr
      if first ≠ 0 ∧ eport = first then
        ({ code := if anyEportAllowed then 4 else 2, eport }, d)
      else
        let first := if first = 0 then eport else first
        let next := searchPort env senderaddr iport proto lifetime fuel first (nextPort eport)
        let redirect (d : Daemon) : Search × Daemon :=
          let (r, d) := upnpRedirectInternal env none eport client iport proto
            (natPmpDesc eport proto) ((env.clock.upnpTime + lifetime) % 2 ^ 32) d
          ({ code := if r < 0 then 3 else 0, eport }, d)
        if checkUpnpRuleAgainstPermissions env.upnppermlist eport senderaddr iport then
          if env.checkPortinuse ∧ env.portInUse eport proto client iport then next true d
          else
            match d.lookup eport proto with
            | (none, d) => redirect d
            | (some old, d) =>
                if client = old.iaddr ∧ iport = old.iport then
                  let (r, d) := upnpDeleteRedir env eport proto d
                  if r < 0 then ({ code := 0, eport }, d) else redirect d
                else next true d
        else next anyEportAllowed d

/-- Every port but 0 once, and the first one again. -/
def searchFuel : Nat := 65536

def responseHeader (opcode code : UInt8) (epoch : Nat) : List UInt8 :=
  [0, 128 + opcode, 0, code] ++ writeNU32 epoch

/-- Opcodes 1 and 2. -/
def mappingRequest (env : Env) (req : List UInt8) (senderaddr : InAddr) (d : Daemon) :
    Search × Daemon :=
  let iport := readNU16 req 4
  let eport := readNU16 req 6
  let lifetime := readNU32 req 8
  let proto := if byteAt req 1 = 1 then IPPROTO_UDP else IPPROTO_TCP
  if lifetime = 0 then
    let (code, d) := removeMappings env (inetNtoa senderaddr) iport proto (removeFuel d) 0 d
    ({ code, eport := 0 }, d)
  else if iport = 0 then ({ code := 2, eport }, d)
  else
    searchPort env senderaddr iport proto lifetime searchFuel 0
      (if eport = 0 then iport else eport) false d

/-- No packet goes out for a request that is too short or is itself a response. -/
def processIncomingNATPMPPacket (env : Env) (uplink : Uplink) (req : List UInt8)
    (senderaddr : InAddr) (d : Daemon) : Option (List UInt8) × Daemon :=
  let opcode := byteAt req 1
  if req.length < 2 ∨ ((opcode = 1 ∨ opcode = 2) ∧ req.length < 12) then (none, d)
  else if 128 ≤ opcode then (none, d)
  else
    let header code := responseHeader opcode code (uplink.epoch env.clock.upnpTime)
    if 0 < byteAt req 0 then (some (header 1), d)
    else if opcode = 0 then
      let (code, address) := fillPublicAddressResponse uplink
      (some (header code ++ writeNU32 address.toNat), d)
    else if opcode = 1 ∨ opcode = 2 then
      let (result, d) := mappingRequest env req senderaddr d
      (some (header result.code ++ slice req 4 2 ++ writeNU16 result.eport ++ slice req 8 4), d)
    else (some (header 5), d)

end NatPmp
