import MiniUPnPd.Netfilter.Iptpinhole
import MiniUPnPd.PcpRequests

/-!
The PCP server with all that a packet finds and leaves: the redirections and the pinholes.
An accepted request changes one or the other, all other packets leave both alone.
-/
namespace PcpPinholes
open NetBytes CText Inet Iptcrdr Iptpinhole PcpRequests PcpServer UpnpRedirect

/-- `stack` is what the lookup finds in its address buffers. -/
structure PinholeEnv extends PcpEnv where
  extIfName6 : Option CString
  stack : BitVec 128 × BitVec 128

section functions
variable (env : PinholeEnv)

def pinholeExpiry (leasetime : Nat) : Nat := (env.clock.upnpTime + leasetime) % 2 ^ 32

def upnpFindInboundpinhole (raddr : Option CString) (rport : UInt16) (iaddr : CString)
    (iport : UInt16) (proto : UInt8) (fw : Firewall) : Option UInt16 :=
  findPinhole env.inetPton6 env.stack raddr rport iaddr iport proto fw

def upnpUpdateInboundpinhole (uid : UInt16) (leasetime : Nat) (fw : Firewall) : Int × Firewall :=
  updatePinhole uid (pinholeExpiry env leasetime) fw

/-- A pinhole that is already there gets the expiry time as its lease. -/
def upnpAddInboundpinhole (raddr : Option CString) (rport : UInt16) (iaddr : CString)
    (iport : UInt16) (proto : UInt8) (desc : CString) (leasetime : Nat) (fw : Firewall) :
    Option (Int × Firewall) :=
  match env.inetPton6 iaddr with
  | none => some (-4, fw)
  | some _ =>
    let timestamp := pinholeExpiry env leasetime
    match upnpFindInboundpinhole env raddr rport iaddr iport proto fw with
    | some uid =>
        let (r, fw) := upnpUpdateInboundpinhole env uid timestamp fw
        some (if r ≥ 0 then 1 else r, fw)
    | none =>
        (addPinhole env.inetPton6 env.extIfName6 raddr rport iaddr iport proto desc timestamp
          fw).map fun (uid, fw) => (if uid ≥ 0 then 1 else -1, fw)

def upnpDeleteInboundpinhole (uid : UInt16) (fw : Firewall) : Int × Firewall :=
  deletePinhole uid fw

def upnpGetPinholeInfo (uid : UInt16) (fw : Firewall) : Option Pinhole :=
  (getPinhole uid fw).map fun p =>
    { uid, iaddr := env.inetNtop6 p.daddr, iport := p.dport, proto := p.proto.toNat, desc := p.desc }

/-- The pinhole functions as a packet meets them in this state of the firewall. -/
def withFirewall (fw : Firewall) : PcpEnv :=
  { env.toPcpEnv with
    pinholes := fw.pinholeList.filterMap fun p => upnpGetPinholeInfo env p.uid fw
    findInboundpinhole := fun iaddr iport proto =>
      upnpFindInboundpinhole env none 0 iaddr iport proto fw
    updateInboundpinhole := fun uid leasetime => (upnpUpdateInboundpinhole env uid leasetime fw).1
    addInboundpinhole := fun iaddr iport proto desc leasetime =>
      ((upnpAddInboundpinhole env none 0 iaddr iport proto desc leasetime fw).map (·.1)).getD (-1)
    deleteInboundpinhole := fun uid => (upnpDeleteInboundpinhole uid fw).1 }

/-- The firewall after `CreatePCPMap_FW`, or none when the search for a uid never ends. -/
def firewallCreated (info : PcpInfo) (fw : Firewall) : Option Firewall :=
  match upnpFindInboundpinhole env none 0 info.mappedStr info.intPort info.protocol fw with
  | some uid => some (upnpUpdateInboundpinhole env uid info.lifetime fw).2
  | none =>
      (upnpAddInboundpinhole env none 0 info.mappedStr info.intPort info.protocol info.desc
        info.lifetime fw).map (·.2)

/-- The firewall after `DeletePCPMap`. -/
def firewallDeleted (info : PcpInfo) (fw : Firewall) : Firewall :=
  match (withFirewall env fw).pinholes.find? fun p => isClients info p.iaddr p.iport p.proto with
  | none => fw
  | some p => if p.desc ≠ info.desc then fw else (upnpDeleteInboundpinhole p.uid fw).2

def firewallAfter (req : List UInt8) (senderIp : In6Addr) (fw : Firewall) : Option Firewall :=
  match acceptedMap env.toPcpEnv req senderIp with
  | none => some fw
  | some info =>
      if info.isFw then
        if info.lifetime = 0 then some (firewallDeleted env info fw)
        else firewallCreated env info fw
      else some fw

structure Server where
  daemon : Daemon
  firewall : Firewall

/-- The answer and the state after a packet, or none when the server never gets that far. -/
def processPacket (req : List UInt8) (senderIp : In6Addr) (s : Server) :
    Option (Option (List UInt8) × Server) :=
  let (answer, daemon) :=
    processIncomingPCPPacket (withFirewall env s.firewall) req senderIp s.daemon
  (firewallAfter env req senderIp s.firewall).map fun firewall => (answer, { daemon, firewall })

end functions

/-- A uid comes back from the `int` that the callers keep it in. -/
theorem ofInt_toNat (uid : UInt16) : UInt16.ofInt (uid.toNat : Int) = uid := by
  have small := uid.toNat_lt
  apply UInt16.toNat_inj.mp
  simp only [UInt16.ofInt, UInt16.toNat_ofNat']
  omega

theorem processPacket_parts {env : PinholeEnv} {req : List UInt8} {senderIp : In6Addr}
    {answer : Option (List UInt8)} {s s' : Server}
    (served : processPacket env req senderIp s = some (answer, s')) :
    firewallAfter env req senderIp s.firewall = some s'.firewall ∧
      s'.daemon = (processIncomingPCPPacket (withFirewall env s.firewall) req senderIp s.daemon).2 := by
  unfold processPacket at served
  obtain ⟨fw, after, same⟩ := Option.map_eq_some_iff.mp served
  rw [← (Prod.mk.inj same).2]
  exact ⟨after, rfl⟩

/-- Empty tables. -/
def Server.start : Server := { daemon := Daemon.start none, firewall := Firewall.empty }

/-- The first host of a documentation network. -/
def plainHost : In6Addr := BitVec.ofNat 128 (0x20010db8 * 2 ^ 96 + 2)

/-- The text of the addresses, as it is for this host. -/
def plainNtop6 (a : In6Addr) : CString :=
  if a = plainHost then "2001:db8::2".toList else utoa a.toNat

def plainPton6 (s : CString) : Option In6Addr :=
  if s = "2001:db8::2".toList then some plainHost
  else some (BitVec.ofNat 128 (Nat.ofDigitChars 10 s 0))

theorem plainPton6_plainNtop6 (a : In6Addr) : plainPton6 (plainNtop6 a) = some a := by
  unfold plainNtop6
  split
  · rename_i host
    rw [host]
    decide
  · have other : utoa a.toNat ≠ "2001:db8::2".toList := by
      intro same
      have colon : ':' ∈ utoa a.toNat := by
        rw [same]
        decide
      exact absurd (utoa_digits _ _ colon) (by decide)
    rw [plainPton6, if_neg other, utoa_value, BitVec.ofNat_toNat, BitVec.setWidth_eq]

/-- No optional feature, everything permitted, and 8.8.8.8 as the external address. -/
def plainPinholes (now : Nat) : PinholeEnv :=
  { Env.plain now with
    uplink :=
      { useExtIpAddr := none, extIfName := some "eth0".toList
        getifaddr := some (ofBytes 8 8 8 8), startupTime := 0, epochOrigin := 0 }
    getifaddrIn6 := some (v4Mapped (ofBytes 8 8 8 8))
    inetPton6 := plainPton6
    inetNtop6 := plainNtop6
    minLifetime := 120
    maxLifetime := 86400
    allowThirdParty := false
    getLanForPeer := fun _ => true
    pinholes := []
    findInboundpinhole := fun _ _ _ => none
    updateInboundpinhole := fun _ _ => -1
    addInboundpinhole := fun _ _ _ _ _ => -1
    deleteInboundpinhole := fun _ => -1
    extIfName6 := none
    stack := (0, 0) }

/-- A version 2 MAP request for TCP without options. -/
def mapRequest (nonce : UInt8) (client : In6Addr) (intPort extPort : UInt16) (lifetime : Nat) :
    List UInt8 :=
  [2, 1, 0, 0] ++ writeNU32 lifetime ++ addrBytes client ++ List.replicate 12 nonce ++
    [6, 0, 0, 0] ++ writeNU16 intPort ++ writeNU16 extPort ++ List.replicate 16 0

/-- The server after a packet, as it was when it does not come back. -/
def serve (env : PinholeEnv) (s : Server) (packet : List UInt8 × In6Addr) : Server :=
  ((processPacket env packet.1 packet.2 s).map (·.2)).getD s

end PcpPinholes
