import MiniUPnPd.Lib.InetNtop6
import MiniUPnPd.PcpServer
import MiniUPnPd.PinholeLabel

/-!
The pinholes of the pf backend: pass rules of an anchor, known by their labels. The calls of
`ioctl` succeed.
-/
namespace Pfpinhole
open CText Inet PinholeLabel
open PcpServer (In6Addr)

inductive PortOp where
  | PF_OP_NONE
  | PF_OP_EQ
  deriving DecidableEq

/-- `struct pf_rule_addr` with an address and a mask; one without a mask stands for any. -/
structure PfRuleAddr where
  addr : In6Addr
  mask : In6Addr
  portOp : PortOp
  port : UInt16
  deriving DecidableEq

structure PfRule where
  ifname : Option CString
  proto : UInt8
  src : PfRuleAddr
  dst : PfRuleAddr
  label : CString
  deriving DecidableEq

/-- The rules of the anchor, the oldest first. -/
structure Pf where
  rules : List PfRule
  nextUid : Nat
  bounded : nextUid < 65535

def succUid (uid : Nat) : Nat := if uid + 1 ≥ 65535 then 1 else uid + 1

theorem succUid_bounded (uid : Nat) : succUid uid < 65535 := by
  unfold succUid
  split <;> omega

def PF_RULE_LABEL_SIZE : Nat := 64

/-- Any text that begins with a star stands for any host. -/
def sourceAddr (remHost : Option CString) (remPort : UInt16) : PfRuleAddr :=
  let portOp : PortOp := if remPort ≠ 0 then .PF_OP_EQ else .PF_OP_NONE
  match remHost with
  | none | some [] => { addr := 0, mask := 0, portOp, port := remPort }
  | some (c :: s) =>
      if c = '*' then { addr := 0, mask := 0, portOp, port := remPort }
      else { addr := (inetPton6 (c :: s)).getD 0, mask := BitVec.allOnes 128, portOp,
             port := remPort }

def pinholeRule (ifname remHost : Option CString) (remPort : UInt16) (intClient : CString)
    (intPort : UInt16) (proto : UInt8) (label : CString) : PfRule :=
  { ifname, proto, label
    src := sourceAddr remHost remPort
    dst := { addr := (inetPton6 intClient).getD 0, mask := BitVec.allOnes 128
             portOp := .PF_OP_EQ, port := intPort } }

def addPinhole (ifname remHost : Option CString) (remPort : UInt16) (intClient : CString)
    (intPort : UInt16) (proto : UInt8) (desc : CString) (timestamp : Nat) (pf : Pf) : Int × Pf :=
  let uid := pf.nextUid
  let label := (pinholeLabel uid timestamp desc).take (PF_RULE_LABEL_SIZE - 1)
  let rule := pinholeRule ifname remHost remPort intClient intPort proto label
  (uid, { rules := pf.rules ++ [rule], nextUid := succUid uid, bounded := succUid_bounded uid })

def pinholeMatches (saddr : In6Addr) (remPort : UInt16) (daddr : In6Addr) (intPort : UInt16)
    (proto : UInt8) (r : PfRule) : Bool :=
  proto = r.proto ∧ remPort = r.src.port ∧ saddr = r.src.addr ∧ intPort = r.dst.port ∧
    daddr = r.dst.addr

/-- The remote host that is searched for. A text that is no address, a star as well, leaves what
    was in the buffer. -/
def soughtAddr (stack : In6Addr) : Option CString → In6Addr
  | none | some [] => 0
  | some (c :: s) => (inetPton6 (c :: s)).getD stack

/-- The uid and the expiry time of the first rule for these hosts and ports that has the label of
    a pinhole. `stack` is what the two address buffers held. -/
def findPinhole (stack : In6Addr × In6Addr) (remHost : Option CString) (remPort : UInt16)
    (intClient : CString) (intPort : UInt16) (proto : UInt8) (pf : Pf) : Option (Int × Nat) :=
  let saddr := soughtAddr stack.1 remHost
  let daddr := (inetPton6 intClient).getD stack.2
  (pf.rules.filter (pinholeMatches saddr remPort daddr intPort proto)).findSome? fun r =>
    scanLabel r.label

end Pfpinhole
