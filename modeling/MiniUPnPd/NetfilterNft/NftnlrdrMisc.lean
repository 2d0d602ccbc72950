import MiniUPnPd.Lib.Bytes
import MiniUPnPd.Netfilter.Iptcrdr
import MiniUPnPd.PcpServer

/-!
The rules of the nftables backend: lists of expressions that the daemon builds, sends to the
kernel and decodes again when it reads a chain back. All netlink exchanges succeed, and the
kernel returns rules as they were sent.
-/
namespace NftnlrdrMisc
open CText Inet Iptcrdr NetBytes PcpServer

inductive NftRegister where
  | NFT_REG_1
  | NFT_REG_2
  deriving DecidableEq

inductive PayloadBase where
  | NFT_PAYLOAD_NETWORK_HEADER
  | NFT_PAYLOAD_TRANSPORT_HEADER
  deriving DecidableEq

inductive NatType where
  | NFT_NAT_SNAT
  | NFT_NAT_DNAT
  deriving DecidableEq

/-- Interfaces are given by their index. A comparison is for equality; an immediate value is
    a number in network order. -/
inductive NftnlExpr where
  | metaIif (dreg : NftRegister)
  | payload (base : PayloadBase) (dreg : NftRegister) (offset len : Nat)
  | cmp (sreg : NftRegister) (data : List UInt8)
  | immediate (dreg : NftRegister) (data : Nat)
  | verdict (val : Nat)
  | nat (type : NatType) (addrReg protoReg : NftRegister)
  deriving DecidableEq

/-- A rule in the kernel; the description is its user data. -/
structure NftnlRule where
  handle : Nat
  userdata : CString
  exprs : List NftnlExpr
  deriving DecidableEq

inductive RuleRegType where
  | RULE_REG_NONE
  | RULE_REG_IIF
  | RULE_REG_IP_SRC_ADDR
  | RULE_REG_IP_DEST_ADDR
  | RULE_REG_IP_SD_ADDR
  | RULE_REG_IP6_SRC_ADDR
  | RULE_REG_IP6_DEST_ADDR
  | RULE_REG_IP6_SD_ADDR
  | RULE_REG_IP_PROTO
  | RULE_REG_IP6_PROTO
  | RULE_REG_TCP_DPORT
  | RULE_REG_TCP_SD_PORT
  | RULE_REG_IMM_VAL
  deriving DecidableEq

inductive RuleType where
  | RULE_NAT
  | RULE_FILTER
  deriving DecidableEq

/-- `rule_t` -/
structure RuleT where
  handle : Nat
  type : RuleType
  natType : Option NatType
  filterAction : Nat
  ingressIfidx : Nat
  eaddr : InAddr
  iaddr : InAddr
  rhost : InAddr
  iaddr6 : In6Addr
  rhost6 : In6Addr
  eport : UInt16
  iport : UInt16
  rport : UInt16
  proto : UInt8
  reg1Type : RuleRegType
  reg2Type : RuleRegType
  reg1Val : Nat
  reg2Val : Nat
  desc : CString
  deriving DecidableEq

def addrOf (data : List UInt8) : InAddr := BitVec.ofNat 32 (valueOf data)

def addr6Of (data : List UInt8) : In6Addr := BitVec.ofNat 128 (valueOf data)

def portOf (data : List UInt8) : UInt16 := UInt16.ofNat (valueOf data)

section parse
variable (r : RuleT)

/-- The value of a register changes with an immediate value only. -/
def setReg (dreg : NftRegister) (type : RuleRegType) (val : Nat) : RuleT :=
  match dreg with
  | .NFT_REG_1 =>
      { r with reg1Type := type, reg1Val := if type = .RULE_REG_IMM_VAL then val else r.reg1Val }
  | .NFT_REG_2 =>
      { r with reg2Type := type, reg2Val := if type = .RULE_REG_IMM_VAL then val else r.reg2Val }

def setRegType (dreg : NftRegister) (type : RuleRegType) : RuleT :=
  match dreg with
  | .NFT_REG_1 => { r with reg1Type := type }
  | .NFT_REG_2 => { r with reg2Type := type }

def getRegVal (dreg : NftRegister) : Nat :=
  match dreg with
  | .NFT_REG_1 => r.reg1Val
  | .NFT_REG_2 => r.reg2Val

/-- What a payload expression loads, where the decoder knows it. A source port alone is not
    known. -/
def payloadType : PayloadBase → (offset len : Nat) → Option RuleRegType
  | .NFT_PAYLOAD_NETWORK_HEADER, 16, 4 => some .RULE_REG_IP_DEST_ADDR
  | .NFT_PAYLOAD_NETWORK_HEADER, 12, 4 => some .RULE_REG_IP_SRC_ADDR
  | .NFT_PAYLOAD_NETWORK_HEADER, 12, 8 => some .RULE_REG_IP_SD_ADDR
  | .NFT_PAYLOAD_NETWORK_HEADER, 9, 1 => some .RULE_REG_IP_PROTO
  | .NFT_PAYLOAD_NETWORK_HEADER, 6, 1 => some .RULE_REG_IP6_PROTO
  | .NFT_PAYLOAD_NETWORK_HEADER, 24, 16 => some .RULE_REG_IP6_DEST_ADDR
  | .NFT_PAYLOAD_NETWORK_HEADER, 8, 16 => some .RULE_REG_IP6_SRC_ADDR
  | .NFT_PAYLOAD_NETWORK_HEADER, 8, 32 => some .RULE_REG_IP6_SD_ADDR
  | .NFT_PAYLOAD_TRANSPORT_HEADER, 2, 2 => some .RULE_REG_TCP_DPORT
  | .NFT_PAYLOAD_TRANSPORT_HEADER, 0, 4 => some .RULE_REG_TCP_SD_PORT
  | _, _, _ => none

def parseRulePayload (base : PayloadBase) (dreg : NftRegister) (offset len : Nat) : RuleT :=
  match payloadType base offset len with
  | some type => setRegType r dreg type
  | none => r

/-- The field that the data of a comparison goes to; data of another length is dropped. -/
def setCompared (data : List UInt8) : RuleT :=
  match r.reg1Type with
  | .RULE_REG_IIF => if data.length = 4 then { r with ingressIfidx := valueOf data } else r
  | .RULE_REG_IP_SRC_ADDR => if data.length = 4 then { r with rhost := addrOf data } else r
  | .RULE_REG_IP6_SRC_ADDR => if data.length = 16 then { r with rhost6 := addr6Of data } else r
  | .RULE_REG_IP_DEST_ADDR =>
      if data.length = 4 then
        if r.type = .RULE_FILTER then { r with iaddr := addrOf data }
        else { r with rhost := addrOf data }
      else r
  | .RULE_REG_IP6_DEST_ADDR =>
      if data.length = 16 then
        if r.type = .RULE_FILTER then { r with iaddr6 := addr6Of data }
        else { r with rhost6 := addr6Of data }
      else r
  | .RULE_REG_IP_SD_ADDR =>
      if data.length = 8 then
        { r with iaddr := addrOf (data.take 4), rhost := addrOf (data.drop 4) }
      else r
  | .RULE_REG_IP6_SD_ADDR =>
      if data.length = 32 then
        { r with iaddr6 := addr6Of (data.take 16), rhost6 := addr6Of (data.drop 16) }
      else r
  | .RULE_REG_IP_PROTO | .RULE_REG_IP6_PROTO =>
      if data.length = 1 then { r with proto := UInt8.ofNat (valueOf data) } else r
  | .RULE_REG_TCP_DPORT => if data.length = 2 then { r with eport := portOf data } else r
  | .RULE_REG_TCP_SD_PORT =>
      if data.length = 4 then
        { r with eport := portOf (data.take 2), rport := portOf (data.drop 2) }
      else r
  | .RULE_REG_NONE | .RULE_REG_IMM_VAL => r

/-- A register of no known type keeps it. -/
def parseRuleCmp (sreg : NftRegister) (data : List UInt8) : RuleT :=
  if sreg ≠ .NFT_REG_1 ∨ r.reg1Type = .RULE_REG_NONE ∨ r.reg1Type = .RULE_REG_IMM_VAL then r
  else { setCompared r data with reg1Type := .RULE_REG_NONE }

def parseRuleNat (type : NatType) (addrReg protoReg : NftRegister) : RuleT :=
  let addr : InAddr := BitVec.ofNat 32 (getRegVal r addrReg)
  let port := UInt16.ofNat (getRegVal r protoReg)
  let r := { r with type := .RULE_NAT, natType := some type }
  let r :=
    match type with
    | .NFT_NAT_DNAT => { r with iaddr := addr, iport := port }
    | .NFT_NAT_SNAT =>
        { r with eaddr := addr, eport := if protoReg = .NFT_REG_1 then port else r.eport }
  setReg (setReg r .NFT_REG_1 .RULE_REG_NONE 0) .NFT_REG_2 .RULE_REG_NONE 0

def parseRuleVerdict (val : Nat) : RuleT :=
  if r.type = .RULE_FILTER then { r with filterAction := val } else r

def ruleExprCb : NftnlExpr → RuleT
  | .metaIif dreg => setReg r dreg .RULE_REG_IIF 0
  | .payload base dreg offset len => parseRulePayload r base dreg offset len
  | .cmp sreg data => parseRuleCmp r sreg data
  | .immediate dreg data => setReg r dreg .RULE_REG_IMM_VAL data
  | .verdict val => parseRuleVerdict r val
  | .nat type addrReg protoReg => parseRuleNat r type addrReg protoReg

end parse

def parseExprs (exprs : List NftnlExpr) (r : RuleT) : RuleT := exprs.foldl ruleExprCb r

/-- `table_cb` for one rule of a chain of this type. -/
def tableCb (type : RuleType) (rule : NftnlRule) : RuleT :=
  parseExprs rule.exprs
    { handle := rule.handle, type, natType := none, filterAction := 0, ingressIfidx := 0
      eaddr := 0, iaddr := 0, rhost := 0, iaddr6 := 0, rhost6 := 0, eport := 0, iport := 0
      rport := 0, proto := 0, reg1Type := .RULE_REG_NONE, reg2Type := .RULE_REG_NONE
      reg1Val := 0, reg2Val := 0, desc := rule.userdata }

section build

def NF_ACCEPT : Nat := 1

/-- A payload expression for register 1 and the comparison with a number of that length. -/
def exprCompare (base : PayloadBase) (offset len val : Nat) : List NftnlExpr :=
  [.payload base .NFT_REG_1 offset len, .cmp .NFT_REG_1 (bytesOf len val)]

def exprInterface (ifIdx : Option Nat) : List NftnlExpr :=
  match ifIdx with
  | none => []
  | some idx => [.metaIif .NFT_REG_1, .cmp .NFT_REG_1 (bytesOf 4 idx)]

/-- For a protocol other than TCP and UDP nothing is loaded. -/
def exprPort (proto : UInt8) (offset : Nat) (port : UInt16) : List NftnlExpr :=
  if (proto.toNat : Int) = IPPROTO_TCP ∨ (proto.toNat : Int) = IPPROTO_UDP then
    exprCompare .NFT_PAYLOAD_TRANSPORT_HEADER offset 2 port.toNat
  else [.cmp .NFT_REG_1 (bytesOf 2 port.toNat)]

/-- `expr_add_nat` -/
def exprAddNat (type : NatType) (addr : InAddr) (port : UInt16) : List NftnlExpr :=
  [.immediate .NFT_REG_1 addr.toNat, .immediate .NFT_REG_2 port.toNat,
    .nat type .NFT_REG_1 .NFT_REG_2]

def ruleSetDnat (ifIdx : Option Nat) (proto : UInt8) (rhost : InAddr) (eport : UInt16)
    (ihost : InAddr) (iport : UInt16) : List NftnlExpr :=
  exprInterface ifIdx ++
    (if rhost ≠ 0 then exprCompare .NFT_PAYLOAD_NETWORK_HEADER 12 4 rhost.toNat else []) ++
    exprCompare .NFT_PAYLOAD_NETWORK_HEADER 9 1 proto.toNat ++
    (if (proto.toNat : Int) = IPPROTO_TCP ∨ (proto.toNat : Int) = IPPROTO_UDP then
      exprCompare .NFT_PAYLOAD_TRANSPORT_HEADER 2 2 eport.toNat
    else []) ++
    exprAddNat .NFT_NAT_DNAT ihost iport

/-- The internal host is the destination here, and the remote host the source. -/
def ruleSetSnat (proto : UInt8) (rhost : InAddr) (rport : UInt16) (ehost : InAddr)
    (eport : UInt16) (ihost : InAddr) (iport : UInt16) : List NftnlExpr :=
  exprCompare .NFT_PAYLOAD_NETWORK_HEADER 16 4 ihost.toNat ++
    exprCompare .NFT_PAYLOAD_NETWORK_HEADER 12 4 rhost.toNat ++
    exprCompare .NFT_PAYLOAD_NETWORK_HEADER 9 1 proto.toNat ++
    (if (proto.toNat : Int) = IPPROTO_TCP ∨ (proto.toNat : Int) = IPPROTO_UDP then
      exprCompare .NFT_PAYLOAD_TRANSPORT_HEADER 2 2 iport.toNat ++
        exprCompare .NFT_PAYLOAD_TRANSPORT_HEADER 0 2 rport.toNat
    else []) ++
    exprAddNat .NFT_NAT_SNAT ehost eport

def ruleSetFilterCommon (ifIdx : Option Nat) (proto : UInt8) (iport rport : UInt16) :
    List NftnlExpr :=
  exprInterface ifIdx ++ exprPort proto 2 iport ++
    (if rport ≠ 0 then exprPort proto 0 rport else [])

def ruleSetFilter (ifIdx : Option Nat) (proto : UInt8) (rhost iaddr : InAddr)
    (iport rport : UInt16) : List NftnlExpr :=
  ruleSetFilterCommon ifIdx proto iport rport ++
    exprCompare .NFT_PAYLOAD_NETWORK_HEADER 16 4 iaddr.toNat ++
    (if rhost ≠ 0 then exprCompare .NFT_PAYLOAD_NETWORK_HEADER 12 4 rhost.toNat else []) ++
    exprCompare .NFT_PAYLOAD_NETWORK_HEADER 9 1 proto.toNat ++ [.verdict NF_ACCEPT]

/-- No comparison for any source. -/
def exprSource6 (rhost6 : Option In6Addr) : List NftnlExpr :=
  match rhost6 with
  | some a => exprCompare .NFT_PAYLOAD_NETWORK_HEADER 8 16 a.toNat
  | none => []

def ruleSetFilter6 (ifIdx : Option Nat) (proto : UInt8) (rhost6 : Option In6Addr)
    (iaddr6 : In6Addr) (iport rport : UInt16) : List NftnlExpr :=
  ruleSetFilterCommon ifIdx proto iport rport ++
    exprCompare .NFT_PAYLOAD_NETWORK_HEADER 24 16 iaddr6.toNat ++ exprSource6 rhost6 ++
    exprCompare .NFT_PAYLOAD_NETWORK_HEADER 6 1 proto.toNat ++ [.verdict NF_ACCEPT]

end build

/-- A chain of the kernel. The newest rule comes first, as in the cache of the daemon, which
    puts each rule that it reads at the head of its list. -/
structure NftChain where
  rules : List NftnlRule
  nextHandle : Nat
  below : ∀ rule ∈ rules, rule.handle < nextHandle
  distinct : (rules.map NftnlRule.handle).Nodup

def NftChain.empty : NftChain :=
  { rules := [], nextHandle := 1, below := by simp, distinct := List.nodup_nil }

/-- `nft_send_rule` for a new rule -/
def NftChain.newRule (userdata : CString) (exprs : List NftnlExpr) (c : NftChain) : NftChain where
  rules := { handle := c.nextHandle, userdata, exprs } :: c.rules
  nextHandle := c.nextHandle + 1
  below := by
    intro rule member
    rcases List.mem_cons.mp member with rfl | old
    · exact Nat.lt_succ_self _
    · exact Nat.lt_succ_of_lt (c.below rule old)
  distinct := by
    rw [List.map_cons, List.nodup_cons]
    refine ⟨?_, c.distinct⟩
    intro member
    obtain ⟨rule, old, same⟩ := List.mem_map.mp member
    exact absurd (c.below rule old) (same ▸ Nat.lt_irrefl _)

/-- `nft_send_rule` for the deletion of a rule by its handle -/
def NftChain.delRule (handle : Nat) (c : NftChain) : NftChain where
  rules := c.rules.eraseP fun rule => rule.handle = handle
  nextHandle := c.nextHandle
  below := by
    intro rule member
    exact c.below rule (List.mem_of_mem_eraseP member)
  distinct := c.distinct.sublist (List.Sublist.map _ List.eraseP_sublist)

/-- The cache after a refresh. -/
def NftChain.cache (type : RuleType) (c : NftChain) : List RuleT := c.rules.map (tableCb type)

end NftnlrdrMisc
