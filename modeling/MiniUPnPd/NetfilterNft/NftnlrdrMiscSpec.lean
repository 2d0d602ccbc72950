import MiniUPnPd.Lib.FirstMatch
import MiniUPnPd.NetfilterNft.NftnlrdrMisc

/-!
What the decoder makes of the rules that the daemon builds: it reads back the addresses, the
protocol and the destination port, for TCP and UDP, but no source port.
-/
namespace NftnlrdrMiscSpec
open CText FirstMatch Inet Iptcrdr NetBytes NftnlrdrMisc PcpServer

/-- A protocol with ports, as the daemon builds rules for. -/
def Ported (proto : UInt8) : Prop :=
  (proto.toNat : Int) = IPPROTO_TCP ∨ (proto.toNat : Int) = IPPROTO_UDP

instance (proto : UInt8) : Decidable (Ported proto) := by
  unfold Ported
  infer_instance

/-- A protocol number as an `int` of the daemon, and back in a byte of the rule. -/
@[simp] theorem ofInt_proto (proto : UInt8) : UInt8.ofInt (proto.toNat : Int) = proto := by
  have small := proto.toNat_lt
  apply UInt8.toNat_inj.mp
  simp only [UInt8.ofInt, UInt8.toNat_ofNat']
  omega

theorem proto_eq_iff (p q : UInt8) : (p.toNat : Int) = q.toNat ↔ p = q := by
  rw [← UInt8.toNat_inj]
  exact Int.ofNat_inj

theorem addrOf_bytesOf (a : InAddr) : addrOf (bytesOf 4 a.toNat) = a := by
  have value := valueOf_bytesOf (show a.toNat < 256 ^ 4 from a.isLt)
  rw [addrOf, value, BitVec.ofNat_toNat, BitVec.setWidth_eq]

theorem addr6Of_bytesOf (a : In6Addr) : addr6Of (bytesOf 16 a.toNat) = a := by
  have value := valueOf_bytesOf (show a.toNat < 256 ^ 16 from a.isLt)
  rw [addr6Of, value, BitVec.ofNat_toNat, BitVec.setWidth_eq]

theorem portOf_bytesOf (port : UInt16) : portOf (bytesOf 2 port.toNat) = port := by
  have value := valueOf_bytesOf (show port.toNat < 256 ^ 2 from port.toNat_lt)
  rw [portOf, value, UInt16.ofNat_toNat]

theorem protoOf_bytesOf (proto : UInt8) : UInt8.ofNat (valueOf (bytesOf 1 proto.toNat)) = proto := by
  have value := valueOf_bytesOf (show proto.toNat < 256 ^ 1 from proto.toNat_lt)
  rw [value, UInt8.ofNat_toNat]

/-- The interface of a rule without one is 0. -/
def interfaceRead (ifIdx : Option Nat) : Nat :=
  match ifIdx with
  | none => 0
  | some idx => valueOf (bytesOf 4 idx)

/-- The data of a known payload goes to its field, and the register is free again. -/
theorem parse_compare {r : RuleT} (rest : List NftnlExpr) {base : PayloadBase} {offset len : Nat}
    {type : RuleRegType} (known : payloadType base offset len = some type)
    (field : type ≠ .RULE_REG_NONE ∧ type ≠ .RULE_REG_IMM_VAL) (val : Nat) :
    parseExprs (exprCompare base offset len val ++ rest) r =
      parseExprs rest { setCompared { r with reg1Type := type } (bytesOf len val) with
        reg1Type := .RULE_REG_NONE } := by
  simp [parseExprs, exprCompare, ruleExprCb, parseRulePayload, known, setRegType, parseRuleCmp,
    field]

section parts
variable {r : RuleT} (idle : r.reg1Type = .RULE_REG_NONE) (rest : List NftnlExpr)
include idle

theorem cmp_idle (data : List UInt8) : ruleExprCb r (.cmp .NFT_REG_1 data) = r := by
  simp [ruleExprCb, parseRuleCmp, idle]

theorem parse_interface (unset : r.ingressIfidx = 0) (ifIdx : Option Nat) :
    parseExprs (exprInterface ifIdx ++ rest) r =
      parseExprs rest { r with ingressIfidx := interfaceRead ifIdx } := by
  cases ifIdx with
  | none =>
    have same : { r with ingressIfidx := interfaceRead none } = r := by
      rw [interfaceRead, ← unset]
    rw [same]
    rfl
  | some idx =>
    simp [parseExprs, exprInterface, ruleExprCb, setReg, parseRuleCmp, setCompared, interfaceRead,
      idle]

theorem parse_dport (proto : UInt8) (port : UInt16) :
    parseExprs (exprPort proto 2 port ++ rest) r =
      parseExprs rest { r with eport := if Ported proto then port else r.eport } := by
  unfold exprPort
  by_cases ported : Ported proto
  · have both := ported
    unfold Ported at both
    rw [if_pos both, parse_compare rest rfl (by decide), if_pos ported]
    simp [setCompared, portOf_bytesOf, ← idle]
  · have neither := ported
    unfold Ported at neither
    rw [if_neg neither, if_neg ported, parseExprs, List.cons_append, List.foldl_cons,
      cmp_idle idle]
    rfl

/-- A source port is not read back. -/
theorem parse_source (val : Nat) :
    parseExprs (exprCompare .NFT_PAYLOAD_TRANSPORT_HEADER 0 2 val ++ rest) r =
      parseExprs rest r := by
  rw [parseExprs, exprCompare, List.cons_append, List.foldl_cons, List.cons_append,
    List.foldl_cons]
  have unknown : ruleExprCb r (.payload .NFT_PAYLOAD_TRANSPORT_HEADER .NFT_REG_1 0 2) = r := rfl
  rw [unknown, cmp_idle idle]
  rfl

theorem parse_sport (proto : UInt8) (port : UInt16) :
    parseExprs (exprPort proto 0 port ++ rest) r = parseExprs rest r := by
  unfold exprPort
  split
  · exact parse_source idle rest port.toNat
  · rw [parseExprs, List.cons_append, List.foldl_cons, cmp_idle idle]
    rfl

theorem parse_saddr (rhost : InAddr) :
    parseExprs ((if rhost ≠ 0 then
        exprCompare .NFT_PAYLOAD_NETWORK_HEADER 12 4 rhost.toNat else []) ++ rest) r =
      parseExprs rest { r with rhost := if rhost ≠ 0 then rhost else r.rhost } := by
  split
  · rw [parse_compare rest rfl (by decide)]
    simp [setCompared, addrOf_bytesOf, ← idle]
  · rfl

theorem parse_proto (proto : UInt8) :
    parseExprs (exprCompare .NFT_PAYLOAD_NETWORK_HEADER 9 1 proto.toNat ++ rest) r =
      parseExprs rest { r with proto } := by
  rw [parse_compare rest rfl (by decide)]
  simp [setCompared, protoOf_bytesOf, ← idle]

theorem parse_proto6 (proto : UInt8) :
    parseExprs (exprCompare .NFT_PAYLOAD_NETWORK_HEADER 6 1 proto.toNat ++ rest) r =
      parseExprs rest { r with proto } := by
  rw [parse_compare rest rfl (by decide)]
  simp [setCompared, protoOf_bytesOf, ← idle]

section filter
variable (filter : r.type = .RULE_FILTER)
include filter

theorem parse_daddr (iaddr : InAddr) :
    parseExprs (exprCompare .NFT_PAYLOAD_NETWORK_HEADER 16 4 iaddr.toNat ++ rest) r =
      parseExprs rest { r with iaddr } := by
  rw [parse_compare rest rfl (by decide)]
  simp [setCompared, addrOf_bytesOf, filter, ← idle]

theorem parse_daddr6 (iaddr6 : In6Addr) :
    parseExprs (exprCompare .NFT_PAYLOAD_NETWORK_HEADER 24 16 iaddr6.toNat ++ rest) r =
      parseExprs rest { r with iaddr6 } := by
  rw [parse_compare rest rfl (by decide)]
  simp [setCompared, addr6Of_bytesOf, filter, ← idle]

end filter

theorem parse_saddr6 (rhost6 : Option In6Addr) :
    parseExprs (exprSource6 rhost6 ++ rest) r =
      parseExprs rest { r with rhost6 := rhost6.getD r.rhost6 } := by
  cases rhost6 with
  | none => rfl
  | some a =>
    rw [exprSource6, parse_compare rest rfl (by decide)]
    simp [setCompared, addr6Of_bytesOf, ← idle]

theorem parse_common (unset : r.ingressIfidx = 0) (ifIdx : Option Nat) (proto : UInt8)
    (iport rport : UInt16) :
    parseExprs (ruleSetFilterCommon ifIdx proto iport rport ++ rest) r =
      parseExprs rest
        { r with
          ingressIfidx := interfaceRead ifIdx, eport := if Ported proto then iport else r.eport } := by
  have interface := parse_interface idle
    (exprPort proto 2 iport ++ ((if rport ≠ 0 then exprPort proto 0 rport else []) ++ rest))
    unset ifIdx
  unfold ruleSetFilterCommon
  rw [List.append_assoc, List.append_assoc, interface, parse_dport (by exact idle)]
  split
  · rw [parse_sport (by exact idle)]
  · rfl

end parts

section nat
variable {r : RuleT} (one : r.reg1Type = .RULE_REG_NONE) (two : r.reg2Type = .RULE_REG_NONE)
  (addr : InAddr) (port : UInt16)
include one two

theorem parse_dnat :
    parseExprs (exprAddNat .NFT_NAT_DNAT addr port) r =
      { r with type := .RULE_NAT, natType := some .NFT_NAT_DNAT, iaddr := addr, iport := port
               reg1Val := addr.toNat, reg2Val := port.toNat } := by
  simp [parseExprs, exprAddNat, ruleExprCb, setReg, parseRuleNat, getRegVal, one, two]

/-- The port is in the second register, which is not looked at for SNAT. -/
theorem parse_snat :
    parseExprs (exprAddNat .NFT_NAT_SNAT addr port) r =
      { r with type := .RULE_NAT, natType := some .NFT_NAT_SNAT, eaddr := addr
               reg1Val := addr.toNat, reg2Val := port.toNat } := by
  simp [parseExprs, exprAddNat, ruleExprCb, setReg, parseRuleNat, getRegVal, one, two]

end nat

/-- A decoded rule as it is before its expressions are read. -/
def blank (type : RuleType) (handle : Nat) (userdata : CString) : RuleT :=
  tableCb type { handle, userdata, exprs := [] }

section rules
variable (handle : Nat) (userdata : CString) (ifIdx : Option Nat) (proto : UInt8)

theorem tableCb_filter (rhost iaddr : InAddr) (iport rport : UInt16) :
    tableCb .RULE_FILTER
        { handle, userdata, exprs := ruleSetFilter ifIdx proto rhost iaddr iport rport } =
      { blank .RULE_FILTER handle userdata with
        ingressIfidx := interfaceRead ifIdx, eport := if Ported proto then iport else 0
        iaddr, rhost, proto, filterAction := NF_ACCEPT } := by
  have common := parse_common (r := blank .RULE_FILTER handle userdata) rfl
    (exprCompare .NFT_PAYLOAD_NETWORK_HEADER 16 4 iaddr.toNat ++
      ((if rhost ≠ 0 then exprCompare .NFT_PAYLOAD_NETWORK_HEADER 12 4 rhost.toNat else []) ++
        (exprCompare .NFT_PAYLOAD_NETWORK_HEADER 9 1 proto.toNat ++ [.verdict NF_ACCEPT])))
    rfl ifIdx proto iport rport
  have start : tableCb .RULE_FILTER
      { handle, userdata, exprs := ruleSetFilter ifIdx proto rhost iaddr iport rport } =
      parseExprs (ruleSetFilter ifIdx proto rhost iaddr iport rport)
        (blank .RULE_FILTER handle userdata) := rfl
  rw [start, ruleSetFilter]
  simp only [List.append_assoc]
  rw [common, parse_daddr rfl _ rfl, parse_saddr rfl, parse_proto rfl]
  simp only [parseExprs, List.foldl_cons, List.foldl_nil, ruleExprCb, parseRuleVerdict, blank,
    tableCb, ↓reduceIte]
  by_cases any : rhost = 0
  · rw [if_neg (not_not.mpr any), any]
  · rw [if_pos any]

theorem tableCb_filter6 (rhost6 : Option In6Addr) (iaddr6 : In6Addr) (iport rport : UInt16) :
    tableCb .RULE_FILTER
        { handle, userdata, exprs := ruleSetFilter6 ifIdx proto rhost6 iaddr6 iport rport } =
      { blank .RULE_FILTER handle userdata with
        ingressIfidx := interfaceRead ifIdx, eport := if Ported proto then iport else 0
        iaddr6, rhost6 := rhost6.getD 0, proto, filterAction := NF_ACCEPT } := by
  have common := parse_common (r := blank .RULE_FILTER handle userdata) rfl
    (exprCompare .NFT_PAYLOAD_NETWORK_HEADER 24 16 iaddr6.toNat ++
      (exprSource6 rhost6 ++
        (exprCompare .NFT_PAYLOAD_NETWORK_HEADER 6 1 proto.toNat ++ [.verdict NF_ACCEPT])))
    rfl ifIdx proto iport rport
  have start : tableCb .RULE_FILTER
      { handle, userdata, exprs := ruleSetFilter6 ifIdx proto rhost6 iaddr6 iport rport } =
      parseExprs (ruleSetFilter6 ifIdx proto rhost6 iaddr6 iport rport)
        (blank .RULE_FILTER handle userdata) := rfl
  rw [start, ruleSetFilter6]
  simp only [List.append_assoc]
  rw [common, parse_daddr6 rfl _ rfl, parse_saddr6 rfl, parse_proto6 rfl]
  simp [parseExprs, ruleExprCb, parseRuleVerdict, blank, tableCb]

theorem tableCb_dnat (rhost : InAddr) (eport : UInt16) (ihost : InAddr) (iport : UInt16) :
    tableCb .RULE_NAT
        { handle, userdata, exprs := ruleSetDnat ifIdx proto rhost eport ihost iport } =
      { blank .RULE_NAT handle userdata with
        ingressIfidx := interfaceRead ifIdx, eport := if Ported proto then eport else 0
        iaddr := ihost, iport, rhost, proto, natType := some .NFT_NAT_DNAT
        reg1Val := ihost.toNat, reg2Val := iport.toNat } := by
  have interface := parse_interface (r := blank .RULE_NAT handle userdata) rfl
    ((if rhost ≠ 0 then exprCompare .NFT_PAYLOAD_NETWORK_HEADER 12 4 rhost.toNat else []) ++
      (exprCompare .NFT_PAYLOAD_NETWORK_HEADER 9 1 proto.toNat ++
        ((if (proto.toNat : Int) = IPPROTO_TCP ∨ (proto.toNat : Int) = IPPROTO_UDP then
          exprCompare .NFT_PAYLOAD_TRANSPORT_HEADER 2 2 eport.toNat else []) ++
          exprAddNat .NFT_NAT_DNAT ihost iport))) rfl ifIdx
  have start : tableCb .RULE_NAT
      { handle, userdata, exprs := ruleSetDnat ifIdx proto rhost eport ihost iport } =
      parseExprs (ruleSetDnat ifIdx proto rhost eport ihost iport)
        (blank .RULE_NAT handle userdata) := rfl
  have read := fun n one two => @parse_dnat n one two ihost iport
  rw [start, ruleSetDnat]
  simp only [List.append_assoc]
  rw [interface, parse_saddr rfl, parse_proto rfl]
  by_cases ported : Ported proto
  · have both := ported
    unfold Ported at both
    rw [if_pos both, if_pos ported, parse_compare _ rfl (by decide), read _ rfl rfl]
    simp [setCompared, portOf_bytesOf, blank, tableCb, parseExprs]
    exact Eq.symm
  · have neither := ported
    unfold Ported at neither
    rw [if_neg neither, if_neg ported, List.nil_append, read _ rfl rfl]
    simp [blank, tableCb, parseExprs]
    exact Eq.symm

/-- The internal port is read as the external port, and the internal host is given up for the
    remote one. -/
theorem tableCb_snat (rhost : InAddr) (rport : UInt16) (ehost : InAddr) (eport : UInt16)
    (ihost : InAddr) (iport : UInt16) :
    tableCb .RULE_NAT
        { handle, userdata, exprs := ruleSetSnat proto rhost rport ehost eport ihost iport } =
      { blank .RULE_NAT handle userdata with
        eport := if Ported proto then iport else 0
        eaddr := ehost, rhost, proto, natType := some .NFT_NAT_SNAT
        reg1Val := ehost.toNat, reg2Val := eport.toNat } := by
  have start : tableCb .RULE_NAT
      { handle, userdata, exprs := ruleSetSnat proto rhost rport ehost eport ihost iport } =
      parseExprs (ruleSetSnat proto rhost rport ehost eport ihost iport)
        (blank .RULE_NAT handle userdata) := rfl
  have read := fun n one two => @parse_snat n one two ehost eport
  rw [start, ruleSetSnat]
  simp only [List.append_assoc]
  rw [parse_compare _ rfl (by decide), parse_compare _ rfl (by decide), parse_proto rfl]
  by_cases ported : Ported proto
  · have both := ported
    unfold Ported at both
    rw [if_pos both, if_pos ported, List.append_assoc, parse_compare _ rfl (by decide),
      parse_source rfl, read _ rfl rfl]
    simp [setCompared, portOf_bytesOf, addrOf_bytesOf, blank, tableCb, parseExprs]
  · have neither := ported
    unfold Ported at neither
    rw [if_neg neither, if_neg ported, List.nil_append, read _ rfl rfl]
    simp [setCompared, addrOf_bytesOf, blank, tableCb, parseExprs]

end rules

/-- What is read of a rule apart from its expressions. -/
theorem ruleExprCb_frame (r : RuleT) (e : NftnlExpr) :
    (ruleExprCb r e).handle = r.handle ∧ (ruleExprCb r e).desc = r.desc := by
  cases e with
  | metaIif dreg => cases dreg <;> exact ⟨rfl, rfl⟩
  | payload base dreg offset len =>
    simp only [ruleExprCb, parseRulePayload]
    split
    · cases dreg <;> exact ⟨rfl, rfl⟩
    · exact ⟨rfl, rfl⟩
  | cmp sreg data =>
    simp only [ruleExprCb, parseRuleCmp]
    split
    · exact ⟨rfl, rfl⟩
    · unfold setCompared
      split <;> repeat' first | exact ⟨rfl, rfl⟩ | split
  | immediate dreg data => cases dreg <;> exact ⟨rfl, rfl⟩
  | verdict val =>
    simp only [ruleExprCb, parseRuleVerdict]
    split <;> exact ⟨rfl, rfl⟩
  | nat type addrReg protoReg => cases type <;> exact ⟨rfl, rfl⟩

theorem tableCb_frame (type : RuleType) (rule : NftnlRule) :
    (tableCb type rule).handle = rule.handle ∧ (tableCb type rule).desc = rule.userdata := by
  have along : ∀ (exprs : List NftnlExpr) (r : RuleT),
      (parseExprs exprs r).handle = r.handle ∧ (parseExprs exprs r).desc = r.desc := by
    intro exprs
    induction exprs with
    | nil => exact fun r => ⟨rfl, rfl⟩
    | cons e exprs ih =>
      intro r
      obtain ⟨handle, desc⟩ := ih (ruleExprCb r e)
      obtain ⟨handleE, descE⟩ := ruleExprCb_frame r e
      exact ⟨handle.trans handleE, desc.trans descE⟩
  exact along rule.exprs _

section chains
variable (type : RuleType) (c : NftChain)

theorem cache_newRule (userdata : CString) (exprs : List NftnlExpr) :
    (c.newRule userdata exprs).cache type =
      tableCb type { handle := c.nextHandle, userdata, exprs } :: c.cache type := rfl

/-- The deletion of the first rule that a search of the cache finds. -/
theorem cache_delRule {hit : RuleT → Bool} {p : RuleT}
    (found : (c.cache type).find? hit = some p) :
    (c.delRule p.handle).cache type = (c.cache type).eraseP hit := by
  have handles : (c.cache type).map RuleT.handle = c.rules.map NftnlRule.handle := by
    rw [NftChain.cache, List.map_map]
    exact List.map_congr_left fun rule _ => (tableCb_frame type rule).1
  have distinct : ((c.cache type).map RuleT.handle).Nodup := handles ▸ c.distinct
  rw [← eraseP_key distinct found, NftChain.cache, NftChain.cache, List.eraseP_map]
  simp only [NftChain.delRule, Function.comp_def, tableCb_frame]

end chains

end NftnlrdrMiscSpec
