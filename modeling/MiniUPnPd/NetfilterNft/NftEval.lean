import MiniUPnPd.NetfilterNft.NftnlrdrMiscSpec

/-!
What the kernel does with a packet that meets a rule: the expressions load registers and compare
them, and the first comparison that fails leaves the rule without a verdict.
-/
namespace NftEval
open NetBytes NftnlrdrMisc NftnlrdrMiscSpec
open PcpServer (In6Addr)

/-- A packet with its two headers, in network order. -/
structure RawPacket where
  iif : Nat
  network : List UInt8
  transport : List UInt8

def RawPacket.header (packet : RawPacket) : PayloadBase → List UInt8
  | .NFT_PAYLOAD_NETWORK_HEADER => packet.network
  | .NFT_PAYLOAD_TRANSPORT_HEADER => packet.transport

abbrev Registers := NftRegister → List UInt8

def Registers.load (dreg : NftRegister) (data : List UInt8) (regs : Registers) : Registers :=
  fun r => if r = dreg then data else regs r

/-- The verdict of the rule, if it comes to one. -/
def eval (packet : RawPacket) : List NftnlExpr → Registers → Option Nat
  | [], _ => none
  | .metaIif dreg :: rest, regs => eval packet rest (regs.load dreg (bytesOf 4 packet.iif))
  | .payload base dreg offset len :: rest, regs =>
      eval packet rest (regs.load dreg (slice (packet.header base) offset len))
  | .cmp sreg data :: rest, regs => if regs sreg = data then eval packet rest regs else none
  | .immediate dreg data :: rest, regs => eval packet rest (regs.load dreg (bytesOf 4 data))
  | .verdict val :: _, _ => some val
  | .nat .. :: _, _ => some NF_ACCEPT

section parts
variable (packet : RawPacket) (rest : List NftnlExpr) (regs : Registers) (v : Nat)

theorem eval_compare (base : PayloadBase) (offset len val : Nat) :
    ∃ regs', eval packet (exprCompare base offset len val ++ rest) regs = some v ↔
      slice (packet.header base) offset len = bytesOf len val ∧
        eval packet rest regs' = some v := by
  refine ⟨regs.load .NFT_REG_1 (slice (packet.header base) offset len), ?_⟩
  simp [exprCompare, eval, Registers.load]

theorem eval_interface (ifIdx : Option Nat) :
    ∃ regs', eval packet (exprInterface ifIdx ++ rest) regs = some v ↔
      (∀ idx ∈ ifIdx, bytesOf 4 packet.iif = bytesOf 4 idx) ∧ eval packet rest regs' = some v := by
  cases ifIdx with
  | none => exact ⟨regs, by simp [exprInterface]⟩
  | some idx =>
    refine ⟨regs.load .NFT_REG_1 (bytesOf 4 packet.iif), ?_⟩
    simp [exprInterface, eval, Registers.load]

theorem eval_port {proto : UInt8} (ported : Ported proto) (offset : Nat) (port : UInt16) :
    ∃ regs', eval packet (exprPort proto offset port ++ rest) regs = some v ↔
      slice packet.transport offset 2 = bytesOf 2 port.toNat ∧
        eval packet rest regs' = some v := by
  have both := ported
  unfold Ported at both
  rw [exprPort, if_pos both]
  exact eval_compare packet rest regs v .NFT_PAYLOAD_TRANSPORT_HEADER offset 2 port.toNat

theorem eval_source (rhost6 : Option In6Addr) :
    ∃ regs', eval packet (exprSource6 rhost6 ++ rest) regs = some v ↔
      (∀ a ∈ rhost6, slice packet.network 8 16 = bytesOf 16 a.toNat) ∧
        eval packet rest regs' = some v := by
  cases rhost6 with
  | none => exact ⟨regs, by simp [exprSource6]⟩
  | some a =>
    obtain ⟨regs', compared⟩ := eval_compare packet rest regs v .NFT_PAYLOAD_NETWORK_HEADER 8 16
      a.toNat
    refine ⟨regs', ?_⟩
    rw [exprSource6, compared]
    simp [RawPacket.header]

theorem eval_common {proto : UInt8} (ported : Ported proto) (ifIdx : Option Nat)
    (iport rport : UInt16) :
    ∃ regs', eval packet (ruleSetFilterCommon ifIdx proto iport rport ++ rest) regs = some v ↔
      (∀ idx ∈ ifIdx, bytesOf 4 packet.iif = bytesOf 4 idx) ∧
        slice packet.transport 2 2 = bytesOf 2 iport.toNat ∧
        (rport ≠ 0 → slice packet.transport 0 2 = bytesOf 2 rport.toNat) ∧
        eval packet rest regs' = some v := by
  have source : ∀ regs, ∃ regs', eval packet
      ((if rport ≠ 0 then exprPort proto 0 rport else []) ++ rest) regs = some v ↔
        (rport ≠ 0 → slice packet.transport 0 2 = bytesOf 2 rport.toNat) ∧
          eval packet rest regs' = some v := by
    intro regs
    by_cases any : rport = 0
    · exact ⟨regs, by simp [any]⟩
    · obtain ⟨regs', compared⟩ := eval_port packet rest regs v ported 0 rport
      refine ⟨regs', ?_⟩
      rw [if_pos any, compared]
      simp [any]
  unfold ruleSetFilterCommon
  rw [List.append_assoc, List.append_assoc]
  obtain ⟨one, interface⟩ := eval_interface packet
    (exprPort proto 2 iport ++ ((if rport ≠ 0 then exprPort proto 0 rport else []) ++ rest)) regs v
    ifIdx
  obtain ⟨two, dport⟩ := eval_port packet
    ((if rport ≠ 0 then exprPort proto 0 rport else []) ++ rest) one v ported 2 iport
  obtain ⟨three, sport⟩ := source two
  exact ⟨three, by rw [interface, dport, sport]⟩

end parts

/-- The packets that the rule of a pinhole accepts. -/
theorem eval_filter6 {proto : UInt8} (ported : Ported proto) (packet : RawPacket)
    (regs : Registers) (ifIdx : Option Nat) (rhost6 : Option In6Addr) (iaddr6 : In6Addr)
    (iport rport : UInt16) :
    eval packet (ruleSetFilter6 ifIdx proto rhost6 iaddr6 iport rport) regs = some NF_ACCEPT ↔
      (∀ idx ∈ ifIdx, bytesOf 4 packet.iif = bytesOf 4 idx) ∧
        slice packet.transport 2 2 = bytesOf 2 iport.toNat ∧
        (rport ≠ 0 → slice packet.transport 0 2 = bytesOf 2 rport.toNat) ∧
        slice packet.network 24 16 = bytesOf 16 iaddr6.toNat ∧
        (∀ a ∈ rhost6, slice packet.network 8 16 = bytesOf 16 a.toNat) ∧
        slice packet.network 6 1 = bytesOf 1 proto.toNat := by
  unfold ruleSetFilter6
  simp only [List.append_assoc]
  obtain ⟨one, common⟩ := eval_common packet
    (exprCompare .NFT_PAYLOAD_NETWORK_HEADER 24 16 iaddr6.toNat ++ (exprSource6 rhost6 ++
      (exprCompare .NFT_PAYLOAD_NETWORK_HEADER 6 1 proto.toNat ++ [.verdict NF_ACCEPT])))
    regs NF_ACCEPT ported ifIdx iport rport
  obtain ⟨two, daddr⟩ := eval_compare packet (exprSource6 rhost6 ++
      (exprCompare .NFT_PAYLOAD_NETWORK_HEADER 6 1 proto.toNat ++ [.verdict NF_ACCEPT]))
    one NF_ACCEPT .NFT_PAYLOAD_NETWORK_HEADER 24 16 iaddr6.toNat
  obtain ⟨three, saddr⟩ := eval_source packet
    (exprCompare .NFT_PAYLOAD_NETWORK_HEADER 6 1 proto.toNat ++ [.verdict NF_ACCEPT])
    two NF_ACCEPT rhost6
  obtain ⟨four, protocol⟩ := eval_compare packet [.verdict NF_ACCEPT] three NF_ACCEPT
    .NFT_PAYLOAD_NETWORK_HEADER 6 1 proto.toNat
  rw [common, daddr, saddr, protocol]
  simp [eval, RawPacket.header]

end NftEval
