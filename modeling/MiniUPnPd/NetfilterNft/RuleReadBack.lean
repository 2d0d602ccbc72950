import MiniUPnPd.NetfilterNft.NftnlrdrMiscSpec

/-!
What is read back of each kind of rule that the daemon builds, for the arguments that it was built
from. The decoder knows no source port, and no field of a peer rule but the remote host.
-/
namespace RuleReadBack
open CText Inet Iptcrdr NetBytes NftnlrdrMisc NftnlrdrMiscSpec PcpServer

/-- The arguments of a builder. An interface is given by its index, and no remote host of an IPv6
    filter rule stands for any. -/
inductive BuiltRule where
  | dnat (ifIdx : Option UInt32) (rhost : InAddr) (eport : UInt16) (ihost : InAddr) (iport : UInt16)
  | filter (ifIdx : Option UInt32) (rhost iaddr : InAddr) (iport rport : UInt16)
  | filter6 (ifIdx : Option UInt32) (rhost6 : Option In6Addr) (iaddr6 : In6Addr)
      (iport rport : UInt16)
  | snat (rhost : InAddr) (rport : UInt16) (ehost : InAddr) (eport : UInt16) (ihost : InAddr)
      (iport : UInt16)

namespace BuiltRule
variable (proto : UInt8)

def ifIdx : BuiltRule → Option UInt32
  | dnat ifIdx .. | filter ifIdx .. | filter6 ifIdx .. => ifIdx
  | snat .. => none

def chainType : BuiltRule → RuleType
  | dnat .. | snat .. => .RULE_NAT
  | filter .. | filter6 .. => .RULE_FILTER

def natType : BuiltRule → Option NatType
  | dnat .. => some .NFT_NAT_DNAT
  | snat .. => some .NFT_NAT_SNAT
  | filter .. | filter6 .. => none

def exprs : BuiltRule → List NftnlExpr
  | dnat ifIdx rhost eport ihost iport =>
      ruleSetDnat (ifIdx.map UInt32.toNat) proto rhost eport ihost iport
  | filter ifIdx rhost iaddr iport rport =>
      ruleSetFilter (ifIdx.map UInt32.toNat) proto rhost iaddr iport rport
  | filter6 ifIdx rhost6 iaddr6 iport rport =>
      ruleSetFilter6 (ifIdx.map UInt32.toNat) proto rhost6 iaddr6 iport rport
  | snat rhost rport ehost eport ihost iport =>
      ruleSetSnat proto rhost rport ehost eport ihost iport

/-- The rule as the cache has it after the kernel has returned it. -/
def readBack (descr : CString) (handle : Nat) (rule : BuiltRule) : RuleT :=
  tableCb rule.chainType { handle, userdata := descr, exprs := rule.exprs proto }

/-- The addresses and ports, in the fields of `rule_t` that they are meant for. -/
def Fields (r : RuleT) : BuiltRule → Prop
  | dnat _ rhost eport ihost iport =>
      r.rhost = rhost ∧ r.eport = eport ∧ r.iaddr = ihost ∧ r.iport = iport
  | filter _ rhost iaddr iport rport =>
      r.rhost = rhost ∧ r.iaddr = iaddr ∧ r.eport = iport ∧ r.rport = rport
  | filter6 _ rhost6 iaddr6 iport rport =>
      r.rhost6 = rhost6.getD 0 ∧ r.iaddr6 = iaddr6 ∧ r.eport = iport ∧ r.rport = rport
  | snat rhost rport _ eport ihost iport =>
      r.rhost = rhost ∧ r.rport = rport ∧ r.iaddr = ihost ∧ r.iport = iport ∧ r.eport = eport

structure Same (descr : CString) (rule : BuiltRule) (r : RuleT) : Prop where
  type : r.type = rule.chainType
  natType : r.natType = rule.natType
  proto : r.proto = proto
  desc : r.desc = descr
  interface : r.ingressIfidx = (rule.ifIdx.map UInt32.toNat).getD 0
  fields : Fields r rule

/-- No field is given a value that is not read back. -/
def Readable : BuiltRule → Prop
  | dnat _ _ eport _ _ => Ported proto ∨ eport = 0
  | filter _ _ _ iport rport | filter6 _ _ _ iport rport =>
      (Ported proto ∨ iport = 0) ∧ rport = 0
  | snat _ rport _ eport ihost iport => rport = 0 ∧ ihost = 0 ∧ iport = 0 ∧ eport = 0

end BuiltRule

theorem interfaceRead_index (ifIdx : Option UInt32) :
    interfaceRead (ifIdx.map UInt32.toNat) = (ifIdx.map UInt32.toNat).getD 0 := by
  cases ifIdx with
  | none => rfl
  | some idx => exact valueOf_bytesOf (show idx.toNat < 256 ^ 4 from idx.toNat_lt)

/-- A port that is read of a protocol with ports only. -/
theorem ported_eq_iff (proto : UInt8) (port : UInt16) :
    (if Ported proto then port else 0) = port ↔ Ported proto ∨ port = 0 := by
  split
  · rename_i ported
    exact iff_of_true rfl (.inl ported)
  · rename_i other
    rw [or_iff_right other]
    exact eq_comm

theorem zero_port_iff {port : UInt16} : (0 : UInt16) = port ↔ port = 0 := eq_comm

/-- A rule of any kind, for any protocol and description, is read back as it was built exactly if
    the builder was given no value that is lost. -/
theorem read_back_iff (proto : UInt8) (descr : CString) (handle : Nat) (rule : BuiltRule) :
    rule.Same proto descr (rule.readBack proto descr handle) ↔ rule.Readable proto := by
  cases rule with
  | dnat ifIdx rhost eport ihost iport =>
    have read : BuiltRule.readBack proto descr handle (.dnat ifIdx rhost eport ihost iport) = _ :=
      tableCb_dnat handle descr (ifIdx.map UInt32.toNat) proto rhost eport ihost iport
    rw [read]
    constructor
    · intro same
      exact (ported_eq_iff proto eport).mp same.fields.2.1
    · intro readable
      have port := (ported_eq_iff proto eport).mpr readable
      exact ⟨rfl, rfl, rfl, rfl, interfaceRead_index ifIdx, rfl, port, rfl, rfl⟩
  | filter ifIdx rhost iaddr iport rport =>
    have read : BuiltRule.readBack proto descr handle (.filter ifIdx rhost iaddr iport rport) = _ :=
      tableCb_filter handle descr (ifIdx.map UInt32.toNat) proto rhost iaddr iport rport
    rw [read]
    constructor
    · intro same
      obtain ⟨_, _, inner, source⟩ := same.fields
      exact ⟨(ported_eq_iff proto iport).mp inner, zero_port_iff.mp source⟩
    · intro readable
      have inner := (ported_eq_iff proto iport).mpr readable.1
      have source := zero_port_iff.mpr readable.2
      exact ⟨rfl, rfl, rfl, rfl, interfaceRead_index ifIdx, rfl, rfl, inner, source⟩
  | filter6 ifIdx rhost6 iaddr6 iport rport =>
    have read : BuiltRule.readBack proto descr handle (.filter6 ifIdx rhost6 iaddr6 iport rport) =
        _ := tableCb_filter6 handle descr (ifIdx.map UInt32.toNat) proto rhost6 iaddr6 iport rport
    rw [read]
    constructor
    · intro same
      obtain ⟨_, _, inner, source⟩ := same.fields
      exact ⟨(ported_eq_iff proto iport).mp inner, zero_port_iff.mp source⟩
    · intro readable
      have inner := (ported_eq_iff proto iport).mpr readable.1
      have source := zero_port_iff.mpr readable.2
      exact ⟨rfl, rfl, rfl, rfl, interfaceRead_index ifIdx, rfl, rfl, inner, source⟩
  | snat rhost rport ehost eport ihost iport =>
    have read : BuiltRule.readBack proto descr handle
        (.snat rhost rport ehost eport ihost iport) = _ :=
      tableCb_snat handle descr proto rhost rport ehost eport ihost iport
    rw [read]
    constructor
    · intro same
      obtain ⟨_, source, host, inner, outer⟩ := same.fields
      have unset : iport = 0 := zero_port_iff.mp inner
      have port : (if Ported proto then iport else 0) = eport := outer
      rw [unset, ite_self] at port
      exact ⟨zero_port_iff.mp source, Eq.symm host, unset, port.symm⟩
    · intro readable
      obtain ⟨source, host, inner, outer⟩ := readable
      have port : (if Ported proto then iport else 0) = eport := by rw [inner, outer, ite_self]
      exact ⟨rfl, rfl, rfl, rfl, rfl, rfl, source.symm, host.symm, inner.symm, port⟩

/-- A redirection of UDPLITE, a pinhole for one source port, and a peer rule. -/
theorem fields_lost :
    ¬ (BuiltRule.dnat none 0 8080 (ofBytes 192 168 0 2) 80).Same 136 "web".toList
        ((BuiltRule.dnat none 0 8080 (ofBytes 192 168 0 2) 80).readBack 136 "web".toList 1) ∧
      ¬ (BuiltRule.filter6 none none 2 80 1234).Same 6 "web".toList
        ((BuiltRule.filter6 none none 2 80 1234).readBack 6 "web".toList 1) ∧
      ¬ (BuiltRule.snat (ofBytes 8 8 8 8) 53 0 5353 (ofBytes 192 168 0 2) 5353).Same 17
        "peer".toList ((BuiltRule.snat (ofBytes 8 8 8 8) 53 0 5353 (ofBytes 192 168 0 2)
          5353).readBack 17 "peer".toList 1) := by
  refine ⟨?_, ?_, ?_⟩
  · intro same
    exact absurd same.fields.2.1 (by decide)
  · intro same
    exact absurd same.fields.2.2.2 (by decide)
  · intro same
    exact absurd same.fields.2.1 (by decide)

end RuleReadBack
