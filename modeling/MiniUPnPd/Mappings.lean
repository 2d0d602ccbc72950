import MiniUPnPd.DaemonRules
import MiniUPnPd.UpnpRedirectSpec

/-!
Mappings as the lookups hand them back: the rule of the nat table with the description and
the expiry time under its key. The order of external ports in which the servers search.
-/
namespace Mappings
open DaemonRules CText Inet Iptc Iptcrdr IptcrdrSpec NatPmp RuleKeys UpnpRedirect
  UpnpRedirectSpec

def mappings (nf : Netfilter) : List RedirectRule := (nf.chain .nat).map (readRule nf)

def HasMapping (nf : Netfilter) (proto : Int) (eport : UInt16) (client : InAddr)
    (iport : UInt16) (expiry : Nat) : Prop :=
  ∃ rule ∈ mappings nf, rule.eport = eport ∧ rule.proto = proto ∧
    rule.iaddr = inetNtoa client ∧ rule.iport = iport ∧ rule.timestamp = expiry

instance (nf : Netfilter) (proto : Int) (eport : UInt16) (client : InAddr) (iport : UInt16)
    (expiry : Nat) : Decidable (HasMapping nf proto eport client iport expiry) := by
  unfold HasMapping
  infer_instance

section
variable {nf nf' : Netfilter} {proto : Int} {eport iport : UInt16} {client : InAddr}

/-- The expiry is that of the key, the same for all rules under it. -/
theorem hasMapping_iff (expiry : Nat) :
    HasMapping nf proto eport client iport expiry ↔
      (∃ e ∈ nf.chain .nat, redirectMatches proto eport e = true ∧ e.target.minIp = client ∧
        e.target.minAll = iport) ∧ (getRedirectDesc eport proto nf).2 = expiry := by
  constructor
  · rintro ⟨rule, member, port, protocol, host, inner, time⟩
    obtain ⟨e, inside, rfl⟩ := List.mem_map.mp member
    have here : e.dpts.1 = eport := port
    have same : (e.proto.toNat : Int) = proto := protocol
    refine ⟨⟨e, inside, ?_, inetNtoa_injective host, inner⟩, ?_⟩
    · exact (redirectMatches_iff e).mpr ⟨same.symm, here.symm⟩
    · rw [← here, ← same]
      exact time
  · rintro ⟨⟨e, inside, key, host, inner⟩, time⟩
    obtain ⟨protocol, port⟩ := (redirectMatches_iff e).mp key
    refine ⟨readRule nf e, List.mem_map_of_mem inside, port.symm, protocol.symm, ?_, inner, ?_⟩
    · exact congrArg inetNtoa host
    · rw [← time, protocol, port]
      rfl

theorem hasMapping_congr (nat : nf'.chain .nat = nf.chain .nat)
    (descs : nf'.rdrDescList = nf.rdrDescList) (expiry : Nat) :
    HasMapping nf' proto eport client iport expiry ↔
      HasMapping nf proto eport client iport expiry := by
  simp only [hasMapping_iff, nat, getRedirectDesc, descs]

/-- The mapping that a redirection has just made, with its own expiry and no other. -/
theorem hasMapping_added {d d' : Daemon} {rhost : Option CString} {iaddr desc : CString}
    {timestamp : Nat} (byte : isByte proto)
    (described : Described rhost eport iaddr iport proto desc timestamp d d') (expiry : Nat) :
    HasMapping d'.nf proto eport (inetAddr iaddr) iport expiry ↔ timestamp = expiry := by
  have nat : d'.nf.chain .nat = d.nf.chain .nat ++ [_] := described.1
  have key := natRule_key rhost eport iaddr iport byte
  rw [hasMapping_iff,
    getRedirectDesc_described rhost eport iaddr iport proto desc timestamp described]
  constructor
  · intro both
    exact both.2
  · intro same
    refine ⟨⟨natRule proto eport iaddr iport rhost, ?_, ?_, rfl, rfl⟩, same⟩
    · rw [nat]
      exact List.mem_append_right _ (List.mem_singleton.mpr rfl)
    · exact (redirectMatches_iff _).mpr ⟨key.2.symm, key.1.symm⟩

theorem hasMapping_described {d d' : Daemon} {rhost : Option CString} {desc : CString}
    {timestamp : Nat} (byte : isByte proto)
    (described : Described rhost eport (inetNtoa client) iport proto desc timestamp d d')
    (expiry : Nat) :
    HasMapping d'.nf proto eport client iport expiry ↔ timestamp = expiry := by
  have added := hasMapping_added byte described expiry
  rwa [inetAddr_inetNtoa] at added

/-- A mapping that a lookup has found, with the expiry under its key. -/
theorem hasMapping_found {d : Daemon} {old : RedirectRule}
    (found : (d.lookup eport proto).1 = some old) (host : inetNtoa client = old.iaddr)
    (inner : iport = old.iport) (expiry : Nat) :
    HasMapping d.nf proto eport client iport expiry ↔
      (getRedirectDesc eport proto d.nf).2 = expiry := by
  obtain ⟨e, first, rfl⟩ := getRedirectRule_some found
  have inside := List.mem_of_find?_eq_some first
  rw [hasMapping_iff]
  constructor
  · intro both
    exact both.2
  · intro time
    exact ⟨⟨e, inside, List.find?_some first, (inetNtoa_injective host).symm, inner.symm⟩, time⟩

theorem lookup_tables (d : Daemon) (eport : UInt16) (proto : Int) :
    (d.lookup eport proto).2.nf.chain .nat = d.nf.chain .nat ∧
      (d.lookup eport proto).2.nf.rdrDescList = d.nf.rdrDescList := by
  have same : tables (getRedirectRule eport proto d.nf).2 = tables d.nf :=
    getRedirectRule_tables eport proto d.nf
  exact ⟨congrArg Tables.nat same, congrArg Tables.descs same⟩

end

section order
variable {port : UInt16}

theorem toNat_pos (nonzero : port ≠ 0) : 0 < port.toNat := by
  by_contra zero
  exact nonzero (UInt16.toNat_inj.mp (Nat.eq_zero_of_not_pos zero))

theorem nextPort_toNat (nonzero : port ≠ 0) : (nextPort port).toNat = port.toNat % 65535 + 1 := by
  have small := port.toNat_lt
  have positive := toNat_pos nonzero
  have sum : (port + 1).toNat = (port.toNat + 1) % 65536 := by simp [UInt16.toNat_add]
  unfold nextPort
  split
  · rename_i wraps
    have zero : (port + 1).toNat = 0 := by rw [wraps]; rfl
    have one : (1 : UInt16).toNat = 1 := rfl
    omega
  · rename_i stays
    have := toNat_pos stays
    omega

theorem nextPort_iterate (nonzero : port ≠ 0) (n : Nat) :
    (nextPort^[n] port).toNat = (port.toNat - 1 + n) % 65535 + 1 ∧ nextPort^[n] port ≠ 0 := by
  have small := port.toNat_lt
  have positive := toNat_pos nonzero
  induction n with
  | zero =>
    refine ⟨?_, nonzero⟩
    simp only [Function.iterate_zero, id_eq]
    omega
  | succ n ih =>
    rw [Function.iterate_succ_apply', nextPort_toNat ih.2]
    refine ⟨?_, nextPort_nonzero _⟩
    omega

/-- The search is back at its first port after all ports but 0. -/
theorem nextPort_cycle (nonzero : port ≠ 0) : nextPort^[65535] port = port := by
  have small := port.toNat_lt
  have positive := toNat_pos nonzero
  apply UInt16.toNat_inj.mp
  rw [(nextPort_iterate nonzero 65535).1]
  omega

end order

end Mappings
