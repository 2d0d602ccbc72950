import MiniUPnPd.Lib.InetNtop6
import MiniUPnPd.PcpServer

/-!
What a request for a pinhole asks for, and the packets that it asks to let through.
-/
namespace PinholeRequests
open Inet
open PcpServer (In6Addr)

/-- Arguments of `add_pinhole` and `find_pinhole`. -/
structure PinholeRequest where
  remHost : Option CString
  remPort : UInt16
  intClient : CString
  intPort : UInt16
  proto : UInt8
  desc : CString
  timestamp : UInt32

/-- Without a source, for packets from anywhere; with port 0, from any port. -/
structure Opening where
  proto : UInt8
  source : Option In6Addr
  rport : UInt16
  client : In6Addr
  iport : UInt16
  deriving DecidableEq

/-- The remote host is a wildcard, or an address in one of its forms. No address begins with a
    star. -/
def sourceMeant : Option CString → Option (Option In6Addr)
  | none | some [] | some ['*'] => some none
  | some (c :: s) => if c = '*' then none else (inetPton6 (c :: s)).map some

def PinholeRequest.meant (req : PinholeRequest) : Option Opening := do
  let source ← sourceMeant req.remHost
  let client ← inetPton6 req.intClient
  pure { proto := req.proto, source, rport := req.remPort, client, iport := req.intPort }

/-- An IPv6 packet, on the interface that the rules are for. -/
structure Packet6 where
  proto : UInt8
  saddr : In6Addr
  sport : UInt16
  daddr : In6Addr
  dport : UInt16

def Opening.Admits (o : Opening) (packet : Packet6) : Prop :=
  packet.proto = o.proto ∧ (∀ a ∈ o.source, packet.saddr = a) ∧
    (o.rport ≠ 0 → packet.sport = o.rport) ∧ packet.daddr = o.client ∧ packet.dport = o.iport

/-- What the daemon looks for: any source is the address zero. -/
def Opening.sought (o : Opening) : UInt8 × In6Addr × UInt16 × In6Addr × UInt16 :=
  (o.proto, o.source.getD 0, o.rport, o.client, o.iport)

section meant
variable {req : PinholeRequest} {o : Opening} (meant : req.meant = some o)
include meant

theorem meant_fields : sourceMeant req.remHost = some o.source ∧
    inetPton6 req.intClient = some o.client ∧ req.proto = o.proto ∧ req.remPort = o.rport ∧
    req.intPort = o.iport := by
  simp only [PinholeRequest.meant, Option.bind_eq_bind, Option.bind_eq_some_iff, Option.pure_def,
    Option.some.injEq] at meant
  obtain ⟨source, given, client, address, rfl⟩ := meant
  exact ⟨given, address, rfl, rfl, rfl⟩

/-- How the remote host is given. -/
theorem source_cases : o.source = none ∧ (req.remHost = none ∨ req.remHost = some [] ∨
      req.remHost = some ['*']) ∨
    ∃ c s a, req.remHost = some (c :: s) ∧ c ≠ '*' ∧ inetPton6 (c :: s) = some a ∧
      o.source = some a := by
  have given := (meant_fields meant).1
  unfold sourceMeant at given
  split at given
  · rename_i host
    exact .inl ⟨(Option.some.inj given).symm, .inl host⟩
  · rename_i host
    exact .inl ⟨(Option.some.inj given).symm, .inr (.inl host)⟩
  · rename_i host
    exact .inl ⟨(Option.some.inj given).symm, .inr (.inr host)⟩
  · rename_i c s _ host
    split at given
    · simp at given
    · rename_i literal
      obtain ⟨a, read, same⟩ := Option.map_eq_some_iff.mp given
      exact .inr ⟨c, s, a, host, literal, read, same.symm⟩

end meant

end PinholeRequests
