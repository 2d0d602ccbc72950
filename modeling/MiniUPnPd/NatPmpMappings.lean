import MiniUPnPd.Lib.FirstStop
import MiniUPnPd.Mappings

/-!
What a NAT-PMP client may conclude from result code 0. The search for an external port
stops at the first port that is permitted, not in use and not redirected to someone else;
a redirection of the client that is found there is replaced. When the removal of the old
one fails, the search ends with result code 0 and the old one in place.
-/
namespace NatPmpMappings
open DaemonRules FirstStop Mappings NetBytes CText Inet Iptc Iptcrdr NatPmp RuleKeys
  UpnpPermissions UpnpRedirect UpnpRedirectSpec

section search
variable (env : Env) (client : InAddr) (iport : UInt16) (proto : Int)

/-- The port is permitted and free, so that its redirection is looked up. -/
def looks (eport : UInt16) : Prop :=
  checkUpnpRuleAgainstPermissions env.upnppermlist eport client iport = true ∧
    ¬ (env.checkPortinuse ∧ env.portInUse eport proto (inetNtoa client) iport)

instance (eport : UInt16) : Decidable (looks env client iport proto eport) := by
  unfold looks
  infer_instance

def Others (old : RedirectRule) : Prop := ¬ (inetNtoa client = old.iaddr ∧ iport = old.iport)

/-- The search goes past this port. -/
def passes (s : Daemon × UInt16) : Prop :=
  looks env client iport proto s.2 →
    ∃ old, (s.1.lookup s.2 proto).1 = some old ∧ Others client iport old

def move (s : Daemon × UInt16) : Daemon × UInt16 :=
  (if looks env client iport proto s.2 then (s.1.lookup s.2 proto).2 else s.1, nextPort s.2)

def redirectHere (lifetime : Nat) (eport : UInt16) (d : Daemon) : Search × Daemon :=
  let (r, d) := upnpRedirectInternal env none eport (inetNtoa client) iport proto
    (natPmpDesc eport proto) ((env.clock.upnpTime + lifetime) % 2 ^ 32) d
  ({ code := if r < 0 then 3 else 0, eport }, d)

/-- What is done at the port where the search stops. -/
def settle (lifetime : Nat) (s : Daemon × UInt16) : Search × Daemon :=
  match s.1.lookup s.2 proto with
  | (none, d) => redirectHere env client iport proto lifetime s.2 d
  | (some _, d) =>
      let (r, d) := upnpDeleteRedir env s.2 proto d
      if r < 0 then ({ code := 0, eport := s.2 }, d)
      else redirectHere env client iport proto lifetime s.2 d

/-- A redirection of the client is there, and libiptc refuses to open the table for its
    removal. -/
def LeftInPlace (s : Daemon × UInt16) : Prop :=
  (s.1.lookup s.2 proto).1 ≠ none ∧
    callsSucceed 1 (s.1.lookup s.2 proto).2.nf.iptcResults = false

instance (s : Daemon × UInt16) : Decidable (LeftInPlace proto s) := by
  unfold LeftInPlace
  infer_instance

/-- The expiry of the client's mapping after what is done at the port. -/
def settledExpiry (lifetime : Nat) (s : Daemon × UInt16) : Nat :=
  if LeftInPlace proto s then (getRedirectDesc s.2 proto s.1.nf).2
  else (env.clock.upnpTime + lifetime) % 2 ^ 32

/-- What is at the port when the search stops there makes result code 0 the truth. -/
def Honest (lifetime : Nat) (s : Daemon × UInt16) : Prop :=
  (LeftInPlace proto s →
    (getRedirectDesc s.2 proto s.1.nf).2 = env.clock.upnpTime + lifetime) ∧
  (¬ LeftInPlace proto s → env.clock.upnpTime + lifetime < 2 ^ 32)

end search

section search
variable {env : Env} {client : InAddr} {iport : UInt16} {proto : Int} {lifetime : Nat}

/-- A search that ends with code 0 has stopped somewhere. With `fuel + 1` rounds to go it is
    `fuel` ports before the one it started from. -/
theorem searchPort_settles (fuel : Nat) (first eport : UInt16) (any : Bool) (d : Daemon)
    (nonzero : eport ≠ 0) (started : first = 0 → 0 < fuel)
    (ahead : nextPort^[fuel] eport = if first = 0 then eport else first)
    (code : (searchPort env client iport proto lifetime (fuel + 1) first eport any d).1.code = 0) :
    ∃ s, StopsAt (passes env client iport proto) (move env client iport proto) (d, eport) s ∧
      searchPort env client iport proto lifetime (fuel + 1) first eport any d =
        settle env client iport proto lifetime s := by
  induction fuel generalizing first eport any d with
  | zero =>
    have other : first ≠ 0 := by
      intro zero
      have := started zero
      omega
    simp only [other, ↓reduceIte, Function.iterate_zero, id_eq] at ahead
    unfold searchPort at code
    rw [if_pos ⟨other, ahead⟩] at code
    split at code <;> simp at code
  | succ fuel ih =>
    by_cases back : first ≠ 0 ∧ eport = first
    · unfold searchPort at code
      rw [if_pos back] at code
      split at code <;> simp at code
    · generalize origin : (if first = 0 then eport else first) = start at ahead
      have startNonzero : start ≠ 0 := by
        rw [← origin]
        split
        · exact nonzero
        · assumption
      have onward : ∀ any (d' : Daemon),
          (searchPort env client iport proto lifetime (fuel + 1) start (nextPort eport) any
            d').1.code = 0 →
          ∃ s, StopsAt (passes env client iport proto) (move env client iport proto)
              (d', nextPort eport) s ∧
            searchPort env client iport proto lifetime (fuel + 1) start (nextPort eport) any d' =
              settle env client iport proto lifetime s := by
        intro any d' zero
        refine ih start (nextPort eport) any d' (nextPort_nonzero eport) ?_ ?_ zero
        · exact fun zero => absurd zero startNonzero
        · rw [if_neg startNonzero, ← ahead, Function.iterate_succ_apply]
      unfold searchPort at code ⊢
      simp only [if_neg back, origin] at code ⊢
      by_cases look : looks env client iport proto eport
      · rw [if_pos look.1, if_neg look.2] at code ⊢
        rcases looked : d.lookup eport proto with ⟨_ | old, after⟩
        · refine ⟨(d, eport), .here ?_, ?_⟩
          · intro pass
            obtain ⟨old, there, _⟩ := pass look
            simp [looked] at there
          · simp only [settle, looked, redirectHere]
        · rw [looked] at code
          dsimp only at code ⊢
          by_cases own : inetNtoa client = old.iaddr ∧ iport = old.iport
          · refine ⟨(d, eport), .here ?_, ?_⟩
            · intro pass
              obtain ⟨other, there, others⟩ := pass look
              rw [looked] at there
              obtain rfl := Option.some.inj there
              exact others own
            · rw [if_pos own]
              simp only [settle, looked, redirectHere]
          · rw [if_neg own] at code ⊢
            obtain ⟨s, run, same⟩ := onward true after code
            refine ⟨s, .later (fun _ => ⟨old, by rw [looked], own⟩) ?_, same⟩
            simpa only [move, if_pos look, looked] using run
      · have pass : passes env client iport proto (d, eport) := fun looking => absurd looking look
        have skip : move env client iport proto (d, eport) = (d, nextPort eport) := by
          simp only [move, if_neg look]
        by_cases permitted : checkUpnpRuleAgainstPermissions env.upnppermlist eport client iport = true
        · have busy : env.checkPortinuse ∧ env.portInUse eport proto (inetNtoa client) iport := by
            by_contra free
            exact look ⟨permitted, free⟩
          rw [if_pos permitted, if_pos busy] at code ⊢
          obtain ⟨s, run, same⟩ := onward true d code
          exact ⟨s, .later pass (skip ▸ run), same⟩
        · rw [if_neg permitted] at code ⊢
          obtain ⟨s, run, same⟩ := onward any d code
          exact ⟨s, .later pass (skip ▸ run), same⟩

theorem settledExpiry_iff (s : Daemon × UInt16) :
    settledExpiry env proto lifetime s = env.clock.upnpTime + lifetime ↔
      Honest env proto lifetime s := by
  unfold settledExpiry Honest
  split
  · rename_i left
    simp [left]
  · rename_i replaced
    simp only [replaced, false_imp_iff, not_false_eq_true, true_imp_iff, true_and]
    omega

theorem redirectHere_mapping {eport : UInt16} {d : Daemon} (byte : isByte proto)
    (success : (redirectHere env client iport proto lifetime eport d).1.code = 0) (expiry : Nat) :
    HasMapping (redirectHere env client iport proto lifetime eport d).2.nf proto eport client
        iport expiry ↔
      (env.clock.upnpTime + lifetime) % 2 ^ 32 = expiry := by
  have done : 0 ≤ (upnpRedirectInternal env none eport (inetNtoa client) iport proto
      (natPmpDesc eport proto) ((env.clock.upnpTime + lifetime) % 2 ^ 32) d).1 := by
    by_contra negative
    rw [redirectHere] at success
    dsimp only at success
    rw [if_pos (not_le.mp negative)] at success
    simp at success
  have described := upnpRedirectInternal_added env none eport (inetNtoa client) iport proto
    (natPmpDesc eport proto) ((env.clock.upnpTime + lifetime) % 2 ^ 32) d done
  exact hasMapping_described byte described expiry

/-- The port where the search stops is the answered one, and the client has a mapping there. -/
theorem settle_mapping {s : Daemon × UInt16} (byte : isByte proto)
    (stops : ¬ passes env client iport proto s)
    (success : (settle env client iport proto lifetime s).1.code = 0) :
    (settle env client iport proto lifetime s).1.eport = s.2 ∧
      ∀ expiry, HasMapping (settle env client iport proto lifetime s).2.nf proto s.2 client iport
          expiry ↔ settledExpiry env proto lifetime s = expiry := by
  obtain ⟨d, eport⟩ := s
  unfold settle at success ⊢
  rcases looked : d.lookup eport proto with ⟨_ | old, after⟩
  · have free : ¬ LeftInPlace proto (d, eport) := by simp [LeftInPlace, looked]
    simp only [looked] at success ⊢
    refine ⟨rfl, fun expiry => ?_⟩
    rw [redirectHere_mapping byte success, settledExpiry, if_neg free]
  · have own : inetNtoa client = old.iaddr ∧ iport = old.iport := by
      by_contra others
      exact stops fun _ => ⟨old, by rw [looked], others⟩
    have refused := upnpDeleteRedir_negative env eport proto after
    simp only [looked] at success ⊢
    by_cases left : (upnpDeleteRedir env eport proto after).1 < 0
    · have here : LeftInPlace proto (d, eport) := by
        simp only [LeftInPlace, looked]
        exact ⟨by simp, refused.mp left⟩
      have untouched := upnpDeleteRedir_refused env eport proto after left
      have seen := lookup_tables d eport proto
      rw [looked] at seen
      rw [if_pos left]
      refine ⟨rfl, fun expiry => ?_⟩
      rw [hasMapping_congr (untouched.1.trans seen.1) (untouched.2.trans seen.2),
        hasMapping_found (by rw [looked]) own.1 own.2, settledExpiry, if_pos here]
    · have replaced : ¬ LeftInPlace proto (d, eport) := by
        simp only [LeftInPlace, looked]
        intro both
        exact left (refused.mpr both.2)
      rw [if_neg left] at success ⊢
      refine ⟨rfl, fun expiry => ?_⟩
      rw [redirectHere_mapping byte success, settledExpiry, if_neg replaced]

end search

section packet
variable {env : Env} {uplink : Uplink} {req response : List UInt8} {client : InAddr}
  {d d' : Daemon}

def requestProto (req : List UInt8) : Int := if byteAt req 1 = 1 then IPPROTO_UDP else IPPROTO_TCP

/-- Where the search starts: the external port asked for, or the internal one. -/
def startPort (req : List UInt8) : UInt16 :=
  if readNU16 req 6 = 0 then readNU16 req 4 else readNU16 req 6

theorem answered_search (version : byteAt req 0 = 0)
    (opcode : byteAt req 1 = 1 ∨ byteAt req 1 = 2)
    (answer : processIncomingNATPMPPacket env uplink req client d = (some response, d')) :
    byteAt response 3 = (mappingRequest env req client d).1.code ∧
      readNU16 response 10 = (mappingRequest env req client d).1.eport ∧
      d' = (mappingRequest env req client d).2 := by
  have small : ¬ 128 ≤ byteAt req 1 := by
    rcases opcode with one | two
    · rw [one]
      decide
    · rw [two]
      decide
  have other : byteAt req 1 ≠ 0 := by
    rcases opcode with one | two
    · rw [one]
      decide
    · rw [two]
      decide
  unfold processIncomingNATPMPPacket at answer
  dsimp only at answer
  split at answer
  · simp at answer
  · rw [if_neg (by rw [version]; decide)] at answer
    obtain ⟨bytes, after⟩ := Prod.mk.inj answer
    obtain rfl := Option.some.inj bytes
    refine ⟨rfl, ?_, after.symm⟩
    exact readNU16_writeNU16 _ (slice req 8 4)

/-- After an answer with result code 0 the client has a mapping at the answered port. -/
theorem answered_mapping (version : byteAt req 0 = 0)
    (opcode : byteAt req 1 = 1 ∨ byteAt req 1 = 2) (lifetime : readNU32 req 8 ≠ 0)
    (answer : processIncomingNATPMPPacket env uplink req client d = (some response, d'))
    (success : byteAt response 3 = 0) :
    ∃ s, StopsAt (passes env client (readNU16 req 4) (requestProto req))
        (move env client (readNU16 req 4) (requestProto req)) (d, startPort req) s ∧
      ∀ expiry, HasMapping d'.nf (requestProto req) (readNU16 response 10) client (readNU16 req 4)
          expiry ↔ settledExpiry env (requestProto req) (readNU32 req 8) s = expiry := by
  obtain ⟨code, port, rfl⟩ := answered_search version opcode answer
  rw [success] at code
  have byte : isByte (requestProto req) := by
    unfold requestProto
    split
    · decide
    · decide
  have searched : mappingRequest env req client d =
      if readNU16 req 4 = 0 then ({ code := 2, eport := readNU16 req 6 }, d)
      else searchPort env client (readNU16 req 4) (requestProto req) (readNU32 req 8) searchFuel 0
        (startPort req) false d := by
    simp only [mappingRequest, if_neg lifetime, requestProto, startPort]
  rw [searched] at code port ⊢
  by_cases inner : readNU16 req 4 = 0
  · simp [inner] at code
  · rw [if_neg inner] at code port ⊢
    have nonzero : startPort req ≠ 0 := by
      unfold startPort
      split
      · exact inner
      · assumption
    obtain ⟨s, run, same⟩ := searchPort_settles 65535 0 (startPort req) false d nonzero
      (by simp) (nextPort_cycle nonzero) code.symm
    have found : searchPort env client (readNU16 req 4) (requestProto req) (readNU32 req 8)
        searchFuel 0 (startPort req) false d =
        settle env client (readNU16 req 4) (requestProto req) (readNU32 req 8) s := same
    rw [found] at code port ⊢
    obtain ⟨answered, mapped⟩ := settle_mapping byte (stopsAt_stops run) code.symm
    refine ⟨s, run, ?_⟩
    rw [port, answered]
    exact mapped

/-- An answer with result code 0 to a request with a lifetime is true exactly if the port
    where the search stops is honest. -/
theorem answered_mapping_iff (version : byteAt req 0 = 0)
    (opcode : byteAt req 1 = 1 ∨ byteAt req 1 = 2) (lifetime : readNU32 req 8 ≠ 0)
    (answer : processIncomingNATPMPPacket env uplink req client d = (some response, d'))
    (success : byteAt response 3 = 0) :
    HasMapping d'.nf (requestProto req) (readNU16 response 10) client (readNU16 req 4)
        (env.clock.upnpTime + readNU32 req 8) ↔
      ∀ s, StopsAt (passes env client (readNU16 req 4) (requestProto req))
          (move env client (readNU16 req 4) (requestProto req)) (d, startPort req) s →
        Honest env (requestProto req) (readNU32 req 8) s := by
  obtain ⟨s, run, mapped⟩ := answered_mapping version opcode lifetime answer success
  rw [mapped, settledExpiry_iff, stopsAt_forall_iff run]

end packet

/-- A request for the TCP port 8080, to port 80 of the client, for an hour. -/
def hourRequest : List UInt8 :=
  [0, 2, 0, 0] ++ writeNU16 80 ++ writeNU16 8080 ++ writeNU32 3600

def hourClient : InAddr := ofBytes 192 168 0 2

def hourUplink : Uplink :=
  { useExtIpAddr := none, extIfName := none, getifaddr := none, startupTime := 0
    epochOrigin := 0 }

/-- The daemon after the first such request, at time 1000. -/
def hourMapped : Daemon :=
  (processIncomingNATPMPPacket (Env.plain 1000) hourUplink hourRequest hourClient
    (Daemon.start none)).2

/-- Its renewal, with the libiptc outcomes to come. -/
def renewal (results : List Bool) : Option (List UInt8) × Daemon :=
  processIncomingNATPMPPacket (Env.plain 2000) hourUplink hourRequest hourClient
    (hourMapped.withNf (hourMapped.nf.withResults results))

theorem answered_mapping_renewed :
    HasMapping (renewal []).2.nf IPPROTO_TCP 8080 hourClient 80 5600 ↔
      ∀ s, StopsAt (passes (Env.plain 2000) hourClient 80 IPPROTO_TCP)
          (move (Env.plain 2000) hourClient 80 IPPROTO_TCP)
          (hourMapped.withNf (hourMapped.nf.withResults []), 8080) s →
        Honest (Env.plain 2000) IPPROTO_TCP 3600 s :=
  have answer : processIncomingNATPMPPacket (Env.plain 2000) hourUplink hourRequest hourClient
      (hourMapped.withNf (hourMapped.nf.withResults [])) =
      (some [0, 130, 0, 0, 0, 0, 7, 208, 0, 80, 31, 144, 0, 0, 14, 16], (renewal []).2) :=
    Prod.ext (by decide) rfl
  answered_mapping_iff (by decide) (by decide) (by decide) answer (by decide)

/-- The second lookup call goes through, the opening for the removal does not. -/
theorem failed_replacement_answered :
    ∃ response, (renewal [true, true, false]).1 = some response ∧ byteAt response 3 = 0 ∧
      ¬ HasMapping (renewal [true, true, false]).2.nf IPPROTO_TCP (readNU16 response 10) hourClient
        80 (2000 + 3600) := by
  refine ⟨[0, 130, 0, 0, 0, 0, 7, 208, 0, 80, 31, 144, 0, 0, 14, 16], ?_, ?_, ?_⟩
  · decide
  · decide
  · decide

end NatPmpMappings
