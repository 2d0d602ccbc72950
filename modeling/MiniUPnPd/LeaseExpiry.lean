import MiniUPnPd.NatPmpMappings
import MiniUPnPd.PcpMappings
import MiniUPnPd.UpnpSoap

/-!
The expiry of what the three protocols grant. Each of them adds the lease to the current
time in 32 bits. UPnP takes the lease from the request as it is, a negative one as a large
one; NAT-PMP takes any 32-bit lifetime; PCP alone bounds it.
-/
namespace LeaseExpiry
open CText FirstStop Inet Iptcrdr Iptpinhole LeaseFile Mappings NatPmp NatPmpMappings NetBytes
  PcpMappings PcpPinholes PcpRequests PcpServer UpnpPermissions UpnpRedirect
  UpnpRedirectSpec UpnpSoap

inductive Request where
  | addPortMapping (env : SoapEnv) (h : Upnphttp)
  | addAnyPortMapping (env : SoapEnv) (h : Upnphttp)
  | natPmp (env : Env) (uplink : Uplink) (req : List UInt8) (senderaddr : InAddr)
  | pcp (env : PinholeEnv) (req : List UInt8) (senderIp : In6Addr)

def Request.now : Request → Nat
  | .addPortMapping env _ => env.clock.upnpTime
  | .addAnyPortMapping env _ => env.clock.upnpTime
  | .natPmp env _ _ _ => env.clock.upnpTime
  | .pcp env _ _ => env.clock.upnpTime

/-- What the answer to a request says was made or renewed, and for how long. -/
inductive Grant where
  | mapping (eport : UInt16) (proto : Int) (lease : Nat)
  | pinhole (client : In6Addr) (port : UInt16) (proto : UInt8) (lease : Nat)
  deriving DecidableEq

def Grant.lease : Grant → Nat
  | .mapping _ _ lease => lease
  | .pinhole _ _ _ lease => lease

def recordedExpiry (s : Server) : Grant → Option Nat
  | .mapping eport proto _ => some (getRedirectDesc eport proto s.daemon.nf).2
  | .pinhole client port proto _ =>
      (s.firewall.pinholeList.find? (pinholeMatches 0 0 client port proto)).map (·.timestamp)

def addPortMappingGrant (env : SoapEnv) (h : Upnphttp) (reply : SoapReply) : Option Grant :=
  match reply, portArguments env h with
  | .done, .ok args => some (.mapping args.eport (protoAtoi args.protocol) args.leaseduration)
  | _, _ => none

def addAnyPortMappingGrant (h : Upnphttp) (reply : SoapReply) : Option Grant :=
  match reply, anyPortArguments h with
  | .reservedPort eport, .ok (_, args) =>
      some (.mapping eport (protoAtoi args.protocol) args.leaseduration)
  | _, _ => none

def natPmpGrant (req response : List UInt8) : Option Grant :=
  if byteAt req 0 = 0 ∧ (byteAt req 1 = 1 ∨ byteAt req 1 = 2) ∧ byteAt response 3 = 0 then
    some (.mapping (readNU16 response 10) (requestProto req) (readNU32 req 8))
  else none

def pcpGrant (env : PinholeEnv) (req response : List UInt8) (senderIp : In6Addr) : Option Grant :=
  if byteAt req 1 = PCP_OPCODE_MAP ∧ byteAt response 3 = PCP_SUCCESS then
    (acceptedMap env.toPcpEnv req senderIp).map fun info =>
      if info.isFw then
        .pinhole info.mappedIp info.intPort info.protocol (readNU32 response 4)
      else
        .mapping (readNU16 response (PCP_COMMON_RESPONSE_SIZE + portsOffset info.version + 2))
          info.protocol.toNat (readNU32 response 4)
  else none

/-- What a request is granted, with the state after it. -/
def handle : Request → Server → Option (Option Grant × Server)
  | .addPortMapping env h, s =>
      let (reply, daemon) := addPortMapping env h s.daemon
      some (addPortMappingGrant env h reply, { s with daemon })
  | .addAnyPortMapping env h, s =>
      let (reply, daemon) := addAnyPortMapping env h s.daemon
      some (addAnyPortMappingGrant h reply, { s with daemon })
  | .natPmp env uplink req senderaddr, s =>
      let (answer, daemon) := processIncomingNATPMPPacket env uplink req senderaddr s.daemon
      some (answer.bind (natPmpGrant req), { s with daemon })
  | .pcp env req senderIp, s =>
      (processPacket env req senderIp s).map fun (answer, s) =>
        (answer.bind fun response => pcpGrant env req response senderIp, s)

/-- A NAT-PMP request may also be granted what is left as it was. -/
def Fits : Request → Server → Grant → Prop
  | .natPmp env _ req senderaddr, s, _ =>
      ∀ stop, StopsAt (passes env senderaddr (readNU16 req 4) (requestProto req))
          (move env senderaddr (readNU16 req 4) (requestProto req)) (s.daemon, startPort req) stop →
        Honest env (requestProto req) (readNU32 req 8) stop
  | request, _, grant => request.now + grant.lease < 2 ^ 32

/-- The text of an IPv6 address is read back as the address. -/
def Readable : Request → Prop
  | .pcp env _ _ => ∀ a, env.inetPton6 (env.inetNtop6 a) = some a
  | _ => True

section soap
variable {env : SoapEnv} {h : Upnphttp} {d : Daemon} {grant : Grant}

theorem expiryTime_iff {env : Env} {lease : Nat} (positive : 0 < lease) :
    expiryTime env lease = env.clock.upnpTime + lease ↔ env.clock.upnpTime + lease < 2 ^ 32 := by
  unfold expiryTime
  rw [if_pos positive]
  omega

theorem addPortMappingReply_done {r : Int} (done : addPortMappingReply env r = .done) : r = 0 := by
  unfold addPortMappingReply at done
  by_contra other
  simp only [if_neg other] at done
  repeat' split at done
  all_goals simp at done

theorem addAnyPortMappingReply_reserved {r : Int} {eport port : UInt16}
    (done : addAnyPortMappingReply r eport = .reservedPort port) : r = 0 ∧ eport = port := by
  unfold addAnyPortMappingReply at done
  split at done
  · simp at done
  · split at done
    · exact ⟨by assumption, by simpa using done⟩
    · split at done
      · simp at done
      · split at done <;> simp at done

theorem redirectRequest_recorded {eport iport : UInt16} {intIp protocol : CString} {lease : Nat}
    (done : (redirectRequest env h eport intIp iport protocol lease d).1 = 0) :
    getRedirectDesc eport (protoAtoi protocol)
        (redirectRequest env h eport intIp iport protocol lease d).2.nf =
      ((getValueFromNameValueList h "NewPortMappingDescription").getD [],
        expiryTime env.toEnv lease) :=
  upnpRedirect_recorded env.toEnv _ eport intIp iport protocol _ lease d done

def IsError (reply : SoapReply) : Prop := ∃ code description, reply = .soapError code description

theorem resolveClient_error {intIp : CString} {reply : SoapReply}
    (failed : resolveClient env intIp = .error reply) : IsError reply := by
  unfold resolveClient at failed
  split at failed
  · simp at failed
  · split at failed
    · simp at failed
    · obtain rfl := Except.error.inj failed
      exact ⟨_, _, rfl⟩

theorem internalClient_error {reply : SoapReply} (failed : internalClient env h = .error reply) :
    IsError reply := by
  unfold internalClient at failed
  dsimp only at failed
  split at failed
  · obtain rfl := Except.error.inj failed
    exact ⟨_, _, rfl⟩
  · split at failed
    · obtain rfl := Except.error.inj failed
      exact ⟨_, _, rfl⟩
    · split at failed
      · simp at failed
      · exact resolveClient_error failed

/-- A mapping that AddPortMapping reports has its description and expiry recorded under its
    port. -/
theorem addPortMapping_recorded {args : PortArguments}
    (arguments : portArguments env h = .ok args) (done : (addPortMapping env h d).1 = .done) :
    getRedirectDesc args.eport (protoAtoi args.protocol) (addPortMapping env h d).2.nf =
      ((getValueFromNameValueList h "NewPortMappingDescription").getD [],
        expiryTime env.toEnv args.leaseduration) := by
  unfold addPortMapping at done ⊢
  rcases client : internalClient env h with reply | ⟨intIp, address⟩
  · obtain ⟨code, description, rfl⟩ := internalClient_error client
    simp [client] at done
  · simp only [client, arguments] at done ⊢
    split at done
    · simp at done
    · rename_i allowed
      rw [if_neg allowed]
      exact redirectRequest_recorded (addPortMappingReply_done done)

section any
variable {redirect : UInt16 → Daemon → Int × Daemon}

/-- The search ends with the call that succeeds. -/
theorem searchAround_last {allowed : PortBitmap} (fuel : Nat) (t : Tried) (d : Daemon)
    (done : (searchAround allowed redirect fuel t d).1.1 = 0) :
    ∃ before, redirect (searchAround allowed redirect fuel t d).1.2 before =
      (0, (searchAround allowed redirect fuel t d).2) := by
  induction fuel generalizing t d with
  | zero => simp [searchAround] at done
  | succ fuel ih =>
    unfold searchAround at done ⊢
    dsimp only at done ⊢
    split at done
    · simp at done
    · rename_i next _
      split at done
      · rename_i permitted
        rw [if_pos permitted]
        split at done
        · rename_i ended
          rw [if_pos ended]
          exact ⟨d, Prod.ext done rfl⟩
        · rename_i taken
          rw [if_neg taken]
          exact ih next _ done
      · rename_i forbidden
        rw [if_neg forbidden]
        exact ih next d done

theorem redirectAny_last {intIp : CString} {iport eport : UInt16}
    (done : (redirectAny env intIp iport eport redirect d).1.1 = 0) :
    ∃ before, redirect (redirectAny env intIp iport eport redirect d).1.2 before =
      (0, (redirectAny env intIp iport eport redirect d).2) := by
  unfold redirectAny at done ⊢
  dsimp only at done ⊢
  split at done
  · rename_i taken
    rw [if_pos taken]
    exact searchAround_last aroundFuel _ _ done
  · rename_i ended
    rw [if_neg ended]
    exact ⟨d, Prod.ext done rfl⟩

end any

/-- A port that AddAnyPortMapping reports has a mapping recorded. -/
theorem addAnyPortMapping_recorded {given : CString} {args : PortArguments} {eport : UInt16}
    (arguments : anyPortArguments h = .ok (given, args))
    (done : (addAnyPortMapping env h d).1 = .reservedPort eport) :
    (getRedirectDesc eport (protoAtoi args.protocol) (addAnyPortMapping env h d).2.nf).2 =
      expiryTime env.toEnv args.leaseduration := by
  unfold addAnyPortMapping at done ⊢
  simp only [arguments] at done ⊢
  split at done
  · simp [onlyWildcard] at done
  · rename_i single
    rw [if_neg single]
    rcases client : resolveClient env given with reply | ⟨intIp, address⟩
    · obtain ⟨code, description, rfl⟩ := resolveClient_error client
      simp [client] at done
    · simp only [client] at done ⊢
      split at done
      · simp at done
      · rename_i allowed
        rw [if_neg allowed]
        obtain ⟨zero, rfl⟩ := addAnyPortMappingReply_reserved done
        obtain ⟨before, last⟩ := redirectAny_last zero
        have recorded := redirectRequest_recorded (congrArg Prod.fst last)
        rw [last] at recorded
        exact congrArg Prod.snd recorded

end soap

section pcp
variable {env : PinholeEnv} {req response : List UInt8} {senderIp : In6Addr} {s s' : Server}
  {info : PcpInfo}

/-- The pinhole for an accepted request, after an answer that says it is open. -/
theorem createPCPMapFW_recorded {fw fw' : Firewall}
    (address : env.inetPton6 info.mappedStr = some info.mappedIp)
    (success : (createPCPMapFW (withFirewall env fw) info).code = PCP_SUCCESS)
    (after : firewallCreated env info fw = some fw') :
    (fw'.pinholeList.find? (pinholeMatches 0 0 info.mappedIp info.intPort info.protocol)).map
      (·.timestamp) = some (pinholeExpiry env info.lifetime) := by
  have created := (createPCPMapFW_created address success after).2
  unfold PinholeCreated at created
  cases found : renewed env info fw with
  | some p =>
    simp only [found] at created
    have blind : (pinholeMatches 0 0 info.mappedIp info.intPort info.protocol) ∘
        withTimestamp p.uid (pinholeExpiry env info.lifetime) =
        pinholeMatches 0 0 info.mappedIp info.intPort info.protocol := by
      funext q
      simp only [Function.comp_apply, withTimestamp]
      split <;> rfl
    unfold renewed at found
    rw [address, Option.getD_some] at found
    rw [created, List.find?_map, blind, found]
    simp [withTimestamp]
  | none =>
    simp only [found] at created
    obtain ⟨uid, head⟩ := created
    rw [head, List.find?_cons_of_pos (by simp [pinholeMatches])]
    rfl

end pcp

/-- What a request was granted for a lease is recorded with the current time plus the lease,
    exactly if `Fits`. -/
theorem recorded_expiry_iff {request : Request} {s s' : Server} {grant : Grant}
    (readable : Readable request) (granted : handle request s = some (some grant, s'))
    (positive : 0 < grant.lease) :
    recordedExpiry s' grant = some (request.now + grant.lease) ↔ Fits request s grant := by
  cases request with
  | addPortMapping env h =>
    unfold handle at granted
    rcases handled : addPortMapping env h s.daemon with ⟨reply, daemon⟩
    simp only [handled, Option.some.injEq, Prod.mk.injEq] at granted
    obtain ⟨offer, rfl⟩ := granted
    unfold addPortMappingGrant at offer
    split at offer
    · rename_i args arguments
      obtain rfl := Option.some.inj offer
      have recorded := addPortMapping_recorded (d := s.daemon) arguments (by rw [handled])
      rw [handled] at recorded
      rw [recordedExpiry, recorded, Option.some.injEq]
      exact expiryTime_iff positive
    · simp at offer
  | addAnyPortMapping env h =>
    unfold handle at granted
    rcases handled : addAnyPortMapping env h s.daemon with ⟨reply, daemon⟩
    simp only [handled, Option.some.injEq, Prod.mk.injEq] at granted
    obtain ⟨offer, rfl⟩ := granted
    unfold addAnyPortMappingGrant at offer
    split at offer
    · rename_i arguments
      obtain rfl := Option.some.inj offer
      have recorded := addAnyPortMapping_recorded (d := s.daemon) arguments (by rw [handled])
      rw [handled] at recorded
      rw [recordedExpiry, recorded, Option.some.injEq]
      exact expiryTime_iff positive
    · simp at offer
  | natPmp env uplink req senderaddr =>
    unfold handle at granted
    rcases handled : processIncomingNATPMPPacket env uplink req senderaddr s.daemon with
      ⟨answer, daemon⟩
    simp only [handled, Option.some.injEq, Prod.mk.injEq] at granted
    obtain ⟨offer, rfl⟩ := granted
    obtain ⟨response, rfl, offered⟩ := Option.bind_eq_some_iff.mp offer
    unfold natPmpGrant at offered
    split at offered
    · rename_i kind
      obtain ⟨version, opcode, success⟩ := kind
      obtain rfl := Option.some.inj offered
      obtain ⟨stop, run, mapped⟩ := answered_mapping version opcode (Nat.ne_of_gt positive) handled
        success
      have known := ((hasMapping_iff _).mp ((mapped _).mpr rfl)).2
      rw [recordedExpiry, known, Option.some.injEq]
      exact (settledExpiry_iff stop).trans (stopsAt_forall_iff run).symm
    · simp at offered
  | pcp env req senderIp =>
    obtain ⟨⟨answer, after⟩, handled, same⟩ := Option.map_eq_some_iff.mp granted
    obtain ⟨offer, rfl⟩ := Prod.mk.inj same
    obtain ⟨response, rfl, offered⟩ := Option.bind_eq_some_iff.mp offer
    unfold pcpGrant at offered
    split at offered
    · rename_i kind
      obtain ⟨info, accepted, rfl⟩ := Option.map_eq_some_iff.mp offered
      have lasting : readNU32 response 4 ≠ 0 := by
        intro zero
        simp only [zero] at positive
        split at positive <;> simp [Grant.lease] at positive
      obtain ⟨info', accepted', lifetime, done, port, daemon, firewall⟩ :=
        answered_created kind.1 handled kind.2 lasting
      obtain rfl := Option.some.inj (accepted.symm.trans accepted')
      rw [lifetime] at lasting
      cases fw : info.isFw with
      | true =>
        simp only [createPCPMap, fw, ↓reduceIte] at done ⊢
        unfold firewallAfter at firewall
        simp only [accepted, fw, ↓reduceIte, if_neg lasting] at firewall
        have address := mappedStr_v6 (accepted_fields accepted) readable fw
        rw [recordedExpiry, createPCPMapFW_recorded address done firewall, Option.some.injEq,
          Grant.lease, lifetime]
        exact pinholeExpiry_eq_iff
      | false =>
        have mapped := (created_mapping accepted fw done _).mpr rfl
        rw [← port, ← daemon] at mapped
        have known := ((hasMapping_iff _).mp mapped).2
        simp only [Bool.false_eq_true, ↓reduceIte]
        rw [recordedExpiry, known, Option.some.injEq]
        simp only [Fits, Request.now, Grant.lease, lifetime]
        omega
    · simp at offered

/-- A mapping of TCP port 8080 to the client itself, at time 1000. -/
def leaseRequest (duration : String) : Request :=
  .addPortMapping
    { Env.plain 1000 with
      upnpStrict := false
      supportRemotehost := false
      igdV2 := false
      secureMode := true
      gethostbyname := fun _ => none
      random := 0 }
    { clientaddr := ofBytes 192 168 0 2
      clientport := 40000
      args :=
        [("NewInternalClient".toList, "192.168.0.2".toList),
         ("NewInternalPort".toList, "80".toList), ("NewExternalPort".toList, "8080".toList),
         ("NewProtocol".toList, "TCP".toList),
         ("NewLeaseDuration".toList, duration.toList)] }

theorem grant_of_first {handled : Option (Option Grant × Server)} {grant : Grant}
    (first : handled.map (·.1) = some (some grant)) : ∃ s', handled = some (some grant, s') := by
  obtain ⟨⟨offer, s'⟩, here, same⟩ := Option.map_eq_some_iff.mp first
  obtain rfl : offer = some grant := same
  exact ⟨s', here⟩

theorem recorded_expiry_hour :
    ∃ s', handle (leaseRequest "3600") Server.start = some (some (.mapping 8080 6 3600), s') ∧
      (recordedExpiry s' (.mapping 8080 6 3600) = some (1000 + 3600) ↔
        Fits (leaseRequest "3600") Server.start (.mapping 8080 6 3600)) := by
  obtain ⟨s', granted⟩ : ∃ s', handle (leaseRequest "3600") Server.start =
      some (some (.mapping 8080 6 3600), s') := grant_of_first (by decide +kernel)
  have readable : Readable (leaseRequest "3600") := trivial
  exact ⟨s', granted, recorded_expiry_iff readable granted (by decide)⟩

/-- A lease of -1 is one of 4294967295 seconds, and expires in the past. -/
theorem negative_lease_expired :
    ∃ s', handle (leaseRequest "-1") Server.start = some (some (.mapping 8080 6 4294967295), s') ∧
      recordedExpiry s' (.mapping 8080 6 4294967295) = some 999 ∧
      recordedExpiry s' (.mapping 8080 6 4294967295) ≠ some (1000 + 4294967295) := by
  obtain ⟨s', granted⟩ : ∃ s', handle (leaseRequest "-1") Server.start =
      some (some (.mapping 8080 6 4294967295), s') := grant_of_first (by decide +kernel)
  have recorded : (handle (leaseRequest "-1") Server.start).map
      (fun handled => recordedExpiry handled.2 (.mapping 8080 6 4294967295)) = some (some 999) := by
    decide +kernel
  rw [granted] at recorded
  have expiry := Option.some.inj recorded
  exact ⟨s', granted, expiry, by simp [expiry]⟩

end LeaseExpiry
