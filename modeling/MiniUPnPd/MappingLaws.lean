import MiniUPnPd.DaemonRules
import MiniUPnPd.UpnpRedirectSpec

/-!
Which mappings the daemon adds. A lawful mapping is for TCP, UDP or UDPLITE and has no
port 0, which the backend would take for all ports. Each entry point checks its own
input: NAT-PMP and AddAnyPortMapping check all of it, AddPortMapping does not check the
internal port, PCP neither that nor the protocol, and the lease file neither port.
-/
namespace MappingLaws
open CText DaemonRules Inet Iptc Iptcrdr IptcrdrSpec LeaseFile NatPmp NetBytes PcpServer
open UpnpPermissions UpnpRedirect UpnpRedirectSpec UpnpSoap

def LawfulProto (proto : Int) : Prop :=
  proto = IPPROTO_TCP ∨ proto = IPPROTO_UDP ∨ proto = IPPROTO_UDPLITE

instance (proto : Int) : Decidable (LawfulProto proto) :=
  inferInstanceAs (Decidable (_ ∨ _ ∨ _))

/-- A call that added no rule is lawful. -/
def Lawful : Call → Prop
  | .upnpRedirectInternal _ eport _ iport proto _ _ added =>
      added = true → LawfulProto proto ∧ eport ≠ 0 ∧ iport ≠ 0
  | _ => True

instance : DecidablePred Lawful := fun call =>
  match call with
  | .upnpRedirectInternal .. => inferInstanceAs (Decidable (_ → _))
  | .upnpRedirect .. => inferInstanceAs (Decidable True)
  | .upnpEventVarChangeNotify => inferInstanceAs (Decidable True)

def LawfulCalls (d : Daemon) : Prop := ∀ call ∈ d.calls, Lawful call

instance (d : Daemon) : Decidable (LawfulCalls d) := inferInstanceAs (Decidable (∀ call ∈ _, _))

section calls
variable {d : Daemon} {env : Env}

theorem reloadMapping_calls (env : Env) (l : Lease) (leaseduration timestamp : Nat) (d : Daemon) :
    (reloadMapping env l leaseduration timestamp d).calls =
      (upnpRedirect env none l.eport l.iaddr l.iport l.proto (some l.desc) leaseduration
        d).2.calls := by
  unfold reloadMapping
  dsimp only
  split
  · rw [fileAdd_calls]
  · rfl

theorem lawful_record {call : Call} (lawful : LawfulCalls d) (new : Lawful call) :
    LawfulCalls (d.record call) := by
  intro other member
  rw [record_calls, List.mem_append, List.mem_singleton] at member
  rcases member with old | same
  · exact lawful other old
  · rw [same]
    exact new

theorem lawful_event (lawful : LawfulCalls d) :
    LawfulCalls (d.record .upnpEventVarChangeNotify) := lawful_record lawful trivial

theorem lawful_congr {d' : Daemon} (same : d'.calls = d.calls) (lawful : LawfulCalls d) :
    LawfulCalls d' := by
  unfold LawfulCalls
  rw [same]
  exact lawful

theorem steady_lawful (env : Env) : Steady env LawfulCalls where
  opened _ lawful := lawful
  deleted eport proto d lawful := by
    unfold upnpDeleteRedir
    apply lawful_event
    apply lawful_congr (fileRemove_calls env eport proto _)
    exact lawful
  cleaned _ _ lawful := lawful
  filed _ _ lawful := lawful

theorem lawful_internal (env : Env) (rhost : Option CString) {eport iport : UInt16} {proto : Int}
    (iaddr desc : CString) (timestamp : Nat) (good : LawfulProto proto ∧ eport ≠ 0 ∧ iport ≠ 0)
    (lawful : LawfulCalls d) :
    LawfulCalls (upnpRedirectInternal env rhost eport iaddr iport proto desc timestamp d).2 := by
  intro call member
  rw [upnpRedirectInternal_calls, List.mem_append, List.mem_cons] at member
  rcases member with old | rfl | event
  · exact lawful call old
  · exact fun _ => good
  · split at event
    · rw [List.mem_singleton.mp event]
      trivial
    · exact absurd event List.not_mem_nil

theorem adds_lawful (env : Env) (iaddr : CString) {iport : UInt16} {proto : Int}
    (good : LawfulProto proto) (nonzero : iport ≠ 0) : Adds env LawfulCalls iaddr iport proto where
  free _ desc timestamp _ port lawful _ :=
    lawful_internal env none iaddr desc timestamp ⟨good, port, nonzero⟩ lawful
  again eport desc timestamp _ _ port lawful _ :=
    lawful_internal env none iaddr desc timestamp ⟨good, port, nonzero⟩
      ((steady_lawful env).deleted eport proto _ lawful)

theorem protoAtoi_lawful (protocol : CString) : LawfulProto (protoAtoi protocol) := by
  unfold protoAtoi
  split
  · decide
  · split <;> decide

theorem lawful_redirect (env : Env) (rhost : Option CString) {eport iport : UInt16}
    {iaddr : CString} (protocol : CString) (desc : Option CString) (leaseduration : Nat)
    (ports : (inetAton iaddr).isSome → eport ≠ 0 ∧ iport ≠ 0) (lawful : LawfulCalls d) :
    LawfulCalls (upnpRedirect env rhost eport iaddr iport protocol desc leaseduration d).2 := by
  have asked : LawfulCalls
      (d.record (.upnpRedirect rhost eport iaddr iport protocol desc leaseduration)) :=
    lawful_record lawful trivial
  unfold upnpRedirect
  cases parsed : inetAton iaddr with
  | none => exact asked
  | some address =>
    rw [parsed] at ports
    have nonzero := ports rfl
    dsimp only
    split
    · generalize looked : (d.record (.upnpRedirect rhost eport iaddr iport protocol desc
        leaseduration)).lookup eport (protoAtoi protocol) = found
      have same : LawfulCalls found.2 := by
        rw [← looked]
        exact asked
      rcases found with ⟨_ | old, after⟩
      · dsimp only
        split
        · exact same
        · exact lawful_internal env rhost iaddr _ _ ⟨protoAtoi_lawful protocol, nonzero⟩ same
      · dsimp only
        unfold renew
        dsimp only
        split
        · split
          · apply lawful_congr (fileAdd_calls _ _ _ _ _ _ _ _)
            exact lawful_congr (fileRemove_calls _ _ _ _) same
          · exact same
        · exact same
    · exact asked

end calls

structure World where
  soap : SoapEnv
  pcp : PcpEnv

/-- What the daemon receives from clients, or reads from the lease file. -/
inductive Request where
  | addPortMapping (h : Upnphttp)
  | addAnyPortMapping (h : Upnphttp)
  | deletePortMapping (h : Upnphttp)
  | deletePortMappingRange (h : Upnphttp)
  | natPmp (req : List UInt8) (senderaddr : InAddr)
  | pcp (req : List UInt8) (senderIp : In6Addr)
  | leaseLine (line : CString)

def process (w : World) (d : Daemon) : Request → Daemon
  | .addPortMapping h => (UpnpSoap.addPortMapping w.soap h d).2
  | .addAnyPortMapping h => (UpnpSoap.addAnyPortMapping w.soap h d).2
  | .deletePortMapping h => (UpnpSoap.deletePortMapping w.soap h d).2
  | .deletePortMappingRange h => (UpnpSoap.deletePortMappingRange w.soap h d).2
  | .natPmp req senderaddr =>
      (processIncomingNATPMPPacket w.pcp.toEnv w.pcp.uplink req senderaddr d).2
  | .pcp req senderIp => (processIncomingPCPPacket w.pcp req senderIp d).2
  | .leaseLine line => reloadLine w.pcp.toEnv line d

/-- The packet is a request for a new IPv4 mapping, which some configuration accepts. -/
def CreatesMapping (req : List UInt8) (senderIp : In6Addr) (info : PcpInfo) : Prop :=
  byteAt req 1 < 128 ∧ info.lifetime ≠ 0 ∧ (info.extPort = 0 → info.intPort ≠ 0) ∧
    ∃ env checked, parsePCPRequest env req (PcpInfo.received senderIp) = .map info ∧
      validatePCPMsg env info = (true, checked) ∧ checked.isFw = false

/-- The internal client of AddPortMapping after trimming. -/
def clientGiven (h : Upnphttp) : Bool :=
  ((getValueFromNameValueList h "NewInternalClient").getD []).dropWhile (· = ' ') ≠ []

def Meets : Request → Prop
  | .addPortMapping h =>
      ∀ intPort extPort protocol, getValueFromNameValueList h "NewInternalPort" = some intPort →
        getValueFromNameValueList h "NewExternalPort" = some extPort →
        getValueFromNameValueList h "NewProtocol" = some protocol →
        clientGiven h = true → atous extPort ≠ 0 → atous intPort ≠ 0
  | .pcp req senderIp =>
      ∀ info, CreatesMapping req senderIp info →
        LawfulProto info.protocol.toNat ∧ info.intPort ≠ 0
  | .leaseLine line =>
      ∀ l, parseLeaseLine line = some l → (inetAton l.iaddr).isSome →
        l.eport ≠ 0 ∧ l.iport ≠ 0
  | _ => True

section sufficient
variable {d : Daemon}

theorem clientaddrStr_refused (h : Upnphttp) : inetAton (clientaddrStr h) = none :=
  inetAton_port h.clientaddr _

/-- An internal client that has an address was given in the request. -/
theorem internalClient_given {env : SoapEnv} {h : Upnphttp} {intIp : CString} {address : InAddr}
    (resolved : internalClient env h = .ok (intIp, address)) (readable : (inetAton intIp).isSome) :
    clientGiven h = true := by
  by_contra blank
  simp only [clientGiven, Bool.not_eq_true, decide_eq_false_iff_not, not_not] at blank
  unfold internalClient at resolved
  dsimp only at resolved
  simp only [blank] at resolved
  split at resolved
  · simp at resolved
  · split at resolved
    · simp at resolved
    · simp only [↓reduceIte, Except.ok.injEq, Prod.mk.injEq] at resolved
      rw [← resolved.1, clientaddrStr_refused] at readable
      simp at readable

theorem portArguments_fields {env : SoapEnv} {h : Upnphttp} {args : PortArguments}
    (read : portArguments env h = .ok args) :
    ∃ intPort extPort protocol, getValueFromNameValueList h "NewInternalPort" = some intPort ∧
      getValueFromNameValueList h "NewExternalPort" = some extPort ∧
      getValueFromNameValueList h "NewProtocol" = some protocol ∧
      args.iport = atous intPort ∧ args.eport = atous extPort ∧ args.eport ≠ 0 := by
  unfold portArguments at read
  split at read
  · rename_i intPort extPort protocol left middle right
    dsimp only at read
    split at read
    · simp at read
    · rename_i nonzero
      obtain rfl := Except.ok.inj read
      exact ⟨intPort, extPort, protocol, left, middle, right, rfl, rfl,
        fun zero => nonzero (Or.inr zero)⟩
  · simp at read

theorem lawful_addPortMapping (env : SoapEnv) {h : Upnphttp} (meets : Meets (.addPortMapping h))
    (lawful : LawfulCalls d) : LawfulCalls (addPortMapping env h d).2 := by
  apply addPortMapping_keeps env h ?_ lawful
  intro intIp address args resolved _ read
  obtain ⟨intPort, extPort, protocol, left, middle, right, iport, eport, nonzero⟩ :=
    portArguments_fields read
  apply lawful_redirect env.toEnv _ _ _ _ ?_ lawful
  intro readable
  refine ⟨nonzero, ?_⟩
  rw [iport]
  rw [eport] at nonzero
  exact meets intPort extPort protocol left middle right (internalClient_given resolved readable)
    nonzero

theorem anyPortArguments_iport {h : Upnphttp} {intIp : CString} {args : PortArguments}
    (read : anyPortArguments h = .ok (intIp, args)) : args.iport ≠ 0 := by
  unfold anyPortArguments at read
  split at read
  · dsimp only at read
    split at read
    · simp at read
    · rename_i nonzero
      simp only [Except.ok.injEq, Prod.mk.injEq] at read
      rw [← read.2]
      exact fun zero => nonzero (Or.inl zero)
  · simp at read

theorem lawful_addAnyPortMapping (env : SoapEnv) (h : Upnphttp) (lawful : LawfulCalls d) :
    LawfulCalls (addAnyPortMapping env h d).2 := by
  apply addAnyPortMapping_keeps env h ?_ lawful
  intro given intIp address args read _ _ eport d nonzero lawful
  exact lawful_redirect env.toEnv _ _ _ _ (fun _ => ⟨nonzero, anyPortArguments_iport read⟩) lawful

theorem lawful_process (w : World) {request : Request} (meets : Meets request)
    (lawful : LawfulCalls d) : LawfulCalls (process w d request) := by
  cases request with
  | addPortMapping h => exact lawful_addPortMapping w.soap meets lawful
  | addAnyPortMapping h => exact lawful_addAnyPortMapping w.soap h lawful
  | deletePortMapping h => exact deletePortMapping_keeps (steady_lawful w.soap.toEnv) h lawful
  | deletePortMappingRange h =>
    exact deletePortMappingRange_keeps (steady_lawful w.soap.toEnv) h lawful
  | natPmp req senderaddr =>
    apply natPmp_keeps (steady_lawful w.pcp.toEnv) w.pcp.uplink req ?_ lawful
    intro iport proto either
    apply adds_lawful w.pcp.toEnv _ ?_ iport
    rcases either with udp | tcp
    · exact Or.inr (Or.inl udp)
    · exact Or.inl tcp
  | pcp req senderIp =>
    by_cases high : 128 ≤ byteAt req 1
    · simp only [process, processIncomingPCPPacket, high, ↓reduceIte]
      exact lawful
    · apply pcp_keeps (steady_lawful w.pcp.toEnv) req senderIp ?_ lawful
      intro info checked parsed valid nat lasting ports
      have good := meets info
        ⟨UInt8.not_le.mp high, lasting, ports, w.pcp, checked, parsed, valid, nat⟩
      exact adds_lawful w.pcp.toEnv _ good.1 good.2
  | leaseLine line =>
    apply reloadLine_keeps (steady_lawful w.pcp.toEnv) line ?_ lawful
    intro l parsed leaseduration d lawful
    exact lawful_redirect w.pcp.toEnv none l.proto (some l.desc) leaseduration (meets l parsed) lawful

end sufficient

section necessary
variable {d : Daemon}

theorem internal_adds (env : Env) (quiet : d.nf.Quiet) (enabled : env.disablePortForwarding = false)
    (rhost : Option CString) (eport : UInt16) (iaddr : CString) (iport : UInt16) (proto : Int)
    (desc : CString) (timestamp : Nat) :
    Call.upnpRedirectInternal rhost eport iaddr iport proto desc timestamp true ∈
      (upnpRedirectInternal env rhost eport iaddr iport proto desc timestamp d).2.calls := by
  have enters : Enters env d := ⟨enabled, callsSucceed_quiet 4 quiet⟩
  simp [upnpRedirectInternal_calls, enters]

theorem plain_redirect_adds (now : Nat) (rhost : Option CString) (eport : UInt16)
    {iaddr : CString} (iport : UInt16) (protocol : CString) (desc : Option CString)
    (leaseduration : Nat) (readable : (inetAton iaddr).isSome) :
    Call.upnpRedirectInternal rhost eport iaddr iport (protoAtoi protocol) (desc.getD [])
        (expiryTime (Env.plain now) leaseduration) true ∈
      (upnpRedirect (Env.plain now) rhost eport iaddr iport protocol desc leaseduration
        (Daemon.start none)).2.calls := by
  obtain ⟨address, parsed⟩ := Option.isSome_iff_exists.mp readable
  have quiet : ((Daemon.start none).record
      (.upnpRedirect rhost eport iaddr iport protocol desc leaseduration)).nf.Quiet := rfl
  unfold upnpRedirect
  simp only [parsed, lookup_quiet eport quiet]
  exact internal_adds (Env.plain now) quiet rfl rhost eport iaddr iport
    (protoAtoi protocol) (desc.getD []) _

theorem createPCPMap_search (env : PcpEnv) {info : PcpInfo} (nat : info.isFw = false)
    (ports : info.extPort = 0 → info.intPort ≠ 0) (d : Daemon) :
    ∃ extPort, extPort ≠ 0 ∧
      (createPCPMap env info d).2 = (searchExtPort env info searchFuel 0 extPort false d).2 := by
  refine ⟨if info.extPort = 0 then info.intPort else info.extPort, ?_, ?_⟩
  · split
    · exact ports ‹_›
    · assumption
  · have given : (if info.extPort = 0 then info.intPort else info.extPort) ≠ 0 := by
      split
      · exact ports ‹_›
      · assumption
    unfold createPCPMap createPCPMapNAT
    simp only [nat, Bool.false_eq_true, ↓reduceIte, if_neg given]

theorem search_adds {env : PcpEnv} (info : PcpInfo) (fuel : Nat) (extPort : UInt16)
    (plain : env.toEnv = Env.plain 0) :
    ∃ timestamp, Call.upnpRedirectInternal none extPort info.mappedStr info.intPort
        info.protocol.toNat info.desc timestamp true ∈
      (searchExtPort env info (fuel + 1) 0 extPort false (Daemon.start none)).2.calls := by
  have quiet : (Daemon.start none).nf.Quiet := rfl
  have added := internal_adds (Env.plain 0) quiet rfl none extPort info.mappedStr
    info.intPort info.protocol.toNat info.desc ((0 + info.lifetime) % 2 ^ 32)
  refine ⟨(0 + info.lifetime) % 2 ^ 32, ?_⟩
  have permitted : checkUpnpRuleAgainstPermissions (Env.plain 0).upnppermlist extPort
      (v4Of info.mappedIp) info.intPort = true := rfl
  have unused : (Env.plain 0).checkPortinuse = false := rfl
  have missing : ((Daemon.start none).nf.chain .nat).find?
      (redirectMatches info.protocol.toNat extPort) = none := rfl
  rw [searchExtPort]
  simp only [plain, lookup_quiet extPort quiet, permitted, unused, missing, ne_eq, not_true_eq_false,
    false_and, ↓reduceIte, Bool.true_eq_false, and_false, Bool.false_eq_true, Option.map_none]
  exact added

end necessary

def plainSoap : SoapEnv :=
  { Env.plain 0 with
    upnpStrict := false
    supportRemotehost := true
    igdV2 := false
    secureMode := false
    gethostbyname := fun _ => some 0
    random := 0 }

def plainWorld (pcp : PcpEnv) : World :=
  { soap := plainSoap
    pcp := { pcp with toEnv := Env.plain 0, getLanForPeer := fun _ => true } }

section refuted

/-- With an internal client given, the plain world finds its address. -/
theorem plain_client {h : Upnphttp} (given : clientGiven h = true) :
    ∃ intIp address, internalClient plainSoap h = .ok (intIp, address) ∧
      (inetAton intIp).isSome := by
  have text : ((getValueFromNameValueList h "NewInternalClient").getD []).dropWhile (· = ' ') ≠ [] :=
    by simpa [clientGiven] using given
  have strict : plainSoap.upnpStrict = false := rfl
  have remote : remotehostRefused plainSoap (getValueFromNameValueList h "NewRemoteHost") = false :=
    rfl
  unfold internalClient
  simp only [strict, remote, Bool.false_eq_true, false_and, ↓reduceIte, text, resolveClient]
  cases read : inetPton (((getValueFromNameValueList h "NewInternalClient").getD []).dropWhile
      (· = ' ')) with
  | some address =>
    exact ⟨_, address, rfl, by rw [inetAton_of_inetPton read]; rfl⟩
  | none => exact ⟨_, 0, rfl, by rw [inetAton_inetNtoa]; rfl⟩

theorem addPortMapping_zero_iport {h : Upnphttp} {intPort extPort protocol : CString}
    (left : getValueFromNameValueList h "NewInternalPort" = some intPort)
    (middle : getValueFromNameValueList h "NewExternalPort" = some extPort)
    (right : getValueFromNameValueList h "NewProtocol" = some protocol)
    (given : clientGiven h = true) (nonzero : atous extPort ≠ 0)
    (lawful : LawfulCalls (addPortMapping plainSoap h (Daemon.start none)).2) :
    atous intPort ≠ 0 := by
  obtain ⟨intIp, address, client, readable⟩ := plain_client given
  have wildcard : extPort ≠ "*".toList := by
    intro same
    apply nonzero
    rw [same]
    decide
  have refused : ¬ (extPort = "*".toList ∨ atous extPort = 0) := by
    rintro (star | zero)
    · exact wildcard star
    · exact nonzero zero
  have args : portArguments plainSoap h = .ok
      { eport := atous extPort, iport := atous intPort, protocol,
        leaseduration := leaseArgument h } := by
    unfold portArguments
    simp only [left, middle, right]
    rw [if_neg refused]
    rfl
  have open_ : plainSoap.secureMode = false := rfl
  unfold addPortMapping at lawful
  simp only [client, open_, Bool.false_eq_true, false_and, ↓reduceIte, args] at lawful
  have added := plain_redirect_adds 0 (getValueFromNameValueList h "NewRemoteHost")
    (atous extPort) (atous intPort) protocol
    (getValueFromNameValueList h "NewPortMappingDescription") (leaseArgument h) readable
  exact (lawful _ added rfl).2.2

theorem reloadLine_lawful {line : CString} {l : Lease} (parsed : parseLeaseLine line = some l)
    (readable : (inetAton l.iaddr).isSome)
    (lawful : LawfulCalls (reloadLine (Env.plain 0) line (Daemon.start none))) :
    l.eport ≠ 0 ∧ l.iport ≠ 0 := by
  have added : ∀ leaseduration timestamp,
      LawfulCalls (reloadMapping (Env.plain 0) l leaseduration timestamp (Daemon.start none)) →
      l.eport ≠ 0 ∧ l.iport ≠ 0 := by
    intro leaseduration timestamp lawful
    have call := plain_redirect_adds 0 none l.eport l.iport l.proto (some l.desc) leaseduration
      readable
    have same := reloadMapping_calls (Env.plain 0) l leaseduration timestamp (Daemon.start none)
    rw [← same] at call
    exact (lawful _ call rfl).2
  unfold reloadLine at lawful
  simp only [parsed] at lawful
  split at lawful
  · split at lawful
    · exact added _ _ lawful
    · split at lawful
      · rename_i positive _ past
        have clock : (Env.plain 0).clock.unixTime = 0 := rfl
        rw [clock] at past
        omega
      · exact added _ _ lawful
  · exact added _ _ lawful

/-- The plain world handles the packet like the configuration that accepts it. -/
theorem pcp_lawful {req : List UInt8} {senderIp : In6Addr} {info : PcpInfo}
    (creates : CreatesMapping req senderIp info)
    (lawful : ∀ pcp, LawfulCalls
      (processIncomingPCPPacket (plainWorld pcp).pcp req senderIp (Daemon.start none)).2) :
    LawfulProto info.protocol.toNat ∧ info.intPort ≠ 0 := by
  obtain ⟨low, lasting, ports, env, checked, parsed, valid, nat⟩ := creates
  have fields := validatePCPMsg_fields env info
  rw [valid] at fields
  obtain ⟨protocol, intPort, extPort, lifetime⟩ := fields
  generalize world : (plainWorld env).pcp = plain at *
  have plainParsed : parsePCPRequest plain req (PcpInfo.received senderIp) = .map info := by
    rw [← world, ← parsed]
    rfl
  have plainValid : validatePCPMsg plain info = (true, checked) := by
    rw [← world, ← valid]
    rfl
  have plainEnv : plain.toEnv = Env.plain 0 := by rw [← world]; rfl
  have plainLan : plain.getLanForPeer senderIp = true := by rw [← world]; rfl
  have answered := lawful env
  rw [world] at answered
  dsimp only at protocol intPort extPort lifetime
  rw [← lifetime] at lasting
  rw [← extPort, ← intPort] at ports
  unfold processIncomingPCPPacket processPCPRequest processMAP at answered
  simp only [UInt8.not_le.mpr low, plainLan, Bool.true_eq_false, and_false, ↓reduceIte, plainParsed,
    plainValid, if_neg lasting] at answered
  obtain ⟨external, nonzero, made⟩ := createPCPMap_search plain nat ports (Daemon.start none)
  rw [made] at answered
  obtain ⟨timestamp, call⟩ := search_adds checked 65535 external plainEnv
  have good := answered _ call rfl
  rw [protocol, intPort] at good
  exact ⟨good.1, good.2.2⟩

end refuted

def plainPcp : PcpEnv :=
  { Env.plain 0 with
    uplink :=
      { useExtIpAddr := none, extIfName := some "eth0".toList
        getifaddr := some (ofBytes 8 8 8 8), startupTime := 0, epochOrigin := 0 }
    getifaddrIn6 := some (v4Mapped (ofBytes 8 8 8 8))
    inetPton6 := fun _ => none
    inetNtop6 := fun _ => []
    minLifetime := 120
    maxLifetime := 86400
    allowThirdParty := false
    getLanForPeer := fun _ => true
    pinholes := []
    findInboundpinhole := fun _ _ _ => none
    updateInboundpinhole := fun _ _ => -1
    addInboundpinhole := fun _ _ _ _ _ => -1
    deleteInboundpinhole := fun _ => -1 }

/-- A request adds lawful mappings only, in every world and every state, if and only if it
    meets what its entry point leaves unchecked. -/
theorem only_lawful_iff (request : Request) :
    (∀ w (d : Daemon), LawfulCalls (process w d.fresh request)) ↔ Meets request := by
  constructor
  · intro lawful
    cases request with
    | addPortMapping h =>
      intro intPort extPort protocol left middle right given nonzero
      exact addPortMapping_zero_iport left middle right given nonzero
        (lawful (plainWorld plainPcp) (Daemon.start none))
    | pcp req senderIp =>
      intro info creates
      exact pcp_lawful creates fun pcp => lawful (plainWorld pcp) (Daemon.start none)
    | leaseLine line =>
      intro l parsed readable
      exact reloadLine_lawful parsed readable (lawful (plainWorld plainPcp) (Daemon.start none))
    | addAnyPortMapping h => trivial
    | deletePortMapping h => trivial
    | deletePortMappingRange h => trivial
    | natPmp req senderaddr => trivial
  · intro meets w d
    apply lawful_process w meets
    intro call member
    simp [Daemon.fresh] at member

def zeroPortRequest : Upnphttp :=
  { clientaddr := ofBytes 192 168 1 2
    clientport := 40000
    args :=
      [("NewInternalClient".toList, "192.168.1.2".toList), ("NewInternalPort".toList, "0".toList),
       ("NewExternalPort".toList, "1001".toList), ("NewProtocol".toList, "TCP".toList)] }

/-- A version 2 MAP request for protocol 47, internal port 80 and external port 1001. -/
def otherProtocolPacket : List UInt8 :=
  [2, 1, 0, 0, 0, 0, 0, 120] ++ addrBytes (v4Mapped (ofBytes 192 168 1 2)) ++
    List.replicate 12 0 ++ [47, 0, 0, 0, 0, 80, 3, 233] ++ List.replicate 16 0

theorem unlawful_mappings_added :
    ¬ LawfulCalls (process (plainWorld plainPcp) (Daemon.start none).fresh
      (.addPortMapping zeroPortRequest)) ∧
    ¬ LawfulCalls (process (plainWorld plainPcp) (Daemon.start none).fresh
      (.pcp otherProtocolPacket (v4Mapped (ofBytes 192 168 1 2)))) := by
  constructor <;> decide +kernel

end MappingLaws
