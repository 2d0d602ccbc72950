import MiniUPnPd.ExternalPortSearch

/-!
PREFER_FAILURE in a request for a mapping. The search gives up where a port is not permitted or
is mapped to someone else, but not where somebody listens on it. There it goes on, and what it
does at the first other port it answers like a mapping at the suggested one.
-/
namespace PcpPreferFailure
open CText CyclicSearch DaemonRules ExternalPortSearch Inet Iptc Iptcrdr IptcrdrSpec NatPmp
  NetBytes PcpRequests PcpServer UpnpPermissions UpnpRedirect UpnpRedirectSpec
open PcpChanges (Others wantedPort)
open PcpMappings (carryOut_info)

def createdPort : Call → Option UInt16
  | .upnpRedirectInternal _ eport _ _ _ _ _ true => some eport
  | _ => none

/-- The external ports of the redirections that got into the nat table. -/
def createdPorts (d : Daemon) : List UInt16 := d.calls.filterMap createdPort

section search
variable (env : PcpEnv) (info : PcpInfo)

/-- The port is permitted, and somebody listens on it. -/
def listenedOn (port : UInt16) : Bool :=
  pcpPermitted port env info ∧ env.checkPortinuse ∧
    env.portInUse port info.protocol.toNat info.mappedStr info.intPort

/-- The first port, from the suggested one on, that nobody listens on or is not permitted. -/
def settledPort : Option UInt16 := (order info.extPort).find? fun port => !listenedOn env info port

/-- The port is permitted and free, or mapped to the same client and removed, and libiptc lets
    the redirection into the nat table. -/
def Opens (d : Daemon) (port : UInt16) : Prop :=
  pcpPermitted port env info = true ∧ env.disablePortForwarding = false ∧
    match getRedirectRule port info.protocol.toNat d.nf with
    | (none, nf) => callsSucceed 4 nf.iptcResults = true
    | (some old, nf) =>
        ¬ Others info old ∧ (deleteRedirectAndFilterRules port info.protocol.toNat nf).1 = 0 ∧
          callsSucceed 4
            (deleteRedirectAndFilterRules port info.protocol.toNat nf).2.iptcResults = true

/-- The search ends at another port than the suggested one, with a redirection there. -/
def Strays (d : Daemon) : Prop :=
  ∃ port, settledPort env info = some port ∧ port ≠ info.extPort ∧ Opens env info d port

def settledAt (d : Daemon) (port : UInt16) : Search × Daemon :=
  let giveUp (d : Daemon) : Search × Daemon :=
    ({ code := PCP_ERR_CANNOT_PROVIDE_EXTERNAL, eport := port }, d)
  if pcpPermitted port env info then
    match d.lookup port info.protocol.toNat with
    | (none, d) => pcpRedirect env info port d
    | (some old, d) =>
        if Others info old then giveUp d
        else
          let (r, d) := upnpDeleteRedir env.toEnv port info.protocol.toNat d
          if r = 0 then pcpRedirect env info port d else giveUp d
  else giveUp d

end search

section search
variable {env : PcpEnv} {info : PcpInfo} {d : Daemon} {port : UInt16}

/-- With the option, only a port that somebody listens on is passed. -/
theorem pcpVisit_prefers (prefers : info.pfailurePresent = true) (d : Daemon)
    (places : List UInt16) :
    Tells (pcpVisit env info) d (fun _ => true) (fun port => !listenedOn env info port)
      (settledAt env info d) places := by
  intro port _
  unfold pcpVisit settledAt listenedOn pcpPermitted
  dsimp only
  by_cases forbidden : isV4Mapped info.mappedIp = true ∧
      checkUpnpRuleAgainstPermissions env.upnppermlist port (v4Of info.mappedIp) info.intPort =
        false
  · simp [forbidden, prefers]
  · by_cases busy : env.checkPortinuse = true ∧
        env.portInUse port info.protocol.toNat info.mappedStr info.intPort = true
    · simp [forbidden, busy]
    · simp only [forbidden, busy, prefers, not_false_eq_true, decide_true, decide_false,
        and_false, Bool.not_false, ↓reduceIte]
      rcases d.lookup port info.protocol.toNat with ⟨_ | old, after⟩
      · rfl
      · dsimp only
        by_cases others : Others info old
        · have differs : info.mappedStr ≠ old.iaddr ∨ info.intPort ≠ old.iport := others
          rw [if_pos others, if_pos differs]
        · have agrees : ¬ (info.mappedStr ≠ old.iaddr ∨ info.intPort ≠ old.iport) := others
          rw [if_neg others, if_neg agrees]
          split
          · rfl
          · rfl

theorem createPCPMapNAT_prefers (prefers : info.pfailurePresent = true)
    (suggested : info.extPort ≠ 0) (d : Daemon) :
    createPCPMapNAT env info d =
      match settledPort env info with
      | some port => settledAt env info d port
      | none => ({ code := PCP_ERR_NO_RESOURCES, eport := info.extPort }, d) := by
  have wanted : wantedPort info = info.extPort := if_neg suggested
  have tells : Tells (pcpVisit env info) d _ _ _ (order info.extPort) :=
    pcpVisit_prefers prefers d (order info.extPort)
  rw [createPCPMapNAT_search (wanted ▸ suggested), wanted]
  cases settled : settledPort env info with
  | some port =>
    have ended : (along (pcpVisit env info) info.extPort (order info.extPort) false d).ending =
        .found port (settledAt env info d port) := along_found tells settled
    rw [ended]
    rfl
  | none =>
    have ended : (along (pcpVisit env info) info.extPort (order info.extPort) false d).ending =
        .exhausted info.extPort (false || (order info.extPort).any fun _ => true) d :=
      along_exhausted false tells settled
    have any : (order info.extPort).any (fun _ => true) = true :=
      (any_permitted suggested).mpr ⟨info.extPort, suggested, rfl⟩
    rw [ended, any]
    rfl

section ports
variable {rhost : Option CString} {eport : UInt16} {iaddr desc : CString} {iport : UInt16}
  {proto : Int} {timestamp : Nat}

theorem createdPorts_congr {d d' : Daemon} (same : d'.calls = d.calls) :
    createdPorts d' = createdPorts d := congrArg (List.filterMap createdPort) same

theorem createdPorts_redirected (env : Env) (d : Daemon) :
    let made := upnpRedirectInternal env rhost eport iaddr iport proto desc timestamp d
    (Enters env d ∧ createdPorts made.2 = createdPorts d ++ [eport]) ∨
      (¬ Enters env d ∧ made.1 < 0 ∧ createdPorts made.2 = createdPorts d) := by
  dsimp only
  rw [createdPorts, upnpRedirectInternal_calls, List.filterMap_append]
  by_cases enters : Enters env d
  · left
    split
    · simp [enters, createdPorts, createdPort]
    · simp [enters, createdPorts, createdPort]
  · right
    have negative :=
      upnpRedirectInternal_negative env rhost eport iaddr iport proto desc timestamp d enters
    simp [enters, negative, createdPorts, createdPort]

theorem createdPorts_deleted (env : Env) (d : Daemon) :
    createdPorts (upnpDeleteRedir env eport proto d).2 = createdPorts d := by
  simp [upnpDeleteRedir, createdPorts, createdPort]

end ports

theorem pcpRedirect_ports (env : PcpEnv) (info : PcpInfo) (port : UInt16) (d : Daemon) :
    let made := pcpRedirect env info port d
    (Enters env.toEnv d ∧ createdPorts made.2 = createdPorts d ++ [port]) ∨
      (¬ Enters env.toEnv d ∧ made.1.code ≠ PCP_SUCCESS ∧
        createdPorts made.2 = createdPorts d) := by
  obtain ⟨enters, ports⟩ | ⟨refused, negative, ports⟩ :=
    @createdPorts_redirected none port info.mappedStr info.desc info.intPort info.protocol.toNat
      ((env.clock.upnpTime + info.lifetime) % 2 ^ 32) env.toEnv d
  · exact .inl ⟨enters, ports⟩
  · right
    refine ⟨refused, ?_, ports⟩
    simp only [pcpRedirect, if_pos negative]
    decide

theorem settledAt_eport (d : Daemon) (port : UInt16) :
    (settledAt env info d port).1.eport = port := by
  unfold settledAt
  split
  · split
    · rfl
    · split
      · rfl
      · dsimp only
        split
        · rfl
        · rfl
  · rfl

/-- What the search leaves where it settles. -/
theorem settledAt_ports (d : Daemon) (port : UInt16) :
    let settled := settledAt env info d port
    (Opens env info d port ∧ createdPorts settled.2 = createdPorts d ++ [port]) ∨
      (¬ Opens env info d port ∧ settled.1.code ≠ PCP_SUCCESS ∧
        createdPorts settled.2 = createdPorts d) := by
  have failed : PCP_ERR_CANNOT_PROVIDE_EXTERNAL ≠ PCP_SUCCESS := by decide
  unfold settledAt Opens Daemon.lookup
  dsimp only
  by_cases permitted : pcpPermitted port env info = true
  · simp only [permitted, ↓reduceIte, true_and]
    rcases getRedirectRule port info.protocol.toNat d.nf with ⟨_ | old, nf⟩
    · exact pcpRedirect_ports env info port (d.withNf nf)
    · dsimp only
      by_cases others : Others info old
      · right
        rw [if_pos others]
        exact ⟨fun opens => opens.2.1 others, failed, rfl⟩
      · have deleted : createdPorts (upnpDeleteRedir env.toEnv port info.protocol.toNat
            (d.withNf nf)).2 = createdPorts d := createdPorts_deleted env.toEnv (d.withNf nf)
        rw [if_neg others]
        by_cases removed : (upnpDeleteRedir env.toEnv port info.protocol.toNat (d.withNf nf)).1 = 0
        · have made := pcpRedirect_ports env info port
            (upnpDeleteRedir env.toEnv port info.protocol.toNat (d.withNf nf)).2
          rw [deleted] at made
          have after : (upnpDeleteRedir env.toEnv port info.protocol.toNat (d.withNf nf)).2.nf =
              (deleteRedirectAndFilterRules port info.protocol.toNat nf).2 := by
            simp [upnpDeleteRedir]
          have here : (deleteRedirectAndFilterRules port info.protocol.toNat nf).1 = 0 := removed
          rw [if_pos removed]
          rw [Enters, after] at made
          simp only [others, here, not_false_eq_true, true_and]
          exact made
        · right
          rw [if_neg removed]
          exact ⟨fun opens => removed opens.2.2.1, failed, deleted⟩
  · right
    rw [if_neg permitted]
    exact ⟨fun opens => permitted opens.1, failed, rfl⟩

/-- With the option the search answers as it has to, exactly if it does not stray. -/
theorem search_answers_iff (prefers : info.pfailurePresent = true) (suggested : info.extPort ≠ 0)
    (fresh : createdPorts d = []) :
    let made := createPCPMapNAT env info d
    ((made.1.code = PCP_SUCCESS → made.1.eport = info.extPort) ∧
        (made.1.code ≠ PCP_SUCCESS → ∀ port ∈ createdPorts made.2, port = info.extPort)) ↔
      ¬ Strays env info d := by
  rw [createPCPMapNAT_prefers prefers suggested d]
  unfold Strays
  cases settled : settledPort env info with
  | none =>
    have failed : PCP_ERR_NO_RESOURCES ≠ PCP_SUCCESS := by decide
    simp [failed, fresh]
  | some port =>
    have answered : (settledAt env info d port).1.eport = port := settledAt_eport d port
    dsimp only
    rw [answered]
    by_cases same : port = info.extPort
    · obtain ⟨_, ports⟩ | ⟨_, _, ports⟩ := @settledAt_ports env info d port
      · rw [ports, fresh]
        simp [same]
      · rw [ports, fresh]
        simp [same]
    · obtain ⟨opens, ports⟩ | ⟨shut, failed, ports⟩ := @settledAt_ports env info d port
      · rw [ports, fresh]
        simp [same, opens]
      · rw [ports, fresh]
        simp [same, shut, failed]

end search

section packet
variable {env : PcpEnv} {req : List UInt8} {senderIp : In6Addr} {info : PcpInfo} {d : Daemon}
  {port : UInt16}

/-- A success names the suggested port, and without one no redirection is at another port. -/
def Honoured (env : PcpEnv) (req : List UInt8) (senderIp : In6Addr) (port : UInt16) (d : Daemon) :
    Prop :=
  let (response, d') := processIncomingPCPPacket env req senderIp d.fresh
  (∀ bytes, response = some bytes → byteAt bytes 3 = PCP_SUCCESS →
      readNU16 bytes (PCP_COMMON_RESPONSE_SIZE + portsOffset (byteAt req 0) + 2) = port) ∧
    ((∀ bytes, response = some bytes → byteAt bytes 3 ≠ PCP_SUCCESS) →
      ∀ created ∈ createdPorts d', created = port)

theorem opcode_of_request {code : UInt8} (request : ¬ 128 ≤ code) : code &&& 0x7f = code := by
  apply UInt8.toNat_inj.mp
  have low : code.toNat < 128 := by
    rw [UInt8.le_iff_toNat_le] at request
    exact not_le.mp request
  have mask : (0x7f : UInt8).toNat = 2 ^ 7 - 1 := rfl
  rw [UInt8.toNat_and, mask, Nat.and_two_pow_sub_one_eq_mod]
  omega

theorem honoured_refused (map : byteAt req 1 &&& 0x7f = PCP_OPCODE_MAP)
    (refused : acceptedMap env req senderIp = none) : Honoured env req senderIp port d := by
  have same : (processIncomingPCPPacket env req senderIp d.fresh).2 = d.fresh :=
    process_refused refused
  unfold Honoured
  dsimp only
  constructor
  · intro bytes answered success
    by_cases request : 128 ≤ byteAt req 1
    · unfold processIncomingPCPPacket at answered
      rw [if_pos request] at answered
      simp at answered
    · rw [opcode_of_request request] at map
      have answer : processIncomingPCPPacket env req senderIp d.fresh = (some bytes, _) :=
        Prod.ext answered rfl
      obtain ⟨info, accepted⟩ := accepted_of_success map answer success
      rw [refused] at accepted
      simp at accepted
  · intro _ created made
    rw [same] at made
    simp [createdPorts, Daemon.fresh] at made

theorem honoured_accepted (accepted : acceptedMap env req senderIp = some info) :
    let carried := carryOut env info d.fresh
    Honoured env req senderIp port d ↔
      (carried.1.resultCode = PCP_SUCCESS → carried.1.extPort = port) ∧
        (carried.1.resultCode ≠ PCP_SUCCESS →
          ∀ created ∈ createdPorts carried.2, created = port) := by
  have known := accepted_fields accepted
  have fields := carryOut_info env info d.fresh
  have opcode : (carryOut env info d.fresh).1.opcode = PCP_OPCODE_MAP := by
    rw [fields]
    exact known.opcode
  have version : (carryOut env info d.fresh).1.version = byteAt req 0 := by
    rw [fields]
    exact known.version
  have versions : (carryOut env info d.fresh).1.version = 1 ∨
      (carryOut env info d.fresh).1.version = 2 := by
    rw [version, ← known.version]
    exact known.versions
  have long : PCP_COMMON_REQUEST_SIZE + portsOffset (carryOut env info d.fresh).1.version + 20 ≤
      req.length := by
    rw [version, ← known.version]
    exact known.long
  unfold Honoured
  rw [process_accepted accepted]
  simp only [Option.some.injEq, forall_eq', respond_code]
  apply and_congr_left
  intro _
  apply imp_congr_right
  intro success
  rw [← version, respond_extPort success opcode versions long]

theorem findMapping_calls (info : PcpInfo) (fuel index : Nat) (d : Daemon) :
    (findMapping info fuel index d).2.calls = d.calls := by
  induction fuel generalizing index d with
  | zero => rfl
  | succ fuel ih =>
    unfold findMapping
    split
    · rfl
    · split
      · rfl
      · rw [ih, withNf_calls]

theorem deletePCPMap_ports (env : PcpEnv) (info : PcpInfo) (d : Daemon) :
    (deletePCPMap env info d).1.extPort = info.extPort ∧
      createdPorts (deletePCPMap env info d).2 = createdPorts d := by
  have finished : ∀ r : Int, (if r ≥ 0 then info else info.fail PCP_ERR_NO_RESOURCES).extPort =
      info.extPort := by
    intro r
    split <;> rfl
  unfold deletePCPMap
  dsimp only
  split
  · split
    · exact ⟨finished _, rfl⟩
    · split
      · exact ⟨rfl, rfl⟩
      · exact ⟨finished _, rfl⟩
  · have searched := findMapping_calls info ((d.nf.chain .nat).length + 1) 0 d
    rcases found : findMapping info ((d.nf.chain .nat).length + 1) 0 d with ⟨_ | rule, after⟩
    all_goals rw [found] at searched
    · exact ⟨finished _, createdPorts_congr searched⟩
    · dsimp only
      split
      · exact ⟨rfl, createdPorts_congr searched⟩
      · refine ⟨finished _, ?_⟩
        rw [createdPorts_deleted]
        exact createdPorts_congr searched

/-- A request that is accepted and has a suggested port and PREFER_FAILURE. -/
theorem accepted_honoured_iff (accepted : acceptedMap env req senderIp = some info)
    (nat : info.isFw = false) (prefers : info.pfailurePresent = true)
    (suggested : info.extPort ≠ 0) :
    Honoured env req senderIp info.extPort d ↔ ¬ (info.lifetime ≠ 0 ∧ Strays env info d) := by
  have fresh : createdPorts d.fresh = [] := rfl
  refine (honoured_accepted accepted).trans ?_
  unfold carryOut
  by_cases removal : info.lifetime = 0
  · obtain ⟨eport, ports⟩ := deletePCPMap_ports env info d.fresh
    simp [removal, eport, ports, fresh]
  · have answers : _ ↔ ¬ Strays env info d.fresh := search_answers_iff prefers suggested fresh
    simp only [removal, ↓reduceIte, createPCPMap, nat, Bool.false_eq_true, ne_eq,
      not_false_eq_true, true_and]
    exact answers

theorem parsed_opcode (parsed : parsePCPRequest env req (PcpInfo.received senderIp) = .map info) :
    byteAt req 1 &&& 0x7f = PCP_OPCODE_MAP ∧ info.opcode = PCP_OPCODE_MAP := by
  obtain ⟨header, size, parse, read, map, _, layout, rfl⟩ := parsed_map parsed
  obtain ⟨frame, _⟩ := optionsRead_readMAP req size parse header
  obtain ⟨_, _, fields⟩ := layout_read layout req PCP_COMMON_REQUEST_SIZE
  constructor
  · rw [header_read read] at map
    exact map
  · rw [frame, fields]
    exact map

/-- Validation keeps the suggested port and the option, and finds out that it is for NAT. -/
theorem accepted_parsed {request : PcpInfo}
    (parsed : parsePCPRequest env req (PcpInfo.received senderIp) = .map info)
    (accepted : acceptedMap env req senderIp = some request) :
    request.extPort = info.extPort ∧ request.pfailurePresent = info.pfailurePresent ∧
      request.isFw = !isV4Mapped info.mappedIp := by
  unfold acceptedMap at accepted
  rw [parsed] at accepted
  split at accepted
  · simp at accepted
  · split at accepted
    · simp at accepted
    · dsimp only at accepted
      rcases checked : validatePCPMsg env info with ⟨_ | _, result⟩
      · simp [checked] at accepted
      · simp only [checked, Option.some.injEq] at accepted
        subst accepted
        obtain ⟨_, _, _, rfl⟩ := validated checked (parsed_opcode parsed).2
        exact ⟨rfl, rfl, rfl⟩

/-- A request with PREFER_FAILURE and a suggested port is honoured exactly if the search for it
    does not stray. -/
theorem prefer_failure_iff
    (parsed : parsePCPRequest env req (PcpInfo.received senderIp) = .map info)
    (nat : isV4Mapped info.mappedIp = true) (prefers : info.pfailurePresent = true)
    (suggested : info.extPort ≠ 0) :
    Honoured env req senderIp info.extPort d ↔
      ¬ ∃ request, acceptedMap env req senderIp = some request ∧ request.lifetime ≠ 0 ∧
        Strays env request d := by
  cases accepted : acceptedMap env req senderIp with
  | none =>
    have honoured : Honoured env req senderIp info.extPort d :=
      honoured_refused (parsed_opcode parsed).1 accepted
    simp [honoured]
  | some request =>
    obtain ⟨port, option, kind⟩ := accepted_parsed parsed accepted
    have answers : Honoured env req senderIp request.extPort d ↔ _ :=
      accepted_honoured_iff accepted (by rw [kind, nat, Bool.not_true]) (option.trans prefers)
        (port ▸ suggested)
    rw [port] at answers
    simpa using answers

end packet

/-- Somebody listens on port 80, and the client asks for it with PREFER_FAILURE. -/
def busyEnv : PcpEnv :=
  { webEnv with
    checkPortinuse := true
    portInUse := fun port _ _ _ => port = 80 }

def preferRequest : List UInt8 :=
  PcpPinholes.mapRequest 7 (v4Mapped NatPmpMappings.hourClient) 80 80 3600 ++ [2, 0, 0, 0]

def requested (env : PcpEnv) : PcpInfo :=
  match parsePCPRequest env preferRequest
      (PcpInfo.received (v4Mapped NatPmpMappings.hourClient)) with
  | .map info => info
  | _ => PcpInfo.received (v4Mapped NatPmpMappings.hourClient)

theorem prefer_failure_listened :
    Honoured busyEnv preferRequest (v4Mapped NatPmpMappings.hourClient) (requested busyEnv).extPort
        (Daemon.start none) ↔
      ¬ ∃ request, acceptedMap busyEnv preferRequest (v4Mapped NatPmpMappings.hourClient) =
          some request ∧ request.lifetime ≠ 0 ∧ Strays busyEnv request (Daemon.start none) :=
  prefer_failure_iff rfl (by decide) (by decide) (by decide)

/-- The answer is a success with port 81. -/
theorem port_not_preferred :
    parsePCPRequest busyEnv preferRequest
        (PcpInfo.received (v4Mapped NatPmpMappings.hourClient)) = .map (requested busyEnv) ∧
      (requested busyEnv).pfailurePresent = true ∧ (requested busyEnv).extPort = 80 ∧
      ¬ Honoured busyEnv preferRequest (v4Mapped NatPmpMappings.hourClient) 80
        (Daemon.start none) := by
  refine ⟨rfl, by decide, by decide, ?_⟩
  have code : ((processIncomingPCPPacket busyEnv preferRequest
      (v4Mapped NatPmpMappings.hourClient) (Daemon.start none).fresh).1.map fun bytes =>
        (byteAt bytes 3, readNU16 bytes 42)) = some (PCP_SUCCESS, 81) := by
    decide
  obtain ⟨bytes, answered, fields⟩ := Option.map_eq_some_iff.mp code
  obtain ⟨success, port⟩ := Prod.mk.inj fields
  intro honoured
  have named : readNU16 bytes 42 = 80 := honoured.1 bytes answered success
  rw [port] at named
  exact absurd named (by decide)

end PcpPreferFailure
