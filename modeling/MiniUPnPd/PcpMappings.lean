import MiniUPnPd.Mappings
import MiniUPnPd.PcpPinholes

/-!
What a PCP client may conclude from a successful answer. A new mapping and a new pinhole
are as the answer says, up to the expiry time, which is kept in 32 bits. The answer to the
renewal of a pinhole has the external port of the request, whatever the port of the pinhole.
-/
namespace PcpMappings
open CText DaemonRules Inet Iptc Iptcrdr Iptpinhole Mappings NatPmp NetBytes PcpPinholes
  PcpRequests PcpServer RuleKeys UpnpPermissions UpnpRedirect UpnpRedirectSpec

/-- One of the options for the bounds of a lifetime. -/
def lifetimeOption (limit : Nat) (value : Option CString) : Nat :=
  match value with
  | none => limit
  | some s =>
      let lifetime := (atoi s % 2 ^ 64).toNat
      if lifetime > limit then limit else lifetime

/-- The options min_lifetime and max_lifetime. The daemon does not start when the bounds are
    inverse. -/
def readLifetimes (minOption maxOption : Option CString) : Option (Nat × Nat) :=
  let minLifetime := lifetimeOption 120 minOption
  let maxLifetime := lifetimeOption 86400 maxOption
  if minLifetime ≥ maxLifetime then none else some (minLifetime, maxLifetime)

theorem lifetimeOption_le (limit : Nat) (value : Option CString) :
    lifetimeOption limit value ≤ limit := by
  unfold lifetimeOption
  cases value with
  | none => exact Nat.le_refl limit
  | some s =>
    dsimp only
    split <;> omega

theorem readLifetimes_bounds {minOption maxOption : Option CString} {least most : Nat}
    (started : readLifetimes minOption maxOption = some (least, most)) :
    least < most ∧ most ≤ 86400 := by
  have limit := lifetimeOption_le 86400 maxOption
  unfold readLifetimes at started
  dsimp only at started
  split at started
  · simp at started
  · obtain ⟨rfl, rfl⟩ := Prod.mk.inj (Option.some.inj started)
    omega

theorem grantedLifetime_between {env : PcpEnv} {requested : Nat}
    (ordered : env.minLifetime < env.maxLifetime) (small : env.maxLifetime ≤ 86400)
    (nonzero : grantedLifetime env requested ≠ 0) :
    env.minLifetime ≤ grantedLifetime env requested ∧
      grantedLifetime env requested ≤ env.maxLifetime := by
  unfold grantedLifetime at nonzero ⊢
  dsimp only at nonzero ⊢
  generalize capped : (if env.maxLifetime < requested then env.maxLifetime % 2 ^ 32 else requested) =
    lifetime at nonzero ⊢
  have most : lifetime ≤ env.maxLifetime := by
    rw [← capped]
    split <;> omega
  split at nonzero
  · rename_i short
    rw [if_pos short]
    omega
  · rename_i enough
    rw [if_neg enough]
    omega

section nat
variable {env : PcpEnv} {info : PcpInfo}

/-- A search that succeeds has just made the redirection, at the port of the answer. -/
theorem searchExtPort_success (fuel : Nat) (first extPort : UInt16) (any : Bool) (d : Daemon)
    (success : (searchExtPort env info fuel first extPort any d).1.code = PCP_SUCCESS) :
    ∃ before, Described none (searchExtPort env info fuel first extPort any d).1.eport
      info.mappedStr info.intPort info.protocol.toNat info.desc
      ((env.clock.upnpTime + info.lifetime) % 2 ^ 32) before
      (searchExtPort env info fuel first extPort any d).2 := by
  induction fuel generalizing first extPort any d with
  | zero =>
    have failed : PCP_ERR_NO_RESOURCES = PCP_SUCCESS := success
    exact absurd failed (by decide)
  | succ fuel ih =>
    have redirected : ∀ before : Daemon,
        (if (upnpRedirectInternal env.toEnv none extPort info.mappedStr info.intPort
            info.protocol.toNat info.desc ((env.clock.upnpTime + info.lifetime) % 2 ^ 32)
            before).1 < 0 then PCP_ERR_NO_RESOURCES else PCP_SUCCESS) = PCP_SUCCESS →
        Described none extPort info.mappedStr info.intPort info.protocol.toNat info.desc
          ((env.clock.upnpTime + info.lifetime) % 2 ^ 32) before
          (upnpRedirectInternal env.toEnv none extPort info.mappedStr info.intPort
            info.protocol.toNat info.desc ((env.clock.upnpTime + info.lifetime) % 2 ^ 32)
            before).2 := by
      intro before code
      apply upnpRedirectInternal_added
      by_contra negative
      rw [if_pos (not_le.mp negative)] at code
      exact absurd code (by decide)
    have stopped : ∀ {code : UInt8} {after : Daemon}, code ≠ PCP_SUCCESS →
        ((({ code, eport := extPort } : Search), after).1.code = PCP_SUCCESS) → False :=
      fun wrong same => wrong same
    unfold searchExtPort at success ⊢
    dsimp only at success ⊢
    split at success
    · exfalso
      split at success
      · exact (stopped (by decide) success).elim
      · exact (stopped (by decide) success).elim
    · rename_i ahead
      rw [if_neg ahead]
      split at success
      · rename_i forbidden
        rw [if_pos forbidden]
        split at success
        · exact (stopped (by decide) success).elim
        · rename_i optional
          rw [if_neg optional]
          exact ih _ _ _ _ success
      · rename_i permitted
        rw [if_neg permitted]
        split at success
        · rename_i busy
          rw [if_pos busy]
          exact ih _ _ _ _ success
        · rename_i free
          rw [if_neg free]
          rcases looked : d.lookup extPort info.protocol.toNat with ⟨_ | old, after⟩
          · rw [looked] at success
            exact ⟨after, redirected after success⟩
          · rw [looked] at success
            dsimp only at success ⊢
            split at success
            · rename_i others
              rw [if_pos others]
              split at success
              · exact (stopped (by decide) success).elim
              · rename_i optional
                rw [if_neg optional]
                exact ih _ _ _ _ success
            · rename_i own
              rw [if_neg own]
              split at success
              · rename_i removed
                rw [if_pos removed]
                exact ⟨_, redirected _ success⟩
              · rename_i failed
                rw [if_neg failed]
                split at success
                · exact (stopped (by decide) success).elim
                · rename_i optional
                  rw [if_neg optional]
                  exact ih _ _ _ _ success

theorem createPCPMapNAT_success {d : Daemon}
    (success : (createPCPMapNAT env info d).1.code = PCP_SUCCESS) :
    ∃ before, Described none (createPCPMapNAT env info d).1.eport info.mappedStr info.intPort
      info.protocol.toNat info.desc ((env.clock.upnpTime + info.lifetime) % 2 ^ 32) before
      (createPCPMapNAT env info d).2 := by
  unfold createPCPMapNAT at success ⊢
  dsimp only at success ⊢
  generalize (if info.extPort = 0 then info.intPort else info.extPort) = extPort at success ⊢
  split at success
  · have failed : PCP_ERR_MALFORMED_REQUEST = PCP_SUCCESS := success
    exact absurd failed (by decide)
  · rename_i given
    rw [if_neg given]
    exact searchExtPort_success searchFuel 0 _ false d success

theorem isByte_toNat (protocol : UInt8) : isByte protocol.toNat := by
  have small := protocol.toNat_lt
  constructor <;> omega

end nat

section firewall
variable {env : PinholeEnv} {info : PcpInfo} {fw fw' : Firewall}

def HasPinhole (fw : Firewall) (client : In6Addr) (port : UInt16) (expiry : Nat) : Prop :=
  ∃ p ∈ fw.pinholeList, p.daddr = client ∧ p.dport = port ∧ p.timestamp = expiry

instance (fw : Firewall) (client : In6Addr) (port : UInt16) (expiry : Nat) :
    Decidable (HasPinhole fw client port expiry) := by
  unfold HasPinhole
  infer_instance

/-- The pinhole that a request renews. -/
def renewed (env : PinholeEnv) (info : PcpInfo) (fw : Firewall) : Option PinholeT :=
  fw.pinholeList.find?
    (pinholeMatches 0 0 ((env.inetPton6 info.mappedStr).getD env.stack.2) info.intPort info.protocol)

/-- The external port in the answer of `CreatePCPMap_FW`. -/
def pinholePort (env : PinholeEnv) (info : PcpInfo) (fw : Firewall) : UInt16 :=
  if (renewed env info fw).isSome then info.extPort else info.intPort

/-- The answer names the port of the pinhole and its expiry has not wrapped, or another
    pinhole is there that fits the answer. -/
def PinholeKept (env : PinholeEnv) (info : PcpInfo) (fw : Firewall) : Prop :=
  (pinholePort env info fw = info.intPort ∧ env.clock.upnpTime + info.lifetime < 2 ^ 32) ∨
    ∃ p ∈ fw.pinholeList, (∀ q ∈ renewed env info fw, p.uid ≠ q.uid) ∧ p.daddr = info.mappedIp ∧
      p.dport = pinholePort env info fw ∧ p.timestamp = env.clock.upnpTime + info.lifetime

theorem find_renewed :
    upnpFindInboundpinhole env none 0 info.mappedStr info.intPort info.protocol fw =
      (renewed env info fw).map (·.uid) := rfl

theorem pinholeExpiry_eq_iff :
    pinholeExpiry env info.lifetime = env.clock.upnpTime + info.lifetime ↔
      env.clock.upnpTime + info.lifetime < 2 ^ 32 := by
  unfold pinholeExpiry
  omega

/-- The list after a pinhole request that succeeds: a new expiry for the pinhole that was
    there, or a new pinhole at the head. -/
def PinholeCreated (env : PinholeEnv) (info : PcpInfo) (fw fw' : Firewall) : Prop :=
  match renewed env info fw with
  | some p =>
      fw'.pinholeList =
        fw.pinholeList.map (withTimestamp p.uid (pinholeExpiry env info.lifetime))
  | none =>
      ∃ uid, fw'.pinholeList =
        { saddr := 0, daddr := info.mappedIp, timestamp := pinholeExpiry env info.lifetime
          sport := 0, dport := info.intPort, uid, proto := info.protocol
          desc := info.desc } :: fw.pinholeList

theorem renewed_fields (address : env.inetPton6 info.mappedStr = some info.mappedIp) {p : PinholeT}
    (found : renewed env info fw = some p) :
    p ∈ fw.pinholeList ∧ p.daddr = info.mappedIp ∧ p.dport = info.intPort := by
  have hit := List.find?_some found
  simp only [pinholeMatches, address, Option.getD_some, decide_eq_true_eq] at hit
  exact ⟨List.mem_of_find?_eq_some found, hit.2.2.2.2.symm, hit.2.2.2.1.symm⟩

theorem createPCPMapFW_created (address : env.inetPton6 info.mappedStr = some info.mappedIp)
    (success : (createPCPMapFW (withFirewall env fw) info).code = PCP_SUCCESS)
    (after : firewallCreated env info fw = some fw') :
    (createPCPMapFW (withFirewall env fw) info).eport = pinholePort env info fw ∧
      PinholeCreated env info fw fw' := by
  have lookup : (withFirewall env fw).findInboundpinhole info.mappedStr info.intPort info.protocol =
      (renewed env info fw).map (·.uid) := rfl
  unfold createPCPMapFW at success ⊢
  unfold firewallCreated at after
  rw [find_renewed] at after
  simp only [lookup] at success ⊢
  unfold PinholeCreated pinholePort
  cases found : renewed env info fw with
  | some p =>
    simp only [found, Option.map_some, Option.isSome_some, ↓reduceIte] at success after ⊢
    obtain rfl := Option.some.inj after
    exact ⟨trivial, (updatePinhole_of_mem (renewed_fields address found).1 _).2⟩
  | none =>
    simp only [found, Option.map_none, Option.isSome_none, Bool.false_eq_true, ↓reduceIte]
      at success after ⊢
    obtain ⟨⟨r, next⟩, added, rfl⟩ := Option.map_eq_some_iff.mp after
    have result : (withFirewall env fw).addInboundpinhole info.mappedStr info.intPort info.protocol
        info.desc info.lifetime = r := by
      simp only [withFirewall, added, Option.map_some, Option.getD_some]
    rw [result] at success ⊢
    have positive : 0 ≤ r := by
      by_contra negative
      simp only [ge_iff_le, if_neg negative] at success
      exact absurd success (by decide)
    rw [if_neg (not_lt.mpr positive)]
    refine ⟨rfl, ?_⟩
    unfold upnpAddInboundpinhole at added
    rw [address, find_renewed, found] at added
    simp only [Option.map_none] at added
    obtain ⟨⟨uid, final⟩, listed, same⟩ := Option.map_eq_some_iff.mp added
    obtain ⟨outcome, rfl⟩ := Prod.mk.inj same
    rcases addPinhole_some listed with ⟨refused, _⟩ | ⟨_, uid', head⟩
    · simp only [refused] at outcome
      rw [if_neg (by decide)] at outcome
      omega
    · rw [address] at head
      exact ⟨uid', head⟩

/-- A pinhole request that succeeds leaves a pinhole as in its answer exactly if
    `PinholeKept`. -/
theorem pinholeCreated_kept (address : env.inetPton6 info.mappedStr = some info.mappedIp)
    (created : PinholeCreated env info fw fw') :
    HasPinhole fw' info.mappedIp (pinholePort env info fw) (env.clock.upnpTime + info.lifetime) ↔
      PinholeKept env info fw := by
  unfold PinholeCreated at created
  unfold PinholeKept pinholePort HasPinhole
  cases found : renewed env info fw with
  | some p =>
    obtain ⟨member, host, port⟩ := renewed_fields address found
    simp only [found] at created
    simp only [created, Option.isSome_some, ↓reduceIte, Option.mem_some_iff, forall_eq']
    constructor
    · rintro ⟨q, inside, client, named, expiry⟩
      obtain ⟨before, listed, rfl⟩ := List.mem_map.mp inside
      by_cases same : before.uid = p.uid
      · obtain rfl := List.inj_on_of_nodup_map fw.distinct listed member same
        simp only [withTimestamp, ↓reduceIte] at named expiry
        exact .inl ⟨named.symm.trans port, pinholeExpiry_eq_iff.mp expiry⟩
      · simp only [withTimestamp, if_neg same] at client named expiry
        exact .inr ⟨before, listed, same, client, named, expiry⟩
    · rintro (⟨named, lasts⟩ | ⟨q, listed, other, client, named, expiry⟩)
      · refine ⟨withTimestamp p.uid _ p, List.mem_map_of_mem member, ?_⟩
        simp only [withTimestamp, ↓reduceIte]
        exact ⟨host, port.trans named.symm, pinholeExpiry_eq_iff.mpr lasts⟩
      · refine ⟨q, ?_, client, named, expiry⟩
        have kept := List.mem_map_of_mem (f := withTimestamp p.uid
          (pinholeExpiry env info.lifetime)) listed
        rwa [withTimestamp, if_neg other] at kept
  | none =>
    simp only [found] at created
    obtain ⟨uid, head⟩ := created
    simp only [head, Option.isSome_none, Bool.false_eq_true, ↓reduceIte, Option.not_mem_none,
      false_imp_iff, implies_true, true_and, List.exists_mem_cons_iff, pinholeExpiry_eq_iff]

end firewall

section answers
variable {env : PinholeEnv} {info : PcpInfo} {req response : List UInt8} {senderIp : In6Addr}
  {s s' : Server}

/-- The state is as the answer says: the mapping or pinhole at the external port with the
    lifetime, and the lifetime within its bounds. -/
def AnswerKept (env : PinholeEnv) (info : PcpInfo) (response : List UInt8) (s : Server) : Prop :=
  let port := readNU16 response (PCP_COMMON_RESPONSE_SIZE + portsOffset info.version + 2)
  let lifetime := readNU32 response 4
  (if info.isFw then
      HasPinhole s.firewall info.mappedIp port (env.clock.upnpTime + lifetime)
    else
      HasMapping s.daemon.nf info.protocol.toNat port (v4Of info.mappedIp) info.intPort
        (env.clock.upnpTime + lifetime)) ∧
    env.minLifetime ≤ lifetime ∧ lifetime ≤ env.maxLifetime

def Kept (env : PinholeEnv) (info : PcpInfo) (s : Server) : Prop :=
  if info.isFw then PinholeKept env info s.firewall
  else env.clock.upnpTime + info.lifetime < 2 ^ 32

theorem carryOut_created {env : PcpEnv} {d : Daemon} (lasting : info.lifetime ≠ 0) :
    carryOut env info d = createPCPMap env info d := if_neg lasting

/-- The answer to an accepted request that creates something. -/
theorem created_answer (accepted : acceptedMap env.toPcpEnv req senderIp = some info)
    (answer : processPacket env req senderIp s = some (some response, s')) :
    response = respond (withFirewall env s.firewall) req
        (carryOut (withFirewall env s.firewall) info s.daemon).1 ∧
      s'.daemon = (carryOut (withFirewall env s.firewall) info s.daemon).2 ∧
      firewallAfter env req senderIp s.firewall = some s'.firewall := by
  unfold processPacket at answer
  have accepted' : acceptedMap (withFirewall env s.firewall) req senderIp = some info := accepted
  rw [process_accepted accepted'] at answer
  obtain ⟨firewall, after, same⟩ := Option.map_eq_some_iff.mp answer
  obtain ⟨bytes, rfl⟩ := Prod.mk.inj same
  exact ⟨(Option.some.inj bytes).symm, rfl, after⟩

/-- A request is carried out as it is, up to its result and its external port. -/
theorem carryOut_info (env : PcpEnv) (info : PcpInfo) (d : Daemon) :
    (carryOut env info d).1 =
      { info with
        resultCode := (carryOut env info d).1.resultCode
        extPort := (carryOut env info d).1.extPort } := by
  unfold carryOut
  split
  · unfold deletePCPMap
    dsimp only
    have finished : ∀ r : Int, (if r ≥ 0 then info else info.fail PCP_ERR_NO_RESOURCES) =
        { info with
          resultCode := (if r ≥ 0 then info else info.fail PCP_ERR_NO_RESOURCES).resultCode
          extPort := (if r ≥ 0 then info else info.fail PCP_ERR_NO_RESOURCES).extPort } := by
      intro r
      split <;> rfl
    split
    · split
      · exact finished (-1)
      · split
        · rfl
        · exact finished _
    · split
      · exact finished (-1)
      · split
        · rfl
        · exact finished _
  · rfl

theorem answeredLifetime_success (success : info.resultCode = PCP_SUCCESS) :
    answeredLifetime info = info.lifetime := by
  unfold answeredLifetime
  rw [success, if_neg (by decide), if_neg (by decide)]

theorem mappedStr_v4 {env : PcpEnv} (accepted : Accepted env req senderIp info)
    (nat : info.isFw = false) : info.mappedStr = inetNtoa (v4Of info.mappedIp) := by
  have mapped : isV4Mapped info.mappedIp = true := by simpa [nat] using accepted.isFw
  rw [accepted.mappedStr, inetN46top, if_pos mapped]

theorem mappedStr_v6 (accepted : Accepted env.toPcpEnv req senderIp info)
    (addresses : ∀ a, env.inetPton6 (env.inetNtop6 a) = some a) (fw : info.isFw = true) :
    env.inetPton6 info.mappedStr = some info.mappedIp := by
  have mapped : isV4Mapped info.mappedIp = false := by simpa [fw] using accepted.isFw
  rw [accepted.mappedStr, inetN46top, if_neg (by simp [mapped]), addresses]

/-- What a successful answer with a lifetime tells: the request was accepted, and the
    answer has its lifetime and the external port that was settled on. -/
theorem answered_created (map : byteAt req 1 = PCP_OPCODE_MAP)
    (answer : processPacket env req senderIp s = some (some response, s'))
    (success : byteAt response 3 = PCP_SUCCESS) (lasting : readNU32 response 4 ≠ 0) :
    ∃ info, acceptedMap env.toPcpEnv req senderIp = some info ∧
      readNU32 response 4 = info.lifetime ∧
      (createPCPMap (withFirewall env s.firewall) info s.daemon).1.resultCode = PCP_SUCCESS ∧
      readNU16 response (PCP_COMMON_RESPONSE_SIZE + portsOffset info.version + 2) =
        (createPCPMap (withFirewall env s.firewall) info s.daemon).1.extPort ∧
      s'.daemon = (createPCPMap (withFirewall env s.firewall) info s.daemon).2 ∧
      firewallAfter env req senderIp s.firewall = some s'.firewall := by
  obtain ⟨info, accepted⟩ : ∃ info, acceptedMap env.toPcpEnv req senderIp = some info := by
    obtain ⟨firewall, _, same⟩ := Option.map_eq_some_iff.mp answer
    obtain ⟨bytes, _⟩ := Prod.mk.inj same
    have processed : processIncomingPCPPacket (withFirewall env s.firewall) req senderIp s.daemon =
        (some response, _) := Prod.ext bytes rfl
    obtain ⟨info, accepted⟩ := accepted_of_success map processed success
    exact ⟨info, accepted⟩
  have known := accepted_fields accepted
  obtain ⟨rfl, daemon, firewall⟩ := created_answer accepted answer
  rw [respond_code] at success
  generalize withFirewall env s.firewall = pcp at *
  have fields := carryOut_info pcp info s.daemon
  have granted : answeredLifetime (carryOut pcp info s.daemon).1 = info.lifetime := by
    rw [answeredLifetime_success success, fields]
  have small : info.lifetime < 2 ^ 32 := by
    rw [known.lifetime]
    have below := readNU32_lt req 4
    exact grantedLifetime_lt below
  have lifetime : readNU32 (respond pcp req (carryOut pcp info s.daemon).1) 4 = info.lifetime := by
    rw [← granted] at small ⊢
    exact respond_lifetime small
  have version : (carryOut pcp info s.daemon).1.version = info.version := by rw [fields]
  have port : readNU16 (respond pcp req (carryOut pcp info s.daemon).1)
      (PCP_COMMON_RESPONSE_SIZE + portsOffset info.version + 2) =
      (carryOut pcp info s.daemon).1.extPort := by
    have opcode : (carryOut pcp info s.daemon).1.opcode = PCP_OPCODE_MAP := by
      rw [fields]
      exact known.opcode
    rw [← version]
    apply respond_extPort success opcode
    · rw [version]
      exact known.versions
    · rw [version]
      exact known.long
  have created : carryOut pcp info s.daemon = createPCPMap pcp info s.daemon :=
    carryOut_created (lifetime ▸ lasting)
  have settled := congrArg (fun result => result.1.extPort) created
  rw [created] at success daemon
  exact ⟨info, accepted, lifetime, success, port.trans settled, daemon, firewall⟩

theorem created_mapping (accepted : acceptedMap env.toPcpEnv req senderIp = some info)
    (nat : info.isFw = false)
    (success : (createPCPMap (withFirewall env s.firewall) info s.daemon).1.resultCode = PCP_SUCCESS)
    (expiry : Nat) :
    HasMapping (createPCPMap (withFirewall env s.firewall) info s.daemon).2.nf
        info.protocol.toNat (createPCPMap (withFirewall env s.firewall) info s.daemon).1.extPort
        (v4Of info.mappedIp) info.intPort expiry ↔
      (env.clock.upnpTime + info.lifetime) % 2 ^ 32 = expiry := by
  simp only [createPCPMap, nat, Bool.false_eq_true, ↓reduceIte] at success ⊢
  obtain ⟨before, described⟩ := createPCPMapNAT_success success
  have clock : (withFirewall env s.firewall).clock = env.clock := rfl
  have text := mappedStr_v4 (accepted_fields accepted) nat
  rw [text, clock] at described
  exact hasMapping_described (isByte_toNat info.protocol) described expiry

/-- A successful answer with a lifetime is kept exactly if `Kept` holds before the request. -/
theorem answered_map_iff {minOption maxOption : Option CString}
    (started : readLifetimes minOption maxOption = some (env.minLifetime, env.maxLifetime))
    (addresses : ∀ a, env.inetPton6 (env.inetNtop6 a) = some a)
    (map : byteAt req 1 = PCP_OPCODE_MAP)
    (answer : processPacket env req senderIp s = some (some response, s'))
    (success : byteAt response 3 = PCP_SUCCESS) (lasting : readNU32 response 4 ≠ 0) :
    ∃ info, acceptedMap env.toPcpEnv req senderIp = some info ∧
      (AnswerKept env info response s' ↔ Kept env info s) := by
  obtain ⟨info, accepted, lifetime, done, port, daemon, firewall⟩ :=
    answered_created map answer success lasting
  refine ⟨info, accepted, ?_⟩
  have known := accepted_fields accepted
  obtain ⟨ordered, most⟩ := readLifetimes_bounds started
  rw [lifetime] at lasting
  have bounds : env.minLifetime ≤ info.lifetime ∧ info.lifetime ≤ env.maxLifetime := by
    rw [known.lifetime] at lasting ⊢
    exact grantedLifetime_between ordered most lasting
  unfold AnswerKept Kept
  simp only [port, lifetime, bounds, and_true]
  cases kind : info.isFw with
  | true =>
    simp only [createPCPMap, kind, ↓reduceIte] at done ⊢
    unfold firewallAfter at firewall
    simp only [accepted, kind, ↓reduceIte, if_neg lasting] at firewall
    have address := mappedStr_v6 known addresses kind
    obtain ⟨answered, created⟩ := createPCPMapFW_created address done firewall
    rw [answered]
    exact pinholeCreated_kept address created
  | false =>
    simp only [Bool.false_eq_true, ↓reduceIte]
    rw [daemon, created_mapping accepted kind done]
    omega

end answers

/-- The server after a request for a pinhole to port 80, at time 1000. -/
def pinholeOpened : Server :=
  serve (plainPinholes 1000) Server.start (mapRequest 7 plainHost 80 80 3600, plainHost)

/-- The renewal of the pinhole with an external port. -/
def renewal (extPort : UInt16) : Option (Option (List UInt8) × Server) :=
  processPacket (plainPinholes 2000) (mapRequest 7 plainHost 80 extPort 3600) plainHost pinholeOpened

def renewalAnswer (extPort : UInt16) : List UInt8 :=
  [2, 129, 0, 0] ++ writeNU32 3600 ++ writeNU32 2000 ++ List.replicate 12 0 ++
    List.replicate 12 7 ++ [6, 0, 0, 0] ++ writeNU16 80 ++ writeNU16 extPort ++ addrBytes plainHost

theorem answer_of_first {answered : Option (Option (List UInt8) × Server)} {response : List UInt8}
    (first : answered.map (·.1) = some (some response)) :
    ∃ s', answered = some (some response, s') := by
  obtain ⟨⟨bytes, s'⟩, here, same⟩ := Option.map_eq_some_iff.mp first
  obtain rfl : bytes = some response := same
  exact ⟨s', here⟩

theorem answered_map_renewal :
    ∃ s', renewal 80 = some (some (renewalAnswer 80), s') ∧
      ∃ info, acceptedMap (plainPinholes 2000).toPcpEnv (mapRequest 7 plainHost 80 80 3600)
          plainHost = some info ∧
        (AnswerKept (plainPinholes 2000) info (renewalAnswer 80) s' ↔
          Kept (plainPinholes 2000) info pinholeOpened) := by
  obtain ⟨s', answer⟩ : ∃ s', renewal 80 = some (some (renewalAnswer 80), s') :=
    answer_of_first (by decide)
  have started : readLifetimes none none =
      some ((plainPinholes 2000).minLifetime, (plainPinholes 2000).maxLifetime) := by decide
  exact ⟨s', answer, answered_map_iff started plainPton6_plainNtop6 (by decide) answer (by decide)
    (by decide)⟩

/-- The answer names port 443, which no pinhole has. -/
theorem renewed_pinhole_misnamed :
    ∃ s', renewal 443 = some (some (renewalAnswer 443), s') ∧
      byteAt (renewalAnswer 443) 3 = PCP_SUCCESS ∧ readNU32 (renewalAnswer 443) 4 = 3600 ∧
      ¬ HasPinhole s'.firewall plainHost (readNU16 (renewalAnswer 443) 42) (2000 + 3600) := by
  obtain ⟨s', answer⟩ : ∃ s', renewal 443 = some (some (renewalAnswer 443), s') :=
    answer_of_first (by decide)
  refine ⟨s', answer, by decide, by decide, ?_⟩
  have ports : (renewal 443).map (fun answered => answered.2.firewall.pinholeList.map (·.dport)) =
      some [80] := by decide
  rw [answer, Option.map_some, Option.some.injEq] at ports
  have named : readNU16 (renewalAnswer 443) 42 = 443 := by decide
  rintro ⟨p, listed, _, port, _⟩
  have member := List.mem_map_of_mem (f := (·.dport)) listed
  rw [ports, port, named] at member
  exact absurd member (by decide)

end PcpMappings
