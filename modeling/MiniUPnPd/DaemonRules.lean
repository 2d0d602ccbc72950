import MiniUPnPd.PcpServer
import MiniUPnPd.UpnpSoap

/-!
Rules for properties of the daemon's state. What keeps a property of the state when a
table is read, a mapping is deleted, and a mapping is added under a key that is free, is
kept by every packet, by a cleaning and by the reload of the lease file.
-/
namespace DaemonRules
open CText NetBytes Inet Iptc Iptcrdr LeaseFile NatPmp PcpServer UpnpRedirect UpnpSoap
variable {env : Env} {P : Daemon → Prop} {d : Daemon}

structure Steady (env : Env) (P : Daemon → Prop) : Prop where
  opened : ∀ d, P d → P (d.withNf (iptcCalls 2 d.nf).2)
  deleted : ∀ eport proto d, P d → P (upnpDeleteRedir env eport proto d).2
  cleaned : ∀ next d, P d → P { d with nextruletocleanTimestamp := next }
  filed : ∀ file d, P d → P { d with leaseFile := file }

theorem Steady.looked (steady : Steady env P) (eport : UInt16) (proto : Int) (d : Daemon)
    (holds : P d) : P (d.lookup eport proto).2 := steady.opened d holds

theorem Steady.indexed (steady : Steady env P) (i : Int) (d : Daemon) (holds : P d) :
    P (d.withNf (getRedirectRuleByIndex i d.nf).2) := steady.opened d holds

theorem Steady.ranged (steady : Steady env P) (startport endport : UInt16) (protocol : CString)
    (d : Daemon) (holds : P d) :
    P (upnpGetPortmappingsInRange startport endport protocol d).2 := steady.opened d holds

/-- Adding a mapping to `iaddr` and `iport` under a key that a lookup has just found free,
    or that has just been deleted. -/
structure Adds (env : Env) (P : Daemon → Prop) (iaddr : CString) (iport : UInt16) (proto : Int) :
    Prop where
  free : ∀ eport desc timestamp d, eport ≠ 0 → P d → (d.lookup eport proto).1 = none →
    P (upnpRedirectInternal env none eport iaddr iport proto desc timestamp
      (d.lookup eport proto).2).2
  again : ∀ eport desc timestamp d old, eport ≠ 0 → P d → (d.lookup eport proto).1 = some old →
    P (upnpRedirectInternal env none eport iaddr iport proto desc timestamp
      (upnpDeleteRedir env eport proto (d.lookup eport proto).2).2).2

theorem nextPort_nonzero (port : UInt16) : nextPort port ≠ 0 := by
  unfold nextPort
  split
  · decide
  · assumption

section natpmp
variable {senderaddr : InAddr} {iport : UInt16} {proto : Int} {lifetime : Nat}

theorem removeMappings_keeps (steady : Steady env P) (client : CString) (iport : UInt16)
    (proto : Int) (fuel : Nat) (index : Int) (holds : P d) :
    P (removeMappings env client iport proto fuel index d).2 := by
  induction fuel generalizing index d with
  | zero => exact holds
  | succ fuel ih =>
    have read := steady.indexed index d holds
    unfold removeMappings
    rcases found : getRedirectRuleByIndex index d.nf with ⟨_ | rule, nf⟩ <;> rw [found] at read
    · exact read
    · dsimp only at read ⊢
      split
      · have removed := steady.deleted rule.eport rule.proto _ read
        split
        · exact removed
        · exact ih index removed
      · exact ih (index + 1) read

theorem searchPort_keeps (steady : Steady env P)
    (adds : Adds env P (inetNtoa senderaddr) iport proto) (fuel : Nat) (first eport : UInt16)
    (anyEportAllowed : Bool) (nonzero : eport ≠ 0) (holds : P d) :
    P (searchPort env senderaddr iport proto lifetime fuel first eport anyEportAllowed d).2 := by
  induction fuel generalizing first eport anyEportAllowed d with
  | zero => exact holds
  | succ fuel ih =>
    have next : ∀ first any {d : Daemon}, P d →
        P (searchPort env senderaddr iport proto lifetime fuel first (nextPort eport) any d).2 :=
      fun first any _ kept => ih first (nextPort eport) any (nextPort_nonzero eport) kept
    have read := steady.looked eport proto d holds
    have free := fun desc timestamp => adds.free eport desc timestamp d nonzero holds
    have again := fun desc timestamp old => adds.again eport desc timestamp d old nonzero holds
    unfold searchPort
    dsimp only
    split
    · exact holds
    · split
      · split
        · exact next _ true holds
        · rcases looked : d.lookup eport proto with ⟨_ | old, after⟩
          · rw [looked] at free
            exact free _ _ rfl
          · rw [looked] at read again
            dsimp only at read again ⊢
            split
            · split
              · exact steady.deleted eport proto after read
              · exact again _ _ old rfl
            · exact next _ true read
      · exact next _ anyEportAllowed holds

theorem mappingRequest_keeps (steady : Steady env P) (req : List UInt8)
    (adds : readNU16 req 4 ≠ 0 → ∀ proto, proto = IPPROTO_UDP ∨ proto = IPPROTO_TCP →
      Adds env P (inetNtoa senderaddr) (readNU16 req 4) proto) (holds : P d) :
    P (mappingRequest env req senderaddr d).2 := by
  rw [mappingRequest]
  split
  · generalize (if byteAt req 1 = 1 then IPPROTO_UDP else IPPROTO_TCP) = proto
    have removed := removeMappings_keeps steady (inetNtoa senderaddr) (readNU16 req 4) proto
      (removeFuel d) 0 holds
    rcases outcome : removeMappings env (inetNtoa senderaddr) (readNU16 req 4) proto (removeFuel d)
      0 d with ⟨code, after⟩
    rw [outcome] at removed
    exact removed
  · split
    · exact holds
    · rename_i nonzero
      apply searchPort_keeps steady (adds nonzero _ ?_) searchFuel 0 _ false ?_ holds
      · split
        · exact Or.inl rfl
        · exact Or.inr rfl
      · split
        · exact nonzero
        · assumption

theorem natPmp_keeps (steady : Steady env P) (uplink : Uplink) (req : List UInt8)
    (adds : readNU16 req 4 ≠ 0 → ∀ proto, proto = IPPROTO_UDP ∨ proto = IPPROTO_TCP →
      Adds env P (inetNtoa senderaddr) (readNU16 req 4) proto) (holds : P d) :
    P (processIncomingNATPMPPacket env uplink req senderaddr d).2 := by
  have mapped := mappingRequest_keeps steady req adds holds
  unfold processIncomingNATPMPPacket
  rcases outcome : mappingRequest env req senderaddr d with ⟨result, after⟩
  rw [outcome] at mapped
  dsimp only at mapped ⊢
  split
  · exact holds
  · split
    · exact holds
    · split
      · exact holds
      · split
        · exact holds
        · split
          · exact mapped
          · exact holds

end natpmp

section pcp
variable {env : PcpEnv} {info : PcpInfo}

theorem searchExtPort_keeps (steady : Steady env.toEnv P)
    (adds : Adds env.toEnv P info.mappedStr info.intPort info.protocol.toNat) (fuel : Nat)
    (first extPort : UInt16) (anyEportAllowed : Bool) (nonzero : extPort ≠ 0) (holds : P d) :
    P (searchExtPort env info fuel first extPort anyEportAllowed d).2 := by
  induction fuel generalizing first extPort anyEportAllowed d with
  | zero => exact holds
  | succ fuel ih =>
    have next : ∀ first any {d : Daemon}, P d →
        P (searchExtPort env info fuel first (nextPort extPort) any d).2 :=
      fun first any _ kept => ih first (nextPort extPort) any (nextPort_nonzero extPort) kept
    have read := steady.looked extPort info.protocol.toNat d holds
    have free := fun desc timestamp => adds.free extPort desc timestamp d nonzero holds
    have again := fun desc timestamp old => adds.again extPort desc timestamp d old nonzero holds
    unfold searchExtPort
    dsimp only
    split
    · exact holds
    · split
      · split
        · exact holds
        · exact next _ anyEportAllowed holds
      · split
        · exact next _ true holds
        · rcases looked : d.lookup extPort info.protocol.toNat with ⟨_ | old, after⟩
          · rw [looked] at free
            exact free _ _ rfl
          · rw [looked] at read again
            have removed := steady.deleted extPort info.protocol.toNat after read
            dsimp only at read again ⊢
            split
            · split
              · exact read
              · exact next _ true read
            · split
              · exact again _ _ old rfl
              · split
                · exact removed
                · exact next _ true removed

theorem createPCPMap_keeps (steady : Steady env.toEnv P)
    (adds : info.isFw = false → (info.extPort = 0 → info.intPort ≠ 0) →
      Adds env.toEnv P info.mappedStr info.intPort info.protocol.toNat) (holds : P d) :
    P (createPCPMap env info d).2 := by
  unfold createPCPMap
  cases nat : info.isFw with
  | true => exact holds
  | false =>
    simp only [Bool.false_eq_true, ↓reduceIte, createPCPMapNAT]
    generalize port : (if info.extPort = 0 then info.intPort else info.extPort) = extPort
    split
    · exact holds
    · rename_i nonzero
      have given : info.extPort = 0 → info.intPort ≠ 0 := by
        intro absent
        rw [if_pos absent] at port
        rw [port]
        exact nonzero
      exact searchExtPort_keeps steady (adds nat given) searchFuel 0 _ false nonzero holds

theorem findMapping_keeps (steady : Steady env.toEnv P) (info : PcpInfo) (fuel index : Nat)
    (holds : P d) : P (findMapping info fuel index d).2 := by
  induction fuel generalizing index d with
  | zero => exact holds
  | succ fuel ih =>
    have read := steady.indexed index d holds
    unfold findMapping
    rcases found : getRedirectRuleByIndex index d.nf with ⟨_ | rule, nf⟩ <;> rw [found] at read
    · exact read
    · dsimp only at read ⊢
      split
      · exact read
      · exact ih (index + 1) read

theorem deletePCPMap_keeps (steady : Steady env.toEnv P) (holds : P d) :
    P (deletePCPMap env info d).2 := by
  have found := findMapping_keeps steady info ((d.nf.chain .nat).length + 1) 0 holds
  unfold deletePCPMap
  dsimp only
  split
  · split
    · exact holds
    · split <;> exact holds
  · rcases search : findMapping info ((d.nf.chain .nat).length + 1) 0 d with ⟨_ | rule, after⟩ <;>
      rw [search] at found
    · exact found
    · dsimp only at found ⊢
      split
      · exact found
      · exact steady.deleted rule.eport rule.proto after found

/-- Validation leaves the protocol, the ports and the lifetime alone. -/
theorem validatePCPMsg_fields (env : PcpEnv) (info : PcpInfo) :
    let checked := (validatePCPMsg env info).2
    checked.protocol = info.protocol ∧ checked.intPort = info.intPort ∧
      checked.extPort = info.extPort ∧ checked.lifetime = info.lifetime := by
  unfold validatePCPMsg checkExternalAddress
  dsimp only
  split
  · exact ⟨rfl, rfl, rfl, rfl⟩
  · split
    · exact ⟨rfl, rfl, rfl, rfl⟩
    · cases thirdPartyError env info with
      | some code => exact ⟨rfl, rfl, rfl, rfl⟩
      | none =>
        dsimp only
        split
        · exact ⟨rfl, rfl, rfl, rfl⟩
        · split
          · exact ⟨rfl, rfl, rfl, rfl⟩
          · cases externalAddr env info.mappedIp with
            | none => exact ⟨rfl, rfl, rfl, rfl⟩
            | some external =>
              dsimp only
              by_cases refused : isUnspecified (info.extIp.getD 0) = false ∧
                  info.extIp.getD 0 ≠ external ∧ info.pfailurePresent
              · simp only [if_pos refused]
                exact ⟨rfl, rfl, rfl, rfl⟩
              · simp only [if_neg refused]
                split <;> exact ⟨rfl, rfl, rfl, rfl⟩

theorem processMAP_keeps (steady : Steady env.toEnv P)
    (adds : ∀ checked, validatePCPMsg env info = (true, checked) → checked.isFw = false →
      info.lifetime ≠ 0 → (info.extPort = 0 → info.intPort ≠ 0) →
      Adds env.toEnv P checked.mappedStr info.intPort info.protocol.toNat) (holds : P d) :
    P (processMAP env info d).2 := by
  have fields := validatePCPMsg_fields env info
  unfold processMAP
  rcases outcome : validatePCPMsg env info with ⟨valid, checked⟩
  rw [outcome] at fields
  obtain ⟨protocol, intPort, extPort, lifetime⟩ := fields
  cases valid with
  | false => exact holds
  | true =>
    dsimp only at protocol intPort extPort lifetime ⊢
    split
    · exact deletePCPMap_keeps steady holds
    · rename_i lasting
      rw [lifetime] at lasting
      apply createPCPMap_keeps steady ?_ holds
      rw [protocol, intPort, extPort]
      intro nat given
      exact adds checked outcome nat lasting given

theorem pcp_keeps (steady : Steady env.toEnv P) (req : List UInt8) (senderIp : In6Addr)
    (adds : ∀ info checked, parsePCPRequest env req (PcpInfo.received senderIp) = .map info →
      validatePCPMsg env info = (true, checked) → checked.isFw = false → info.lifetime ≠ 0 →
      (info.extPort = 0 → info.intPort ≠ 0) →
      Adds env.toEnv P checked.mappedStr info.intPort info.protocol.toNat) (holds : P d) :
    P (processIncomingPCPPacket env req senderIp d).2 := by
  have processed :
      P (processPCPRequest env req (PcpInfo.received senderIp) d).2 := by
    unfold processPCPRequest
    cases parsed : parsePCPRequest env req (PcpInfo.received senderIp) with
    | ignore => exact holds
    | answer info => exact holds
    | map info => exact processMAP_keeps steady (fun checked => adds info checked parsed) holds
  unfold processIncomingPCPPacket
  rcases outcome : processPCPRequest env req (PcpInfo.received senderIp) d with ⟨result, after⟩
  rw [outcome] at processed
  dsimp only at processed ⊢
  split
  · exact holds
  · split
    · exact holds
    · split
      · exact processed
      · exact processed

end pcp

section soap
variable {redirect : UInt16 → Daemon → Int × Daemon}

theorem next_nonzero {t t' : Tried} (next : t.next = some t') : t'.eport ≠ 0 := by
  unfold Tried.next at next
  split at next
  · simp at next
  · rename_i more
    have top : t.eportBelow ≤ 1 → t.eportAbove ≠ 65535 := fun low high => more ⟨low, high⟩
    split at next <;> rename_i side <;> obtain rfl := Option.some.inj next
    · have low : ¬ t.eportBelow ≤ 1 := by
        rcases side with high | below
        · exact fun low => top low high
        · exact UInt16.not_le.mpr below.2
      intro zero
      apply low
      have one : t.eportBelow = 0 + 1 := UInt16.sub_eq_iff_eq_add.mp zero
      rw [one]
      decide
    · intro zero
      apply side
      left
      have wrapped : t.eportAbove = 0 - 1 := UInt16.eq_sub_iff_add_eq.mpr zero
      rw [wrapped]
      rfl

/-- The search makes no request for port 0. -/
theorem searchAround_keeps (kept : ∀ eport d, eport ≠ 0 → P d → P (redirect eport d).2)
    (allowed : WordBitmap.Words 32 2048) (fuel : Nat) (t : Tried) (holds : P d) :
    P (searchAround allowed redirect fuel t d).2 := by
  induction fuel generalizing t d with
  | zero => exact holds
  | succ fuel ih =>
    unfold searchAround
    cases next : t.next with
    | none => exact holds
    | some t' =>
      have tried := kept t'.eport d (next_nonzero next) holds
      dsimp only
      split
      · split
        · exact tried
        · exact ih t' tried
      · exact ih t' holds

theorem redirectAny_keeps (kept : ∀ eport d, eport ≠ 0 → P d → P (redirect eport d).2)
    (env : SoapEnv) (intIp : CString) (iport : UInt16) {eport : UInt16} (nonzero : eport ≠ 0)
    (holds : P d) : P (redirectAny env intIp iport eport redirect d).2 := by
  have first := kept eport d nonzero holds
  unfold redirectAny
  dsimp only
  split
  · exact searchAround_keeps kept _ aroundFuel _ first
  · exact first

theorem randomPort_nonzero (random : Nat) : randomPort random ≠ 0 := by
  intro zero
  have value := congrArg UInt16.toNat zero
  have range : (random &&& 0x7ffffff) % (65536 - 1024) < 65536 - 1024 := Nat.mod_lt _ (by decide)
  simp only [randomPort, UInt16.toNat_ofNat', UInt16.toNat_zero] at value
  omega

/-- A request that reaches `upnp_redirect` has passed the checks before it. -/
theorem addPortMapping_keeps (env : SoapEnv) (h : Upnphttp)
    (kept : ∀ intIp address args, internalClient env h = .ok (intIp, address) →
      (env.secureMode = true → h.clientaddr = address) → portArguments env h = .ok args →
      P (redirectRequest env h args.eport intIp args.iport args.protocol args.leaseduration d).2)
    (holds : P d) : P (addPortMapping env h d).2 := by
  unfold addPortMapping
  cases resolved : internalClient env h with
  | error reply => exact holds
  | ok client =>
    obtain ⟨intIp, address⟩ := client
    dsimp only
    split
    · exact holds
    · rename_i own
      have mine : env.secureMode = true → h.clientaddr = address := by
        intro secure
        by_contra other
        exact own ⟨secure, other⟩
      cases read : portArguments env h with
      | error reply => exact holds
      | ok args => exact kept intIp address args resolved mine read

theorem addAnyPortMapping_keeps (env : SoapEnv) (h : Upnphttp)
    (kept : ∀ given intIp address args, anyPortArguments h = .ok (given, args) →
      resolveClient env given = .ok (intIp, address) →
      (env.secureMode = true → h.clientaddr = address) → ∀ eport d, eport ≠ 0 → P d →
      P (redirectRequest env h eport intIp args.iport args.protocol args.leaseduration d).2)
    (holds : P d) : P (addAnyPortMapping env h d).2 := by
  unfold addAnyPortMapping
  cases read : anyPortArguments h with
  | error reply => exact holds
  | ok pair =>
    obtain ⟨given, args⟩ := pair
    dsimp only
    split
    · exact holds
    · cases resolved : resolveClient env given with
      | error reply => exact holds
      | ok client =>
        obtain ⟨intIp, address⟩ := client
        dsimp only
        split
        · exact holds
        · rename_i own
          have mine : env.secureMode = true → h.clientaddr = address := by
            intro secure
            by_contra other
            exact own ⟨secure, other⟩
          apply redirectAny_keeps (kept given intIp address args read resolved mine) env intIp
            args.iport ?_ holds
          split
          · exact randomPort_nonzero env.random
          · assumption

theorem deleteAll_keeps (steady : Steady env P) (protocol : CString) (entryList : List UInt16)
    (holds : P d) : P (deleteAll env protocol entryList d) := by
  unfold deleteAll
  induction entryList generalizing d with
  | nil => exact holds
  | cons eport entryList ih => exact ih (steady.deleted eport (protoAtoi protocol) d holds)

theorem deletionRefused_keeps {env : SoapEnv} (steady : Steady env.toEnv P) (h : Upnphttp)
    (eport : UInt16) (protocol : CString) (holds : P d) :
    P (deletionRefused env h eport protocol d).2 := by
  have read := steady.looked eport (protoAtoi protocol) d holds
  unfold deletionRefused
  split
  · dsimp only
    split
    · exact read
    · split
      · exact read
      · exact read
  · exact holds

theorem deletePortMapping_keeps {env : SoapEnv} (steady : Steady env.toEnv P) (h : Upnphttp)
    (holds : P d) : P (deletePortMapping env h d).2 := by
  unfold deletePortMapping
  cases deleteArguments env h with
  | error reply => exact holds
  | ok args =>
    obtain ⟨eport, protocol⟩ := args
    have checked := deletionRefused_keeps steady h eport protocol holds
    dsimp only
    split
    · exact checked
    · exact steady.deleted eport (protoAtoi protocol) _ checked

theorem deletePortMappingRange_keeps {env : SoapEnv} (steady : Steady env.toEnv P)
    (h : Upnphttp) (holds : P d) : P (deletePortMappingRange env h d).2 := by
  unfold deletePortMappingRange
  cases rangeArguments h with
  | error reply => exact holds
  | ok args =>
    obtain ⟨startport, endport, protocol⟩ := args
    have listed := steady.ranged startport endport protocol d holds
    dsimp only
    split
    · exact listed
    · exact deleteAll_keeps steady protocol _ listed

end soap

section upkeep

theorem collectRuleStates_keeps (steady : Steady env P) (now fuel i : Nat) (list : List RuleState)
    (holds : P d) : P (collectRuleStates now fuel i list d).2 := by
  induction fuel generalizing i list d with
  | zero => exact holds
  | succ fuel ih =>
    have read := steady.indexed i d holds
    unfold collectRuleStates
    rcases found : getRedirectRuleByIndex i d.nf with ⟨_ | rule, nf⟩ <;> rw [found] at read
    · exact read
    · apply ih (i + 1)
      exact steady.cleaned _ _ read

theorem removeExpired_keeps (steady : Steady env P) (list : List RuleState) (holds : P d) :
    P (removeExpired env list d) := by
  unfold removeExpired
  induction list generalizing d with
  | nil => exact holds
  | cons state list ih =>
    apply ih
    dsimp only
    split
    · exact steady.deleted state.eport state.proto.toInt d holds
    · exact holds

theorem getUpnpRulesStateList_keeps (steady : Steady env P) (maxRulesNumberTarget : Int)
    (holds : P d) : P (getUpnpRulesStateList env maxRulesNumberTarget d).2 := by
  have collected := collectRuleStates_keeps steady (env.clock.upnpTime % 2 ^ 32)
    ((d.nf.chain .nat).length + 1) 0 [] (steady.cleaned 0 d holds)
  exact removeExpired_keeps steady _ collected

theorem reloadLine_keeps (steady : Steady env P) (line : CString)
    (redirect : ∀ l, parseLeaseLine line = some l → ∀ leaseduration d, P d →
      P (upnpRedirect env none l.eport l.iaddr l.iport l.proto (some l.desc) leaseduration d).2)
    (holds : P d) : P (reloadLine env line d) := by
  unfold reloadLine
  cases parsed : parseLeaseLine line with
  | none => exact holds
  | some l =>
    have kept : ∀ leaseduration timestamp, P (reloadMapping env l leaseduration timestamp d) := by
      intro leaseduration timestamp
      have redirected := redirect l parsed leaseduration d holds
      unfold reloadMapping fileAdd
      dsimp only
      split
      · split
        · exact steady.filed _ _ redirected
        · exact redirected
      · exact redirected
    dsimp only
    split
    · split
      · exact kept _ _
      · split
        · exact holds
        · exact kept _ _
    · exact kept _ _

theorem reloadFromLeaseFile_keeps (steady : Steady env P)
    (redirect : ∀ (l : Lease) leaseduration d, P d →
      P (upnpRedirect env none l.eport l.iaddr l.iport l.proto (some l.desc) leaseduration d).2)
    (holds : P d) : P (reloadFromLeaseFile env d).2 := by
  unfold reloadFromLeaseFile
  split
  · cases d.leaseFile with
    | none => exact holds
    | some content =>
      have start := steady.filed none d holds
      dsimp only
      generalize { d with leaseFile := none } = opened at start
      induction fgetsLines 128 content generalizing opened with
      | nil => exact start
      | cons line rest ih =>
        apply ih
        exact reloadLine_keeps steady line (fun l _ => redirect l) start
  · exact holds

end upkeep

end DaemonRules
