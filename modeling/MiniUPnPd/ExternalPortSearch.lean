import MiniUPnPd.Lib.CyclicCounter
import MiniUPnPd.Lib.CyclicSearch
import MiniUPnPd.NatPmpMappings
import MiniUPnPd.PcpChanges

/-!
The searches of NAT-PMP and PCP for an external port, as one search around the ports with the
visits of either server. When no libiptc call fails and nobody listens on the ports, it comes
to the first port that is permitted and not mapped to someone else.
-/
namespace ExternalPortSearch
open CText CyclicSearch DaemonRules Inet Iptc Iptcrdr IptcrdrSpec Mappings NatPmp NatPmpMappings
  NetBytes PcpServer RuleKeys UpnpPermissions UpnpRedirect UpnpRedirectSpec
open PcpChanges (wantedPort)
open PcpMappings (isByte_toNat)

section visits

abbrev PortVisit := Visit Daemon (Search × Daemon)

abbrev PortOutcome := CyclicSearch.Outcome UInt16 Daemon (Search × Daemon)

def answer (noResources : UInt8) : Ending UInt16 Daemon (Search × Daemon) → Search × Daemon
  | .found _ r => r
  | .exhausted eport any d => ({ code := if any then noResources else 2, eport }, d)

def natPmpVisit (env : Env) (client : InAddr) (iport : UInt16) (proto : Int) (lifetime : Nat)
    (d : Daemon) (eport : UInt16) : PortVisit :=
  if checkUpnpRuleAgainstPermissions env.upnppermlist eport client iport then
    if env.checkPortinuse ∧ env.portInUse eport proto (inetNtoa client) iport then .taken d
    else
      match d.lookup eport proto with
      | (none, d) => .done (redirectHere env client iport proto lifetime eport d)
      | (some old, d) =>
          if inetNtoa client = old.iaddr ∧ iport = old.iport then
            let (r, d) := upnpDeleteRedir env eport proto d
            .done (if r < 0 then ({ code := 0, eport }, d)
              else redirectHere env client iport proto lifetime eport d)
          else .taken d
  else .refused

def pcpRedirect (env : PcpEnv) (info : PcpInfo) (eport : UInt16) (d : Daemon) : Search × Daemon :=
  let (r, d) := upnpRedirectInternal env.toEnv none eport info.mappedStr info.intPort
    info.protocol.toNat info.desc ((env.clock.upnpTime + info.lifetime) % 2 ^ 32) d
  ({ code := if r < 0 then PCP_ERR_NO_RESOURCES else PCP_SUCCESS, eport }, d)

/-- With PREFER_FAILURE a visit passes a port in one case only. -/
def pcpVisit (env : PcpEnv) (info : PcpInfo) (d : Daemon) (eport : UInt16) : PortVisit :=
  let proto : Int := info.protocol.toNat
  let giveUp (d : Daemon) : PortVisit :=
    .done ({ code := PCP_ERR_CANNOT_PROVIDE_EXTERNAL, eport }, d)
  if isV4Mapped info.mappedIp ∧
      checkUpnpRuleAgainstPermissions env.upnppermlist eport (v4Of info.mappedIp)
        info.intPort = false then
    if info.pfailurePresent then giveUp d else .refused
  else if env.checkPortinuse ∧ env.portInUse eport proto info.mappedStr info.intPort then .taken d
  else
    match d.lookup eport proto with
    | (none, d) => .done (pcpRedirect env info eport d)
    | (some old, d) =>
        if info.mappedStr ≠ old.iaddr ∨ info.intPort ≠ old.iport then
          if info.pfailurePresent then giveUp d else .taken d
        else
          let (r, d) := upnpDeleteRedir env.toEnv eport proto d
          if r = 0 then .done (pcpRedirect env info eport d)
          else if info.pfailurePresent then giveUp d else .taken d

/-- The ports in the order of the searches, each of them once. -/
def order (start : UInt16) : List UInt16 := List.iterate nextPort start 65535

end visits

section order
variable {start port : UInt16}

theorem iterate_toNat (nonzero : start ≠ 0) (n : Nat) :
    (List.iterate nextPort start n).map UInt16.toNat =
      List.iterate (CyclicCounter.next 65535) start.toNat n := by
  induction n generalizing start with
  | zero => rfl
  | succ n ih =>
    have step : (nextPort start).toNat = CyclicCounter.next 65535 start.toNat := by
      have small := start.toNat_lt
      have positive := toNat_pos nonzero
      rw [nextPort_toNat nonzero, CyclicCounter.next]
      split <;> omega
    simp only [List.iterate, List.map_cons, ih (nextPort_nonzero start), step]

theorem mem_order (nonzero : start ≠ 0) : port ∈ order start ↔ port ≠ 0 := by
  have small := start.toNat_lt
  have positive := toNat_pos nonzero
  have bound := port.toNat_lt
  rw [← List.mem_map_of_injective (fun _ _ => UInt16.toNat_inj.mp), order, iterate_toNat nonzero]
  have inside := CyclicCounter.mem_round (n := 65535) (y := port.toNat) positive (by omega)
  rw [CyclicCounter.round] at inside
  rw [inside, ne_eq, ← UInt16.toNat_inj, UInt16.toNat_zero]
  omega

theorem order_nodup (nonzero : start ≠ 0) : (order start).Nodup := by
  have small := start.toNat_lt
  apply List.Nodup.of_map UInt16.toNat
  rw [order, iterate_toNat nonzero]
  exact CyclicCounter.round_nodup (by omega)

theorem nextPort_apart (nonzero : start ≠ 0) {k : Nat} (positive : 0 < k) (turn : k < 65535) :
    nextPort^[k] start ≠ start := by
  intro same
  have small := start.toNat_lt
  have value := (nextPort_iterate nonzero k).1
  rw [same] at value
  have := toNat_pos nonzero
  omega

/-- The search from a port goes along the order of the ports. -/
theorem searches_order {visit : Daemon → UInt16 → PortVisit} (nonzero : start ≠ 0) (d : Daemon) :
    Searches nextPort visit none start false d (along visit start (order start) false d) :=
  searches_whole (nextPort_cycle nonzero)
    (fun _ positive turn => nextPort_apart nonzero positive turn) false d

end order

section loops
variable {first : Option UInt16} {port : UInt16} {any : Bool} {d : Daemon} {o : PortOutcome}
  {fuel : Nat}

/-- In the code there is no first port as long as it is 0. -/
theorem first_back (nonzero : port ≠ 0) (begun : first ≠ some 0) :
    (first.getD 0 ≠ 0 ∧ port = first.getD 0) ↔ first = some port := by
  cases first with
  | none => simp
  | some other =>
    simp only [Option.getD_some, Option.some.injEq]
    constructor
    · intro both
      exact both.2.symm
    · intro same
      exact ⟨fun zero => nonzero (same ▸ zero), same.symm⟩

theorem first_kept (begun : first ≠ some 0) :
    (if first.getD 0 = 0 then port else first.getD 0) = first.getD port := by
  cases first with
  | none => rfl
  | some other =>
    apply if_neg
    intro zero
    exact begun (congrArg some zero)

theorem first_begun (nonzero : port ≠ 0) (begun : first ≠ some 0) :
    some (first.getD port) ≠ some 0 := by
  cases first with
  | none => simpa using nonzero
  | some other => exact begun

/-- The rounds of a loop that makes these visits: it stops when it is back at its first port. -/
structure SearchRounds (visit : Daemon → UInt16 → PortVisit) (noResources : UInt8)
    (loop : Nat → UInt16 → UInt16 → Bool → Daemon → Search × Daemon) : Prop where
  back : ∀ fuel port any d, port ≠ 0 →
    loop (fuel + 1) port port any d = answer noResources (.exhausted port any d)
  round : ∀ fuel first port any d, port ≠ 0 → first ≠ some 0 → first ≠ some port →
    loop (fuel + 1) (first.getD 0) port any d =
      match visit d port with
      | .refused => loop fuel (first.getD port) (nextPort port) any d
      | .taken d' => loop fuel (first.getD port) (nextPort port) true d'
      | .done r => r

/-- A loop with these rounds is the search with these visits. -/
theorem loop_searches {visit : Daemon → UInt16 → PortVisit} {noResources : UInt8}
    {loop : Nat → UInt16 → UInt16 → Bool → Daemon → Search × Daemon}
    (rounds : SearchRounds visit noResources loop)
    (run : Searches nextPort visit first port any d o) (nonzero : port ≠ 0)
    (begun : first ≠ some 0) (enough : o.places.length < fuel) :
    loop fuel (first.getD 0) port any d = answer noResources o.ending := by
  induction run generalizing fuel with
  | back =>
    obtain ⟨fuel, rfl⟩ : ∃ f, fuel = f + 1 := ⟨fuel - 1, by omega⟩
    exact rounds.back fuel _ _ _ nonzero
  | @refused first port any s o ahead visited rest ih =>
    obtain ⟨fuel, rfl⟩ : ∃ f, fuel = f + 1 := ⟨fuel - 1, by omega⟩
    rw [rounds.round fuel first port any s nonzero begun ahead, visited]
    exact ih (nextPort_nonzero port) (first_begun nonzero begun) (Nat.lt_of_succ_lt_succ enough)
  | @taken first port any s s' o ahead visited rest ih =>
    obtain ⟨fuel, rfl⟩ : ∃ f, fuel = f + 1 := ⟨fuel - 1, by omega⟩
    rw [rounds.round fuel first port any s nonzero begun ahead, visited]
    exact ih (nextPort_nonzero port) (first_begun nonzero begun) (Nat.lt_of_succ_lt_succ enough)
  | @done first port any s r ahead visited =>
    obtain ⟨fuel, rfl⟩ : ∃ f, fuel = f + 1 := ⟨fuel - 1, by omega⟩
    rw [rounds.round fuel first port any s nonzero begun ahead, visited]
    rfl

theorem searchPort_round {env : Env} {client : InAddr} {iport : UInt16} {proto : Int}
    {lifetime : Nat} (nonzero : port ≠ 0) (begun : first ≠ some 0) (ahead : first ≠ some port) :
    searchPort env client iport proto lifetime (fuel + 1) (first.getD 0) port any d =
      match natPmpVisit env client iport proto lifetime d port with
      | .refused =>
          searchPort env client iport proto lifetime fuel (first.getD port) (nextPort port) any d
      | .taken d' =>
          searchPort env client iport proto lifetime fuel (first.getD port) (nextPort port) true d'
      | .done r => r := by
  generalize rest : searchPort env client iport proto lifetime fuel = next
  unfold searchPort natPmpVisit
  rw [rest]
  rw [if_neg (fun both => ahead ((first_back nonzero begun).mp both)), first_kept begun]
  dsimp only
  by_cases permitted : checkUpnpRuleAgainstPermissions env.upnppermlist port client iport = true
  · simp only [if_pos permitted]
    by_cases busy : env.checkPortinuse = true ∧
        env.portInUse port proto (inetNtoa client) iport = true
    · simp only [if_pos busy]
    · simp only [if_neg busy]
      rcases d.lookup port proto with ⟨_ | old, after⟩
      · rfl
      · dsimp only
        by_cases own : inetNtoa client = old.iaddr ∧ iport = old.iport
        · simp only [if_pos own]
          rfl
        · simp only [if_neg own]
  · simp only [if_neg permitted]

theorem searchPort_rounds {env : Env} {client : InAddr} {iport : UInt16} {proto : Int}
    {lifetime : Nat} :
    SearchRounds (natPmpVisit env client iport proto lifetime) 4
      (searchPort env client iport proto lifetime) where
  back := by
    intro fuel port any d nonzero
    unfold searchPort
    rw [if_pos ⟨nonzero, rfl⟩]
    rfl
  round := by
    intro fuel first port any d nonzero begun ahead
    exact searchPort_round nonzero begun ahead

theorem searchExtPort_round {env : PcpEnv} {info : PcpInfo} (nonzero : port ≠ 0)
    (begun : first ≠ some 0) (ahead : first ≠ some port) :
    searchExtPort env info (fuel + 1) (first.getD 0) port any d =
      match pcpVisit env info d port with
      | .refused => searchExtPort env info fuel (first.getD port) (nextPort port) any d
      | .taken d' => searchExtPort env info fuel (first.getD port) (nextPort port) true d'
      | .done r => r := by
  generalize rest : searchExtPort env info fuel = next
  unfold searchExtPort pcpVisit
  rw [rest]
  rw [if_neg (fun both => ahead ((first_back nonzero begun).mp both)), first_kept begun]
  dsimp only
  by_cases forbidden : isV4Mapped info.mappedIp = true ∧
      checkUpnpRuleAgainstPermissions env.upnppermlist port (v4Of info.mappedIp) info.intPort =
        false
  · simp only [if_pos forbidden]
    cases info.pfailurePresent with
    | true => rfl
    | false => rfl
  · simp only [if_neg forbidden]
    by_cases busy : env.checkPortinuse = true ∧
        env.portInUse port info.protocol.toNat info.mappedStr info.intPort = true
    · simp only [if_pos busy]
    · simp only [if_neg busy]
      rcases d.lookup port info.protocol.toNat with ⟨_ | old, after⟩
      · rfl
      · dsimp only
        by_cases others : info.mappedStr ≠ old.iaddr ∨ info.intPort ≠ old.iport
        · simp only [if_pos others]
          cases info.pfailurePresent with
          | true => rfl
          | false => rfl
        · simp only [if_neg others]
          by_cases removed : (upnpDeleteRedir env.toEnv port info.protocol.toNat after).1 = 0
          · simp only [if_pos removed]
            rfl
          · simp only [if_neg removed]
            cases info.pfailurePresent with
            | true => rfl
            | false => rfl

theorem searchExtPort_rounds {env : PcpEnv} {info : PcpInfo} :
    SearchRounds (pcpVisit env info) PCP_ERR_NO_RESOURCES (searchExtPort env info) where
  back := by
    intro fuel port any d nonzero
    unfold searchExtPort
    rw [if_pos ⟨nonzero, rfl⟩]
    rfl
  round := by
    intro fuel first port any d nonzero begun ahead
    exact searchExtPort_round nonzero begun ahead

end loops

section table
variable (text : CString) (iport : UInt16) (proto : Int) (nf : Netfilter) (port : UInt16)

/-- The mapping that a lookup of the port comes to. -/
def mappingAt : Option RedirectRule :=
  (mappings nf).find? fun rule => rule.eport = port ∧ rule.proto = proto

/-- The port is free, or mapped to the same client and internal port. -/
def usable : Bool :=
  match mappingAt proto nf port with
  | none => true
  | some rule => text = rule.iaddr ∧ iport = rule.iport

def natPmpPermitted (env : Env) (client : InAddr) : Bool :=
  checkUpnpRuleAgainstPermissions env.upnppermlist port client iport

/-- The permissions are about IPv4 only. -/
def pcpPermitted (env : PcpEnv) (info : PcpInfo) : Bool :=
  ¬ (isV4Mapped info.mappedIp ∧
    checkUpnpRuleAgainstPermissions env.upnppermlist port (v4Of info.mappedIp) info.intPort = false)

/-- The daemon that makes the mapping, without the one that it replaces. -/
def cleared (env : Env) (d : Daemon) : Daemon :=
  match mappingAt proto d.nf port with
  | none => d
  | some _ => (upnpDeleteRedir env port proto d).2

end table

/-- What a search for an external port has to answer, and which ports it may consider. -/
structure FindsFirst (permitted : UInt16 → Bool) (text : CString) (iport : UInt16) (proto : Int)
    (expiry : Nat) (noResources : UInt8) (start : UInt16) (d : Daemon) (considered : List UInt16)
    (result : Search × Daemon) : Prop where
  once : considered.Nodup
  nonzero : 0 ∉ considered
  mapped : ∀ port, (order start).find? (fun p => permitted p && usable text iport proto d.nf p) =
      some port →
    result.1.code = 0 ∧ result.1.eport = port ∧
      HasMapping result.2.nf proto port (inetAddr text) iport expiry
  notAuthorized : result.1.code = 2 ↔ ∀ port, port ≠ 0 → permitted port = false
  exhausted : result.1.code = noResources ↔
    (∃ port, port ≠ 0 ∧ permitted port = true) ∧
      ∀ port, port ≠ 0 → permitted port = true → usable text iport proto d.nf port = false

section table
variable {text : CString} {iport : UInt16} {proto : Int} {port : UInt16} {d : Daemon}

theorem lookup_mapping (quiet : d.nf.Quiet) :
    d.lookup port proto = (mappingAt proto d.nf port, d) := by
  rw [lookup_quiet port quiet proto, mappingAt, mappings, List.find?_map]
  congr 3
  funext e
  simp only [Function.comp, redirectMatches, readRule, Bool.decide_and, eq_comm, Bool.and_comm]

section finds
variable {permitted : UInt16 → Bool} {expiry : Nat} {noResources : UInt8} {start : UInt16}
  {considered : List UInt16} {result : Search × Daemon}

theorem any_permitted (nonzero : start ≠ 0) :
    (order start).any permitted = true ↔ ∃ port, port ≠ 0 ∧ permitted port = true := by
  simp only [List.any_eq_true, mem_order nonzero]

theorem finds_port (apart : noResources ≠ 0 ∧ noResources ≠ 2) (nonzero : start ≠ 0)
    (once : considered.Nodup) (positive : 0 ∉ considered)
    (here : (order start).find? (fun p => permitted p && usable text iport proto d.nf p) =
      some port)
    (code : result.1.code = 0) (eport : result.1.eport = port)
    (mapping : HasMapping result.2.nf proto port (inetAddr text) iport expiry) :
    FindsFirst permitted text iport proto expiry noResources start d considered result := by
  have met := List.find?_some here
  rw [Bool.and_eq_true] at met
  have counted := (mem_order nonzero).mp (List.mem_of_find?_eq_some here)
  constructor
  · exact once
  · exact positive
  · intro other same
    obtain rfl := Option.some.inj (here.symm.trans same)
    exact ⟨code, eport, mapping⟩
  · rw [code]
    constructor
    · intro two
      exact absurd two (by decide)
    · intro none
      exact absurd met.1 (by simp [none port counted])
  · rw [code]
    constructor
    · intro same
      exact absurd same.symm apart.1
    · intro all
      exact absurd met.2 (by simp [all.2 port counted met.1])

theorem finds_none (apart : noResources ≠ 0 ∧ noResources ≠ 2) (nonzero : start ≠ 0)
    (once : considered.Nodup) (positive : 0 ∉ considered)
    (here : (order start).find? (fun p => permitted p && usable text iport proto d.nf p) = none)
    (code : result.1.code = if (order start).any permitted then noResources else 2) :
    FindsFirst permitted text iport proto expiry noResources start d considered result := by
  have missing : ∀ port, port ≠ 0 → permitted port = true →
      usable text iport proto d.nf port = false := by
    intro port counted opened
    have unmet := List.find?_eq_none.mp here port ((mem_order nonzero).mpr counted)
    simpa [opened] using unmet
  have some_permitted : (order start).any permitted = true ↔ _ := any_permitted nonzero
  constructor
  · exact once
  · exact positive
  · intro port found
    rw [here] at found
    simp at found
  · rw [code]
    constructor
    · intro two port counted
      by_contra opened
      rw [Bool.not_eq_false] at opened
      rw [if_pos (some_permitted.mpr ⟨port, counted, opened⟩)] at two
      exact apart.2 two
    · intro none
      apply if_neg
      intro opened
      obtain ⟨port, counted, allowed⟩ := some_permitted.mp opened
      exact absurd allowed (by simp [none port counted])
  · rw [code]
    constructor
    · intro same
      by_cases opened : (order start).any permitted = true
      · exact ⟨some_permitted.mp opened, missing⟩
      · rw [if_neg opened] at same
        exact absurd same.symm apart.2
    · intro some
      exact if_pos (some_permitted.mpr some.1)

/-- A search that tells which ports are permitted and usable finds the first of them. -/
theorem along_finds {visit : Daemon → UInt16 → PortVisit} {made : UInt16 → Search × Daemon}
    (apart : noResources ≠ 0 ∧ noResources ≠ 2) (nonzero : start ≠ 0)
    (tells : Tells visit d permitted (usable text iport proto d.nf) made (order start))
    (mapped : ∀ port, (made port).1.code = 0 ∧ (made port).1.eport = port ∧
      HasMapping (made port).2.nf proto port (inetAddr text) iport expiry) :
    FindsFirst permitted text iport proto expiry noResources start d
      (along visit start (order start) false d).places
      (answer noResources (along visit start (order start) false d).ending) := by
  have inside : (along visit start (order start) false d).places <+: order start :=
    along_places (order start) false d
  have once := inside.sublist.nodup (order_nodup nonzero)
  have positive : 0 ∉ (along visit start (order start) false d).places := by
    intro zero
    exact (mem_order nonzero).mp (inside.subset zero) rfl
  cases here : (order start).find? (fun p => permitted p && usable text iport proto d.nf p) with
  | some port =>
    obtain ⟨code, eport, mapping⟩ := mapped port
    rw [along_found tells here]
    exact finds_port apart nonzero once positive here code eport mapping
  | none =>
    rw [along_exhausted false tells here, Bool.false_or]
    exact finds_none apart nonzero once positive here rfl

end finds

theorem upnpDeleteRedir_opened (env : Env) (quiet : d.nf.Quiet) :
    ¬ (upnpDeleteRedir env port proto d).1 < 0 := by
  rw [upnpDeleteRedir_negative, callsSucceed_quiet 1 quiet]
  simp

theorem upnpDeleteRedir_zero (env : Env) (quiet : d.nf.Quiet) {old : RedirectRule}
    (here : mappingAt proto d.nf port = some old) : (upnpDeleteRedir env port proto d).1 = 0 := by
  have looked : (d.lookup port proto).1 = mappingAt proto d.nf port :=
    congrArg Prod.fst (lookup_mapping quiet)
  rw [lookup_quiet port quiet proto, here] at looked
  obtain ⟨e, first, _⟩ := Option.map_eq_some_iff.mp looked
  simp only [upnpDeleteRedir, deleteRedirectAndFilterRules, iptcCall_quiet quiet, ↓reduceIte]
  cases search : FirstMatch.findFirst (redirectMatches proto port) (d.nf.chain .nat) with
  | none =>
    rw [FirstMatch.find?_of_findFirst_none search] at first
    simp at first
  | some hit =>
    obtain ⟨zero, _⟩ := deleteNatAndFilter_quiet port proto quiet search
    simp only [zero, Int.zero_mul]

theorem upnpRedirectInternal_zero (env : Env) (rhost : Option CString) (eport : UInt16)
    (iaddr : CString) (iport : UInt16) (proto : Int) (desc : CString) (timestamp : Nat)
    (quiet : d.nf.Quiet) (enabled : env.disablePortForwarding = false) :
    (upnpRedirectInternal env rhost eport iaddr iport proto desc timestamp d).1 = 0 := by
  obtain ⟨zero, next, _⟩ := addRedirectRule2_quiet env.enablePortTriggering rhost eport
    iaddr iport proto (some desc) timestamp quiet
  obtain ⟨done, _, _⟩ := addFilterRule2_quiet rhost iaddr iport proto next
  unfold upnpRedirectInternal
  simp only [enabled, Bool.false_eq_true, ↓reduceIte, zero, Int.lt_irrefl, fileAdd_nf, record_nf,
    withNf_nf, done]

theorem cleared_quiet (env : Env) (proto : Int) (port : UInt16) (quiet : d.nf.Quiet) :
    (cleared proto port env d).nf.Quiet := by
  unfold cleared
  split
  · exact quiet
  · exact (upnpDeleteRedir_quiet env port quiet proto).1

end table

section servers
variable {d : Daemon} {port : UInt16}

theorem natPmpVisit_tells {env : Env} {client : InAddr} {iport : UInt16} {proto : Int}
    {lifetime : Nat} {places : List UInt16} (off : env.checkPortinuse = false)
    (quiet : d.nf.Quiet) :
    Tells (natPmpVisit env client iport proto lifetime) d
      (fun port => natPmpPermitted iport port env client)
      (usable (inetNtoa client) iport proto d.nf)
      (fun port => redirectHere env client iport proto lifetime port (cleared proto port env d))
      places := by
  intro port _
  unfold natPmpVisit natPmpPermitted usable cleared
  rw [lookup_mapping quiet]
  simp only [off, Bool.false_eq_true, false_and, ↓reduceIte]
  cases checkUpnpRuleAgainstPermissions env.upnppermlist port client iport with
  | false => rfl
  | true =>
    cases mappingAt proto d.nf port with
    | none => rfl
    | some old =>
      simp only [↓reduceIte, decide_eq_true_eq, if_neg (upnpDeleteRedir_opened env quiet)]

theorem pcpVisit_tells {env : PcpEnv} {info : PcpInfo} {places : List UInt16}
    (off : env.checkPortinuse = false) (quiet : d.nf.Quiet)
    (optional : info.pfailurePresent = false) :
    Tells (pcpVisit env info) d (fun port => pcpPermitted port env info)
      (usable info.mappedStr info.intPort info.protocol.toNat d.nf)
      (fun port => pcpRedirect env info port (cleared info.protocol.toNat port env.toEnv d))
      places := by
  intro port _
  unfold pcpVisit pcpPermitted usable cleared
  dsimp only
  rw [lookup_mapping quiet]
  simp only [off, optional, Bool.false_eq_true, false_and, ↓reduceIte, decide_eq_true_eq]
  by_cases forbidden : isV4Mapped info.mappedIp = true ∧
      checkUpnpRuleAgainstPermissions env.upnppermlist port (v4Of info.mappedIp) info.intPort =
        false
  · rw [if_pos forbidden, if_neg (not_not.mpr forbidden)]
  · rw [if_neg forbidden, if_pos forbidden]
    cases here : mappingAt info.protocol.toNat d.nf port with
    | none => rfl
    | some old =>
      dsimp only
      by_cases others : info.mappedStr ≠ old.iaddr ∨ info.intPort ≠ old.iport
      · have apart : ¬ (info.mappedStr = old.iaddr ∧ info.intPort = old.iport) := by tauto
        simp only [if_pos others, decide_eq_true_eq, if_neg apart]
      · have same : info.mappedStr = old.iaddr ∧ info.intPort = old.iport := by tauto
        simp only [if_neg others, upnpDeleteRedir_zero env.toEnv quiet here, decide_eq_true_eq,
          if_pos same, ↓reduceIte]

theorem natPmp_mapped {env : Env} {client : InAddr} {iport : UInt16} {proto : Int} {lifetime : Nat}
    (byte : isByte proto) (quiet : d.nf.Quiet) (enabled : env.disablePortForwarding = false)
    (port : UInt16) :
    let made := redirectHere env client iport proto lifetime port (cleared proto port env d)
    made.1.code = 0 ∧ made.1.eport = port ∧
      HasMapping made.2.nf proto port (inetAddr (inetNtoa client)) iport
        ((env.clock.upnpTime + lifetime) % 2 ^ 32) := by
  have zero := upnpRedirectInternal_zero env none port (inetNtoa client) iport proto
    (natPmpDesc port proto) ((env.clock.upnpTime + lifetime) % 2 ^ 32)
    (cleared_quiet env proto port quiet) enabled
  have code : (redirectHere env client iport proto lifetime port
      (cleared proto port env d)).1.code = 0 := by
    simp only [redirectHere, zero, Int.lt_irrefl, ↓reduceIte]
  refine ⟨code, rfl, ?_⟩
  rw [inetAddr_inetNtoa]
  exact (redirectHere_mapping byte code _).mpr rfl

theorem pcp_mapped {env : PcpEnv} {info : PcpInfo} (quiet : d.nf.Quiet)
    (enabled : env.disablePortForwarding = false) (port : UInt16) :
    let made := pcpRedirect env info port (cleared info.protocol.toNat port env.toEnv d)
    made.1.code = 0 ∧ made.1.eport = port ∧
      HasMapping made.2.nf info.protocol.toNat port (inetAddr info.mappedStr) info.intPort
        ((env.clock.upnpTime + info.lifetime) % 2 ^ 32) := by
  have zero := upnpRedirectInternal_zero env.toEnv none port info.mappedStr info.intPort
    info.protocol.toNat info.desc ((env.clock.upnpTime + info.lifetime) % 2 ^ 32)
    (cleared_quiet env.toEnv info.protocol.toNat port quiet) enabled
  have described := upnpRedirectInternal_added env.toEnv none port info.mappedStr info.intPort
    info.protocol.toNat info.desc ((env.clock.upnpTime + info.lifetime) % 2 ^ 32)
    (cleared info.protocol.toNat port env.toEnv d) (by omega)
  refine ⟨?_, rfl, ?_⟩
  · simp only [pcpRedirect, zero, Int.lt_irrefl, ↓reduceIte]
    rfl
  · exact (hasMapping_added (isByte_toNat info.protocol) described _).mpr rfl

end servers

section searches
variable {env : PcpEnv} {d : Daemon}

theorem searches_exact {visit : Daemon → UInt16 → PortVisit} {start : UInt16} (nonzero : start ≠ 0)
    (d : Daemon) (o : PortOutcome) :
    Searches nextPort visit none start false d o ↔ o = along visit start (order start) false d := by
  have walk : Searches nextPort visit none start false d
      (along visit start (order start) false d) := searches_order nonzero d
  constructor
  · intro run
    exact searches_unique run walk
  · intro same
    rw [same]
    exact walk

theorem along_order_length {visit : Daemon → UInt16 → PortVisit} {start : UInt16} (d : Daemon) :
    (along visit start (order start) false d).places.length < searchFuel := by
  have inside : (along visit start (order start) false d).places <+: order start :=
    along_places (order start) false d
  have bound := inside.length_le
  have all : (order start).length = 65535 := List.length_iterate _ _ _
  have fuel : searchFuel = 65536 := rfl
  omega

/-- Such a loop, from the port that it starts with. -/
theorem loop_along {visit : Daemon → UInt16 → PortVisit} {noResources : UInt8}
    {loop : Nat → UInt16 → UInt16 → Bool → Daemon → Search × Daemon} {start : UInt16}
    (rounds : SearchRounds visit noResources loop)
    (nonzero : start ≠ 0) :
    loop searchFuel 0 start false d =
      answer noResources (along visit start (order start) false d).ending := by
  have run : Searches nextPort visit none start false d _ := searches_order nonzero d
  have ended := loop_searches rounds run nonzero (by simp) (along_order_length d)
  exact ended

theorem startPort_nonzero {req : List UInt8} (inner : readNU16 req 4 ≠ 0) : startPort req ≠ 0 := by
  unfold startPort
  split
  · exact inner
  · assumption

/-- The loop for this request ends, in one way only, and finds the first port it may. -/
def NatPmpFinds (env : Env) (req : List UInt8) (client : InAddr) (d : Daemon) : Prop :=
  ∃ o, (∀ o', Searches nextPort
      (natPmpVisit env client (readNU16 req 4) (requestProto req) (readNU32 req 8)) none
      (startPort req) false d o' ↔ o' = o) ∧
    mappingRequest env req client d = answer 4 o.ending ∧
    FindsFirst (fun port => natPmpPermitted (readNU16 req 4) port env client) (inetNtoa client)
      (readNU16 req 4) (requestProto req) ((env.clock.upnpTime + readNU32 req 8) % 2 ^ 32) 4
      (startPort req) d o.places (mappingRequest env req client d)

def PcpFinds (env : PcpEnv) (info : PcpInfo) (d : Daemon) : Prop :=
  ∃ o, (∀ o', Searches nextPort (pcpVisit env info) none (wantedPort info) false d o' ↔ o' = o) ∧
    createPCPMapNAT env info d = answer PCP_ERR_NO_RESOURCES o.ending ∧
    FindsFirst (fun port => pcpPermitted port env info) info.mappedStr info.intPort
      info.protocol.toNat ((env.clock.upnpTime + info.lifetime) % 2 ^ 32) PCP_ERR_NO_RESOURCES
      (wantedPort info) d o.places (createPCPMapNAT env info d)

theorem mappingRequest_search {env : Env} {req : List UInt8} {client : InAddr}
    (lasting : readNU32 req 8 ≠ 0) (inner : readNU16 req 4 ≠ 0) :
    mappingRequest env req client d =
      answer 4 (along (natPmpVisit env client (readNU16 req 4) (requestProto req) (readNU32 req 8))
        (startPort req) (order (startPort req)) false d).ending := by
  have searched : mappingRequest env req client d =
      searchPort env client (readNU16 req 4) (requestProto req) (readNU32 req 8) searchFuel 0
        (startPort req) false d := by
    simp only [mappingRequest, if_neg lasting, if_neg inner, requestProto, startPort]
  have nonzero := startPort_nonzero inner
  rw [searched]
  apply loop_along searchPort_rounds nonzero

theorem createPCPMapNAT_search {info : PcpInfo} (nonzero : wantedPort info ≠ 0) :
    createPCPMapNAT env info d =
      answer PCP_ERR_NO_RESOURCES
        (along (pcpVisit env info) (wantedPort info) (order (wantedPort info)) false d).ending := by
  have searched : createPCPMapNAT env info d =
      searchExtPort env info searchFuel 0 (wantedPort info) false d := if_neg nonzero
  rw [searched]
  apply loop_along searchExtPort_rounds nonzero

/-- When the ports are not checked for listeners and no libiptc call fails, both servers find
    the first port that is permitted and not mapped to someone else. -/
theorem external_ports_found (off : env.checkPortinuse = false) (quiet : d.nf.Quiet)
    (enabled : env.disablePortForwarding = false) :
    (∀ req client, readNU32 req 8 ≠ 0 → readNU16 req 4 ≠ 0 →
        NatPmpFinds env.toEnv req client d) ∧
      ∀ info, info.pfailurePresent = false → wantedPort info ≠ 0 → PcpFinds env info d := by
  constructor
  · intro req client lasting inner
    have nonzero := startPort_nonzero inner
    have byte : isByte (requestProto req) := by
      unfold requestProto
      split
      · decide
      · decide
    refine ⟨_, searches_exact nonzero d, mappingRequest_search lasting inner, ?_⟩
    rw [mappingRequest_search lasting inner]
    exact along_finds (by decide) nonzero (natPmpVisit_tells off quiet)
      (natPmp_mapped byte quiet enabled)
  · intro info optional nonzero
    refine ⟨_, searches_exact nonzero d, createPCPMapNAT_search nonzero, ?_⟩
    rw [createPCPMapNAT_search nonzero]
    exact along_finds (by decide) nonzero (pcpVisit_tells off quiet optional)
      (pcp_mapped quiet enabled)

end searches

/-- A PCP request for a mapping to port 80 of the client, with the same external port. -/
def webInfo : PcpInfo :=
  { PcpInfo.received (v4Mapped hourClient) with
    lifetime := 3600
    protocol := 6
    intPort := 80
    mappedIp := v4Mapped hourClient
    mappedStr := inetNtoa hourClient }

def webEnv : PcpEnv := (PcpPinholes.plainPinholes 1000).toPcpEnv

theorem external_ports_found_web :
    NatPmpFinds webEnv.toEnv hourRequest hourClient (Daemon.start none) ∧
      PcpFinds webEnv webInfo (Daemon.start none) := by
  have off : webEnv.checkPortinuse = false := rfl
  have quiet : (Daemon.start none).nf.Quiet := rfl
  have found := external_ports_found off quiet rfl
  exact ⟨found.1 hourRequest hourClient (by decide) (by decide), found.2 webInfo rfl (by decide)⟩

end ExternalPortSearch
