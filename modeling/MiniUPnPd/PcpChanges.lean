import MiniUPnPd.Lib.FirstStop
import MiniUPnPd.PcpMappings

/-!
What PCP requests change. A round of the search for an external port, and a removal, work
on the redirections under one key, the external port and the protocol. The search is a walk
over the external ports that stops after all of them.
-/
namespace PcpChanges
open DaemonRules FirstStop Mappings CText Inet Iptc Iptcrdr IptcrdrSpec NatPmp PcpMappings
  PcpServer RuleKeys UpnpPermissions UpnpRedirect UpnpRedirectSpec

section keys
variable {nf nf' nf'' : Netfilter} {eport : UInt16} {proto : Int}

/-- The same redirections with the same descriptions. -/
def SameRules (nf nf' : Netfilter) : Prop :=
  nf'.chain .nat = nf.chain .nat ∧ nf'.rdrDescList = nf.rdrDescList

/-- The redirections under other keys are the same, and so are their descriptions. -/
structure KeyOnly (eport : UInt16) (proto : Int) (nf nf' : Netfilter) : Prop where
  rules : (nf'.chain .nat).filter (fun e => !redirectMatches proto eport e) =
    (nf.chain .nat).filter (fun e => !redirectMatches proto eport e)
  descs : ∀ eport' proto', 0 ≤ proto' → proto' < 65536 → ¬ (eport' = eport ∧ proto' = proto) →
    getRedirectDesc eport' proto' nf' = getRedirectDesc eport' proto' nf

theorem keyOnly_same (same : SameRules nf nf') : KeyOnly eport proto nf nf' := by
  obtain ⟨nat, descs⟩ := same
  constructor
  · rw [nat]
  · intro eport' proto' _ _ _
    simp only [getRedirectDesc, descs]

theorem keyOnly_trans (first : KeyOnly eport proto nf nf') (second : KeyOnly eport proto nf' nf'') :
    KeyOnly eport proto nf nf'' := by
  constructor
  · exact second.rules.trans first.rules
  · intro eport' proto' low high other
    exact (second.descs eport' proto' low high other).trans (first.descs eport' proto' low high other)

theorem getRedirectDesc_erased (low : 0 ≤ proto) (high : proto < 65536) {eport' : UInt16}
    {proto' : Int} (low' : 0 ≤ proto') (high' : proto' < 65536)
    (other : ¬ (eport' = eport ∧ proto' = proto))
    (descs : nf'.rdrDescList = nf.rdrDescList.eraseP (descMatches eport proto)) :
    getRedirectDesc eport' proto' nf' = getRedirectDesc eport' proto' nf := by
  have found := FirstMatch.find?_eraseP_other (l := nf.rdrDescList) (p := descMatches eport proto)
    (q := fun p => p.eport = eport' ∧ p.proto = Int16.ofInt proto') (by
      intro p hit
      simp only [Bool.decide_and, Bool.and_eq_true, decide_eq_true_eq] at hit
      by_contra also
      simp only [descMatches, Bool.decide_and, Bool.not_eq_false, Bool.and_eq_true,
        decide_eq_true_eq] at also
      apply other
      refine ⟨hit.1.symm.trans also.1, ?_⟩
      apply ofInt_inj_word low' high' low high
      rw [← hit.2, ← also.2, Int16.ofInt_toInt])
  simp only [getRedirectDesc, descs, found]

theorem keyOnly_removed (low : 0 ≤ proto) (high : proto < 65536) (env : Env) (d : Daemon) :
    KeyOnly eport proto d.nf (upnpDeleteRedir env eport proto d).2.nf := by
  obtain ⟨_, descs, nat⟩ := upnpDeleteRedir_exact env eport proto d
  rw [tables_nat] at nat
  rw [tables_descs] at descs
  constructor
  · rw [nat]
    split
    · cases found : (d.nf.chain .nat).find? (redirectMatches proto eport) with
      | none => rw [FirstMatch.eraseP_of_find?_none found]
      | some e =>
        apply FirstMatch.filter_eraseP found
        simpa using List.find?_some found
    · rfl
  · intro eport' proto' low' high' other
    by_cases opened : callsSucceed 1 d.nf.iptcResults = true
    · rw [if_pos opened] at descs
      exact getRedirectDesc_erased low high low' high' other descs
    · rw [if_neg opened] at descs
      simp only [getRedirectDesc, descs]

theorem keyOnly_described (byte : isByte proto) {rhost : Option CString} {iaddr desc : CString}
    {iport : UInt16} {timestamp : Nat} {d d' : Daemon}
    (described : Described rhost eport iaddr iport proto desc timestamp d d') :
    KeyOnly eport proto d.nf d'.nf := by
  obtain ⟨nat, descs⟩ := described
  rw [tables_nat] at nat
  rw [tables_descs] at descs
  have key := natRule_key rhost eport iaddr iport byte
  have hit : redirectMatches proto eport (natRule proto eport iaddr iport rhost) = true :=
    (redirectMatches_iff _).mpr ⟨key.2.symm, key.1.symm⟩
  constructor
  · rw [nat, describe, List.filter_append]
    simp [hit]
  · intro eport' proto' low high other
    have miss : ¬ (eport = eport' ∧ Int16.ofInt proto = Int16.ofInt proto') := by
      rintro ⟨rfl, same⟩
      obtain ⟨low', high'⟩ := byte
      exact other ⟨rfl, (ofInt_inj_word low' (by omega) low high same).symm⟩
    simp only [getRedirectDesc, descs, describe, List.find?_cons, miss, decide_false,
      tables_descs]

/-- A rule under another key is read as before. -/
theorem readRule_other (only : KeyOnly eport proto nf nf') {e : IptEntry}
    (other : redirectMatches proto eport e = false) : readRule nf' e = readRule nf e := by
  have key : ¬ (e.dpts.1 = eport ∧ (e.proto.toNat : Int) = proto) := by
    rintro ⟨port, protocol⟩
    have hit := (redirectMatches_iff e).mpr ⟨protocol.symm, port.symm⟩
    rw [hit] at other
    exact absurd other (by decide)
  have small := e.proto.toNat_lt
  simp only [readRule, only.descs e.dpts.1 e.proto.toNat (by omega) (by omega) key]

/-- A mapping under another key stays. -/
theorem mapping_other (only : KeyOnly eport proto nf nf') {rule : RedirectRule}
    (member : rule ∈ mappings nf) (other : ¬ (rule.eport = eport ∧ rule.proto = proto)) :
    rule ∈ mappings nf' := by
  obtain ⟨e, inside, rfl⟩ := List.mem_map.mp member
  have miss : redirectMatches proto eport e = false := by
    by_contra hit
    rw [Bool.not_eq_false, redirectMatches_iff] at hit
    exact other ⟨hit.2.symm, hit.1.symm⟩
  rw [← readRule_other only miss]
  apply List.mem_map_of_mem
  have kept : e ∈ (nf'.chain .nat).filter (fun e => !redirectMatches proto eport e) := by
    rw [only.rules]
    exact List.mem_filter.mpr ⟨inside, by simp [miss]⟩
  exact (List.mem_filter.mp kept).1

/-- Mappings under one key have one description. -/
theorem mapping_described {rule : RedirectRule} (member : rule ∈ mappings nf) :
    0 ≤ rule.proto ∧ rule.proto < 65536 ∧
      (rule.desc, rule.timestamp) = getRedirectDesc rule.eport rule.proto nf := by
  obtain ⟨e, _, rfl⟩ := List.mem_map.mp member
  have small := e.proto.toNat_lt
  have protocol : (readRule nf e).proto = e.proto.toNat := rfl
  refine ⟨by omega, by omega, rfl⟩

theorem mappings_same (same : SameRules nf nf') : mappings nf' = mappings nf := by
  obtain ⟨nat, descs⟩ := same
  unfold mappings
  rw [nat]
  apply List.map_congr_left
  intro e _
  simp only [readRule, getRedirectDesc, descs]

end keys

section rounds
variable (env : PcpEnv) (info : PcpInfo)

/-- The port is permitted and free, so that its redirection is looked up. -/
def looks (port : UInt16) : Prop :=
  ¬ (isV4Mapped info.mappedIp ∧
    checkUpnpRuleAgainstPermissions env.upnppermlist port (v4Of info.mappedIp) info.intPort = false) ∧
  ¬ (env.checkPortinuse ∧ env.portInUse port info.protocol.toNat info.mappedStr info.intPort)

instance (port : UInt16) : Decidable (looks env info port) := by
  unfold looks
  infer_instance

def Others (old : RedirectRule) : Prop := info.mappedStr ≠ old.iaddr ∨ info.intPort ≠ old.iport

instance (old : RedirectRule) : Decidable (Others info old) := by
  unfold Others
  infer_instance

def redirectAt (port : UInt16) (d : Daemon) : Daemon :=
  (upnpRedirectInternal env.toEnv none port info.mappedStr info.intPort info.protocol.toNat
    info.desc ((env.clock.upnpTime + info.lifetime) % 2 ^ 32) d).2

/-- What a round does at a port, and whether the search goes on after it. -/
def tryPort (s : Daemon × UInt16) : Bool × Daemon :=
  if looks env info s.2 then
    match s.1.lookup s.2 info.protocol.toNat with
    | (none, d) => (false, redirectAt env info s.2 d)
    | (some old, d) =>
        if Others info old then (!info.pfailurePresent, d)
        else
          let (r, d) := upnpDeleteRedir env.toEnv s.2 info.protocol.toNat d
          if r = 0 then (false, redirectAt env info s.2 d) else (!info.pfailurePresent, d)
  else
    (!(info.pfailurePresent && isV4Mapped info.mappedIp &&
      !checkUpnpRuleAgainstPermissions env.upnppermlist s.2 (v4Of info.mappedIp) info.intPort),
      s.1)

def goesOn (s : Daemon × UInt16) : Bool := (tryPort env info s).1

def move (s : Daemon × UInt16) : Daemon × UInt16 := ((tryPort env info s).2, nextPort s.2)

/-- The port that the search starts with. -/
def wantedPort : UInt16 := if info.extPort = 0 then info.intPort else info.extPort

/-- The rounds of a search that starts in this state. -/
def rounds (d : Daemon) : List (Daemon × UInt16) :=
  if wantedPort info = 0 then []
  else visited (goesOn env info) (move env info) 65535 (d, wantedPort info)

end rounds

section search
variable {env : PcpEnv} {info : PcpInfo}

theorem searchExtPort_round (fuel : Nat) (first port : UInt16) (any : Bool) (d : Daemon)
    (ahead : ¬ (first ≠ 0 ∧ port = first)) :
    ∃ any', (searchExtPort env info (fuel + 1) first port any d).2 =
      if goesOn env info (d, port) then
        (searchExtPort env info fuel (if first = 0 then port else first) (nextPort port) any'
          (move env info (d, port)).1).2
      else (move env info (d, port)).1 := by
  generalize rest : searchExtPort env info fuel = next
  unfold searchExtPort
  rw [if_neg ahead, rest]
  dsimp only
  generalize (if first = 0 then port else first) = start
  by_cases denied : isV4Mapped info.mappedIp = true ∧
      checkUpnpRuleAgainstPermissions env.upnppermlist port (v4Of info.mappedIp) info.intPort = false
  · have blind : ¬ looks env info port := fun look => look.1 denied
    rw [if_pos denied]
    simp only [goesOn, move, tryPort, if_neg blind, denied]
    cases info.pfailurePresent with
    | true => exact ⟨any, by simp⟩
    | false => exact ⟨any, by simp⟩
  · rw [if_neg denied]
    by_cases busy : env.checkPortinuse = true ∧
        env.portInUse port info.protocol.toNat info.mappedStr info.intPort = true
    · have blind : ¬ looks env info port := fun look => look.2 busy
      rw [if_pos busy]
      have onward : (!(info.pfailurePresent && isV4Mapped info.mappedIp &&
          !checkUpnpRuleAgainstPermissions env.upnppermlist port (v4Of info.mappedIp)
            info.intPort)) = true := by
        by_contra stops
        simp only [Bool.not_eq_true', Bool.not_eq_false, Bool.and_eq_true] at stops
        simp only [stops.1.2, true_and] at denied
        simp [denied] at stops
      simp only [goesOn, move, tryPort, if_neg blind, onward, ↓reduceIte]
      exact ⟨true, rfl⟩
    · have look : looks env info port := ⟨denied, busy⟩
      rw [if_neg busy]
      have cases_eq : tryPort env info (d, port) = _ := if_pos look
      simp only [goesOn, move, cases_eq]
      rcases d.lookup port info.protocol.toNat with ⟨_ | old, after⟩
      · exact ⟨any, rfl⟩
      · dsimp only [redirectAt]
        by_cases others : Others info old
        · have differs : info.mappedStr ≠ old.iaddr ∨ info.intPort ≠ old.iport := others
          simp only [if_pos differs, if_pos others]
          cases info.pfailurePresent with
          | true => exact ⟨true, rfl⟩
          | false => exact ⟨true, rfl⟩
        · have agrees : ¬ (info.mappedStr ≠ old.iaddr ∨ info.intPort ≠ old.iport) := others
          simp only [if_neg agrees, if_neg others]
          by_cases done : (upnpDeleteRedir env.toEnv port info.protocol.toNat after).1 = 0
          · simp only [if_pos done]
            exact ⟨any, rfl⟩
          · simp only [if_neg done]
            cases info.pfailurePresent with
            | true => exact ⟨true, rfl⟩
            | false => exact ⟨true, rfl⟩

/-- With `fuel + 1` rounds to go the search is `fuel` ports before the one it started from. -/
theorem searchExtPort_final (fuel : Nat) (first port : UInt16) (any : Bool) (d : Daemon)
    (nonzero : port ≠ 0) (fresh : first = 0 → fuel = 65535) (started : first ≠ 0 → fuel < 65535)
    (ahead : nextPort^[fuel] port = if first = 0 then port else first) :
    (searchExtPort env info (fuel + 1) first port any d).2 =
      (final (goesOn env info) (move env info) fuel (d, port)).1 := by
  induction fuel generalizing first port any d with
  | zero =>
    have other : first ≠ 0 := by
      intro zero
      have := fresh zero
      omega
    simp only [other, ↓reduceIte, Function.iterate_zero, id_eq] at ahead
    unfold searchExtPort
    rw [if_pos ⟨other, ahead⟩]
    rfl
  | succ fuel ih =>
    have apart : ¬ (first ≠ 0 ∧ port = first) := by
      rintro ⟨other, back⟩
      have near := started other
      rw [if_neg other, ← back] at ahead
      have value := (nextPort_iterate nonzero (fuel + 1)).1
      rw [ahead] at value
      have small := port.toNat_lt
      have positive := toNat_pos nonzero
      omega
    obtain ⟨any', round⟩ := searchExtPort_round fuel.succ first port any d apart
    rw [round, final]
    split
    · have startNonzero : (if first = 0 then port else first) ≠ 0 := by
        split
        · exact nonzero
        · assumption
      generalize (if first = 0 then port else first) = start at ahead startNonzero ⊢
      apply ih start (nextPort port) any' _ (nextPort_nonzero port)
      · exact fun zero => absurd zero startNonzero
      · intro _
        by_cases zero : first = 0
        · have := fresh zero
          omega
        · have := started zero
          omega
      · rw [if_neg startNonzero, ← ahead, Function.iterate_succ_apply]
    · rfl

theorem createPCPMapNAT_final (d : Daemon) :
    (createPCPMapNAT env info d).2 =
      if wantedPort info = 0 then d
      else (final (goesOn env info) (move env info) 65535 (d, wantedPort info)).1 := by
  have searched : createPCPMapNAT env info d =
      if wantedPort info = 0 then ({ code := PCP_ERR_MALFORMED_REQUEST, eport := wantedPort info }, d)
      else searchExtPort env info searchFuel 0 (wantedPort info) false d := rfl
  rw [searched]
  split
  · rfl
  · rename_i nonzero
    exact searchExtPort_final 65535 0 (wantedPort info) false d nonzero (fun _ => rfl)
      (fun zero => absurd rfl zero) (nextPort_cycle nonzero)

/-- What each round keeps, a request for a mapping keeps. -/
theorem createPCPMapNAT_keeps {holds : Daemon → Prop} {d : Daemon} (start : holds d)
    (kept : ∀ s ∈ rounds env info d, holds s.1 → holds (tryPort env info s).2) :
    holds (createPCPMapNAT env info d).2 := by
  rw [createPCPMapNAT_final]
  unfold rounds at kept
  split
  · exact start
  · rename_i nonzero
    rw [if_neg nonzero] at kept
    exact @final_keeps _ (move env info) (d, wantedPort info) (goesOn env info)
      (fun s => holds s.1) 65535 start kept

end search

section effects
variable (env : PcpEnv) (info : PcpInfo)

/-- The round changes redirections: it adds one or removes one, and libiptc lets it. -/
def Touches (s : Daemon × UInt16) : Prop :=
  looks env info s.2 ∧
    match s.1.lookup s.2 info.protocol.toNat with
    | (none, d) => Enters env.toEnv d
    | (some old, d) => ¬ Others info old ∧ callsSucceed 1 d.nf.iptcResults = true

end effects

section effects
variable {env : PcpEnv} {info : PcpInfo} {s : Daemon × UInt16}

theorem redirectAt_entered (info : PcpInfo) (port : UInt16) {d : Daemon}
    (enters : Enters env.toEnv d) :
    Described none port info.mappedStr info.intPort info.protocol.toNat info.desc
      ((env.clock.upnpTime + info.lifetime) % 2 ^ 32) d (redirectAt env info port d) :=
  upnpRedirectInternal_entered env.toEnv none port info.mappedStr info.intPort _ info.desc _ d enters

theorem redirectAt_refused (info : PcpInfo) (port : UInt16) {d : Daemon}
    (refused : ¬ Enters env.toEnv d) :
    SameRules d.nf (redirectAt env info port d).nf := by
  have untouched := upnpRedirectInternal_refused env.toEnv none port info.mappedStr info.intPort
    info.protocol.toNat info.desc ((env.clock.upnpTime + info.lifetime) % 2 ^ 32) d refused
  exact ⟨untouched.1, untouched.2.1⟩

theorem redirectAt_key (port : UInt16) (d : Daemon) :
    KeyOnly port info.protocol.toNat d.nf (redirectAt env info port d).nf := by
  by_cases enters : Enters env.toEnv d
  · exact keyOnly_described (isByte_toNat info.protocol) (redirectAt_entered info port enters)
  · exact keyOnly_same (redirectAt_refused info port enters)

theorem removed_key (env : PcpEnv) (info : PcpInfo) (port : UInt16) (d : Daemon) :
    KeyOnly port info.protocol.toNat d.nf
      (upnpDeleteRedir env.toEnv port info.protocol.toNat d).2.nf := by
  obtain ⟨low, high⟩ := isByte_toNat info.protocol
  exact keyOnly_removed low (by omega) env.toEnv d

theorem lookup_same (d : Daemon) (port : UInt16) (proto : Int) :
    SameRules d.nf (d.lookup port proto).2.nf := lookup_tables d port proto

/-- A round works on one key. -/
theorem tryPort_key (s : Daemon × UInt16) :
    KeyOnly s.2 info.protocol.toNat s.1.nf (tryPort env info s).2.nf := by
  have looked : KeyOnly s.2 info.protocol.toNat s.1.nf _ :=
    keyOnly_same (lookup_same s.1 s.2 info.protocol.toNat)
  unfold tryPort
  split
  · rcases seen : s.1.lookup s.2 info.protocol.toNat with ⟨_ | old, after⟩
    · rw [seen] at looked
      exact keyOnly_trans looked (redirectAt_key s.2 after)
    · rw [seen] at looked
      dsimp only
      split
      · exact looked
      · have removed := keyOnly_trans looked (removed_key env info s.2 after)
        split
        · exact keyOnly_trans removed (redirectAt_key s.2 _)
        · exact removed
  · exact keyOnly_same ⟨rfl, rfl⟩

theorem same_trans {nf nf' nf'' : Netfilter} (first : SameRules nf nf') (second : SameRules nf' nf'') :
    SameRules nf nf'' := ⟨second.1.trans first.1, second.2.trans first.2⟩

theorem removed_refused (env : PcpEnv) {port : UInt16} {proto : Int} {d : Daemon}
    (refused : callsSucceed 1 d.nf.iptcResults = false) :
    (upnpDeleteRedir env.toEnv port proto d).1 < 0 ∧
      SameRules d.nf (upnpDeleteRedir env.toEnv port proto d).2.nf := by
  have negative := (upnpDeleteRedir_negative env.toEnv port proto d).mpr refused
  exact ⟨negative, upnpDeleteRedir_refused env.toEnv port proto d negative⟩

/-- A round that touches nothing leaves the redirections as they are. -/
theorem tryPort_untouched (untouched : ¬ Touches env info s) :
    SameRules s.1.nf (tryPort env info s).2.nf := by
  have looked := lookup_same s.1 s.2 info.protocol.toNat
  unfold Touches at untouched
  unfold tryPort
  split
  · rename_i look
    simp only [look, true_and] at untouched
    rcases seen : s.1.lookup s.2 info.protocol.toNat with ⟨_ | old, after⟩
    · simp only [seen] at untouched looked ⊢
      exact same_trans looked (redirectAt_refused info s.2 untouched)
    · simp only [seen] at untouched looked ⊢
      split
      · exact looked
      · rename_i own
        have refused : callsSucceed 1 after.nf.iptcResults = false := by
          by_contra opened
          exact untouched ⟨own, by simpa using opened⟩
        obtain ⟨negative, same⟩ :=
          @removed_refused env s.2 info.protocol.toNat after refused
        rw [if_neg (by omega)]
        exact same_trans looked same
  · exact ⟨rfl, rfl⟩

end effects

section removal
variable {env : PcpEnv} {info : PcpInfo}

theorem getRedirectRuleByIndex_same (index : Int) (nf : Netfilter) :
    SameRules nf (getRedirectRuleByIndex index nf).2 := by
  obtain ⟨done, results, calls⟩ := iptcCalls_cases 2 nf
  unfold getRedirectRuleByIndex
  rw [calls]
  exact ⟨rfl, rfl⟩

theorem getRedirectRuleByIndex_mem {index : Int} {nf : Netfilter} {rule : RedirectRule}
    (found : (getRedirectRuleByIndex index nf).1 = some rule) : rule ∈ mappings nf := by
  obtain ⟨done, results, calls⟩ := iptcCalls_cases 2 nf
  unfold getRedirectRuleByIndex at found
  rw [calls] at found
  dsimp only at found
  split at found
  · obtain ⟨e, here, rfl⟩ := Option.map_eq_some_iff.mp found
    exact List.mem_map_of_mem (List.mem_of_getElem? here)
  · simp at found

/-- The search for the client's redirection changes nothing. -/
theorem findMapping_same (fuel index : Nat) (d : Daemon) :
    SameRules d.nf (findMapping info fuel index d).2.nf := by
  induction fuel generalizing index d with
  | zero => exact ⟨rfl, rfl⟩
  | succ fuel ih =>
    have read := getRedirectRuleByIndex_same index d.nf
    unfold findMapping
    rcases seen : getRedirectRuleByIndex index d.nf with ⟨_ | rule, nf⟩
    · rw [seen] at read
      exact read
    · rw [seen] at read
      dsimp only
      split
      · exact read
      · exact same_trans read (ih (index + 1) (d.withNf nf))

theorem findMapping_found {fuel index : Nat} {d : Daemon} {rule : RedirectRule}
    (found : (findMapping info fuel index d).1 = some rule) :
    rule ∈ mappings d.nf ∧ isClients info rule.iaddr rule.iport rule.proto = true := by
  induction fuel generalizing index d with
  | zero => simp [findMapping] at found
  | succ fuel ih =>
    have read := getRedirectRuleByIndex_same index d.nf
    have listed := @getRedirectRuleByIndex_mem index d.nf
    unfold findMapping at found
    rcases seen : getRedirectRuleByIndex index d.nf with ⟨_ | first, nf⟩
    · simp [seen] at found
    · rw [seen] at found read listed
      dsimp only at found
      split at found
      · rename_i clients
        obtain rfl := Option.some.inj found
        exact ⟨listed rfl, clients⟩
      · have rest := ih found
        rw [withNf_nf, mappings_same read] at rest
        exact rest

/-- What a request for a removal does to the redirections, when it finds its own. -/
theorem deletePCPMap_nat (nat : info.isFw = false) (d : Daemon) :
    (deletePCPMap env info d).2 =
      match findMapping info ((d.nf.chain .nat).length + 1) 0 d with
      | (none, d) => d
      | (some rule, d) =>
          if rule.desc ≠ info.desc then d else (upnpDeleteRedir env.toEnv rule.eport rule.proto d).2 := by
  unfold deletePCPMap
  simp only [nat, Bool.false_eq_true, ↓reduceIte]
  rcases findMapping info ((d.nf.chain .nat).length + 1) 0 d with ⟨_ | rule, after⟩
  · rfl
  · dsimp only
    split <;> rfl

theorem deletePCPMap_fw (fw : info.isFw = true) (d : Daemon) : (deletePCPMap env info d).2 = d := by
  unfold deletePCPMap
  simp only [fw, ↓reduceIte]
  split
  · rfl
  · split <;> rfl

theorem createPCPMap_fw (fw : info.isFw = true) (d : Daemon) : (createPCPMap env info d).2 = d := by
  simp only [createPCPMap, fw, ↓reduceIte]

theorem createPCPMap_nat (nat : info.isFw = false) (d : Daemon) :
    (createPCPMap env info d).2 = (createPCPMapNAT env info d).2 := by
  simp only [createPCPMap, nat, Bool.false_eq_true, ↓reduceIte]

end removal

end PcpChanges
