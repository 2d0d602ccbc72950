import MiniUPnPd.LeaseReload
import MiniUPnPd.MappingTable

/-!
The mappings over a restart, in the builds whose lease file stores remaining times. At the end the
daemon writes the file anew from the rules that it finds, and at the start it asks for each line
again. The rules may be gone by then, after a reboot, or still be there, with their descriptions and
leases lost: these are in the memory of the daemon alone.
-/
namespace LeaseRestart
open CText FirstMatch Inet Iptc Iptcrdr IptcrdrSpec LeaseFile LeaseReload MappingTable RuleKeys
open Runs UpnpPermissions UpnpRedirect UpnpRedirectSpec

/-- What `%s` prints of the buffer of 64 bytes. A longer description leaves no NUL in it, and what
    is behind it is printed too. -/
def shownDesc (behind desc : CString) : CString :=
  if desc.length < 64 then desc else desc.take 64 ++ behind

/-- The loop of `lease_file_rewrite`, from index `i` on. -/
def rewriteRules (env : Env) (behind : Nat → CString) : (fuel i : Nat) → Daemon → Daemon
  | 0, _, d => d
  | fuel + 1, i, d =>
      match getRedirectRuleByIndex i d.nf with
      | (none, nf) => d.withNf nf
      | (some rule, nf) =>
          rewriteRules env behind fuel (i + 1)
            (fileAdd env rule.eport rule.iaddr rule.iport rule.proto
              (shownDesc (behind i) rule.desc) rule.timestamp (d.withNf nf))

/-- A build with the lease file, which stores remaining times. -/
def Rewrites (env : Env) : Prop :=
  env.enableLeasefile = true ∧ env.clock.leasefileUseRemainingTime = true

instance (env : Env) : Decidable (Rewrites env) := inferInstanceAs (Decidable (_ ∧ _))

def leaseFileRewrite (env : Env) (behind : Nat → CString) (d : Daemon) : Daemon :=
  if Rewrites env then
    rewriteRules env behind ((d.nf.chain .nat).length + 1) 0 { d with leaseFile := none }
  else d

section rewriting
variable {env : Env} {d : Daemon}

def ruleRecord (env : Env) (nf : Netfilter) (e : IptEntry) : Record :=
  let (desc, timestamp) := getRedirectDesc e.dpts.1 e.proto.toNat nf
  { proto := e.proto.toNat
    eport := e.dpts.1
    client := e.target.minIp
    iport := e.target.minAll
    desc
    timestamp
    upnpTime := env.clock.upnpTime
    unixTime := env.clock.unixTime }

/-- The protocol has a name in the file. The descriptions fit into the buffer and on a line, and
    the timestamps into 32 bits. -/
structure Writable (nf : Netfilter) : Prop where
  protocols : ∀ e ∈ nf.chain .nat,
    (e.proto.toNat : Int) ∈ [IPPROTO_TCP, IPPROTO_UDP, IPPROTO_UDPLITE]
  lengths : ∀ p ∈ nf.rdrDescList, p.str.length < 64
  texts : ∀ p ∈ nf.rdrDescList, '\n' ∉ p.str ∧ '\x00' ∉ p.str
  timestamps : ∀ p ∈ nf.rdrDescList, p.timestamp < 2 ^ 32

theorem getRedirectDesc_any {P : CString → Nat → Prop} {nf : Netfilter}
    (listed : ∀ p ∈ nf.rdrDescList, P p.str p.timestamp) (default : P "miniupnpd".toList 0)
    (eport : UInt16) (proto : Int) :
    P (getRedirectDesc eport proto nf).1 (getRedirectDesc eport proto nf).2 := by
  unfold getRedirectDesc
  split
  · rename_i p found
    exact listed p (List.mem_of_find?_eq_some found)
  · exact default

theorem recorded_rule {nf : Netfilter} (writable : Writable nf) (e : IptEntry) :
    Recorded (ruleRecord env nf e) := by
  have both := @getRedirectDesc_any (fun desc timestamp => timestamp < 2 ^ 32 ∧ '\x00' ∉ desc) nf
    (fun p member => ⟨writable.timestamps p member, (writable.texts p member).2⟩) (by decide)
    e.dpts.1 e.proto.toNat
  exact ⟨both.1, both.2⟩

theorem rewriteRules_eq (rewrites : Rewrites env) (behind : Nat → CString) (quiet : d.nf.Quiet)
    (lengths : ∀ p ∈ d.nf.rdrDescList, p.str.length < 64) (fuel i : Nat)
    (enough : (d.nf.chain .nat).length < fuel + i) :
    rewriteRules env behind fuel i d =
      { d with
        leaseFile := (((d.nf.chain .nat).drop i).map (ruleRecord env d.nf)).foldl
          (fun file r => leaseFileAdd (r.clock true) r.eport (inetNtoa r.client) r.iport r.proto
            r.desc r.timestamp file) d.leaseFile } := by
  obtain ⟨enabled, remaining⟩ := rewrites
  induction fuel generalizing i d with
  | zero =>
    have past : (d.nf.chain .nat).drop i = [] := List.drop_eq_nil_iff.mpr (by omega)
    rw [rewriteRules, past]
    rfl
  | succ fuel ih =>
    rw [rewriteRules, getRedirectRuleByIndex_quiet quiet]
    cases here : (d.nf.chain .nat)[i]? with
    | none =>
      have past : (d.nf.chain .nat).drop i = [] :=
        List.drop_eq_nil_iff.mpr (List.getElem?_eq_none_iff.mp here)
      rw [past]
      rfl
    | some e =>
      have split : (d.nf.chain .nat).drop i = e :: (d.nf.chain .nat).drop (i + 1) := by
        obtain ⟨bound, value⟩ := List.getElem?_eq_some_iff.mp here
        rw [List.drop_eq_getElem_cons bound, value]
      have short : (readRule d.nf e).desc.length < 64 := by
        apply @getRedirectDesc_any (fun desc _ => desc.length < 64) d.nf lengths
        decide
      have clock : (ruleRecord env d.nf e).clock true = env.clock := by
        simp only [Record.clock, ruleRecord, ← remaining]
      simp only [Option.map_some, shownDesc, if_pos short, fileAdd, if_pos enabled]
      rw [ih (by exact quiet) (by exact lengths) (i + 1) (by dsimp only [withNf_nf]; omega), split,
        List.map_cons, List.foldl_cons, clock]
      rfl

/-- The file holds a line for each rule, in the order of the rules. -/
theorem leaseFileRewrite_file (rewrites : Rewrites env) (behind : Nat → CString)
    (quiet : d.nf.Quiet) (lengths : ∀ p ∈ d.nf.rdrDescList, p.str.length < 64) :
    leaseFileRewrite env behind d =
      { d with leaseFile := recordAll true ((d.nf.chain .nat).map (ruleRecord env d.nf)) } := by
  have written := @rewriteRules_eq env { d with leaseFile := none } rewrites behind quiet lengths
    ((d.nf.chain .nat).length + 1) 0 (by dsimp only; omega)
  unfold leaseFileRewrite
  rw [if_pos rewrites, written]
  rfl

end rewriting

section reading
variable {env env' : Env} {nf : Netfilter} {d : Daemon} {e : IptEntry}

/-- A description that fits into the buffer of `lease_file_rewrite` is read back in one piece: the
    fields before it take at most 49 characters of the 127. -/
theorem leftover_blank (writable : Writable nf) (e : IptEntry) :
    (ruleRecord env nf e).leftover true = [] := by
  have recorded := @recorded_rule env nf writable e
  have short : (ruleRecord env nf e).desc.length < 64 := by
    apply @getRedirectDesc_any (fun desc _ => desc.length < 64) nf writable.lengths
    decide
  have oneLine : '\n' ∉ (ruleRecord env nf e).desc := by
    apply @getRedirectDesc_any (fun desc _ => '\n' ∉ desc) nf
      (fun p member => (writable.texts p member).1)
    decide
  have head := @head_length (ruleRecord env nf e) true recorded
  rw [Record.leftover, fgets_front oneLine (by omega)]
  obtain ⟨room, left⟩ : ∃ room, 127 - ((ruleRecord env nf e).head true).length -
      (ruleRecord env nf e).desc.length = room + 1 := Nat.exists_eq_succ_of_ne_zero (by omega)
  rw [left]
  rfl

/-- The request that a rule is asked for again with. -/
def asked (env : Env) (nf : Netfilter) (e : IptEntry) : Reloaded :=
  { rhost := none
    proto := e.proto.toNat
    eport := e.dpts.1
    iaddr := inetNtoa e.target.minIp
    iport := e.target.minAll
    desc := some (trim (ruleRecord env nf e).desc)
    leaseduration := (ruleRecord env nf e).stored true }

theorem lineCall_rule (kind : env'.clock.leasefileUseRemainingTime = true)
    (writable : Writable nf) (e : IptEntry) (member : e ∈ nf.chain .nat) :
    results env'.clock (ruleRecord env nf e) = [asked env nf e] := by
  have recorded := @recorded_rule env nf writable e
  have left := @leftover_blank env nf writable e
  have whole := pieces_append true (ruleRecord env nf e)
  rw [left, List.append_nil] at whole
  have name := (protoAtoi_protoItoa_iff _).mpr (writable.protocols e member)
  have lease : reloadLease env'.clock ((ruleRecord env nf e).stored true) =
      some ((ruleRecord env nf e).stored true) := by
    unfold reloadLease
    rw [if_pos kind]
    split
    · rfl
    · congr 1
      omega
  have text : trim ((ruleRecord env nf e).firstPiece true) = trim (ruleRecord env nf e).desc := by
    rw [whole, trim_append _ (by decide)]
  rw [results_eq recorded, kind, left, head_call recorded, lease, text]
  simp only [Option.map_some, Option.toList_some, fgetsLines, List.filterMap_nil, List.append_nil]
  rw [ruleRecord, name]
  rfl

end reading

section asking
variable {env : Env} {d : Daemon}

/-- What a request from the file makes of the tables. -/
def askTables (env : Env) (t : Tables) (c : Reloaded) : Tables :=
  redirectTables env c.rhost c.eport c.iaddr c.iport (protoItoa c.proto) c.desc c.leaseduration t

theorem protoAtoi_named (protocol : CString) :
    protoAtoi (protoItoa (protoAtoi protocol)) = protoAtoi protocol := by
  rw [protoAtoi_protoItoa_iff]
  unfold protoAtoi
  split
  · decide
  · split <;> decide

theorem reloadMapping_quiet (quiet : d.nf.Quiet) (l : Lease) (leaseduration timestamp : Nat) :
    (reloadMapping env l leaseduration timestamp d).nf.Quiet ∧
      tables (reloadMapping env l leaseduration timestamp d).nf =
        askTables env (tables d.nf)
          { rhost := none, proto := protoAtoi l.proto, eport := l.eport, iaddr := l.iaddr
            iport := l.iport, desc := some l.desc, leaseduration } := by
  obtain ⟨still, changed⟩ := upnpRedirect_quiet env none l.eport l.iaddr l.iport quiet l.proto
    (some l.desc) leaseduration
  have same : (reloadMapping env l leaseduration timestamp d).nf =
      (upnpRedirect env none l.eport l.iaddr l.iport l.proto (some l.desc) leaseduration
        d).2.nf := by
    unfold reloadMapping
    dsimp only
    split
    · rw [fileAdd_nf]
    · rfl
  rw [same]
  refine ⟨still, ?_⟩
  rw [changed, askTables]
  unfold redirectTables
  dsimp only
  rw [protoAtoi_named]

theorem reloadLine_quiet (quiet : d.nf.Quiet) (line : CString) :
    (reloadLine env line d).nf.Quiet ∧
      tables (reloadLine env line d).nf =
        (lineCall env.clock line).toList.foldl (askTables env) (tables d.nf) := by
  unfold reloadLine lineCall reloadLease
  cases parseLeaseLine line with
  | none => exact ⟨quiet, rfl⟩
  | some l =>
    simp only [Option.bind_some]
    by_cases lasting : l.timestamp > 0
    · simp only [if_pos lasting]
      by_cases remaining : env.clock.leasefileUseRemainingTime = true
      · simp only [if_pos remaining]
        exact reloadMapping_quiet quiet l _ _
      · simp only [if_neg remaining]
        by_cases expired : l.timestamp ≤ env.clock.unixTime % 2 ^ 32
        · simp only [if_pos expired]
          exact ⟨quiet, rfl⟩
        · simp only [if_neg expired]
          exact reloadMapping_quiet quiet l _ _
    · simp only [if_neg lasting]
      exact reloadMapping_quiet quiet l _ _

theorem reloadLines_quiet (quiet : d.nf.Quiet) (lines : List CString) :
    tables (lines.foldl (fun d line => reloadLine env line d) d).nf =
      (lines.filterMap (lineCall env.clock)).foldl (askTables env) (tables d.nf) := by
  induction lines generalizing d with
  | nil => rfl
  | cons line lines ih =>
    obtain ⟨still, changed⟩ := @reloadLine_quiet env d quiet line
    rw [List.foldl_cons, ih still, changed]
    cases called : lineCall env.clock line with
    | none => rw [List.filterMap_cons_none called, Option.toList_none, List.foldl_nil]
    | some call =>
      rw [List.filterMap_cons_some called, Option.toList_some, List.foldl_cons, List.foldl_cons,
        List.foldl_nil]

/-- A start asks for the rules of the file, one after the other. -/
theorem reload_tables {env' : Env} {nf : Netfilter} {rules : List IptEntry}
    (rewrites : Rewrites env') (quiet : d.nf.Quiet) (writable : Writable nf)
    (members : ∀ e ∈ rules, e ∈ nf.chain .nat)
    (file : d.leaseFile = recordAll true (rules.map (ruleRecord env nf))) :
    tables (reloadFromLeaseFile env' d).2.nf =
      (rules.map (asked env nf)).foldl (askTables env') (tables d.nf) := by
  obtain ⟨enabled, kind⟩ := rewrites
  have content := recordAll_content true (rules.map (ruleRecord env nf))
  have each : (rules.map (ruleRecord env nf)).flatMap (results env'.clock) =
      rules.map (asked env nf) := by
    rw [List.flatMap_map, ← List.flatMap_pure_eq_map]
    apply List.flatMap_congr
    intro e member
    exact lineCall_rule kind writable e (members e member)
  unfold reloadFromLeaseFile
  rw [if_pos enabled, file]
  cases written : recordAll true (rules.map (ruleRecord env nf)) with
  | none =>
    rw [written, Option.getD_none] at content
    cases rules with
    | nil => rfl
    | cons e rules => simp [List.flatMap_cons, Record.line] at content
  | some text =>
    rw [written, Option.getD_some] at content
    dsimp only
    rw [reloadLines_quiet (by exact quiet), content, content_lines, List.filterMap_flatMap, ← each]
    unfold results
    rw [kind]

end asking

section rules
variable {env env' : Env} {nf : Netfilter} {t : Tables} {e : IptEntry} {rules : List IptEntry}

def key (e : IptEntry) : UInt16 × UInt16 := (e.dpts.1, e.proto)

theorem redirectMatches_key (e f : IptEntry) :
    redirectMatches e.proto.toNat e.dpts.1 f = true ↔ key f = key e := by
  rw [redirectMatches_iff, key, key, Prod.mk.injEq]
  constructor
  · rintro ⟨proto, eport⟩
    exact ⟨eport.symm, UInt16.toNat_inj.mp (by omega)⟩
  · rintro ⟨eport, proto⟩
    exact ⟨by rw [proto], eport.symm⟩

theorem keys_nodup (one : OneEach t) : (t.nat.map key).Nodup := by
  rw [List.nodup_iff_count_le_one]
  intro k
  by_cases member : k ∈ t.nat.map key
  · obtain ⟨e, _, rfl⟩ := List.mem_map.mp member
    have atMost := (one e.dpts.1 e.proto.toNat).1
    rw [List.count, List.countP_map]
    apply Nat.le_trans (Nat.le_of_eq _) atMost
    apply List.countP_congr
    intro f _
    rw [redirectMatches_key]
    simp
  · rw [List.count_eq_zero_of_not_mem member]
    exact Nat.zero_le 1

theorem find?_self (distinct : (t.nat.map key).Nodup) (member : e ∈ t.nat) :
    t.nat.find? (redirectMatches e.proto.toNat e.dpts.1) = some e := by
  cases found : t.nat.find? (redirectMatches e.proto.toNat e.dpts.1) with
  | none =>
    exact absurd ((redirectMatches_key e e).mpr rfl) (List.find?_eq_none.mp found e member)
  | some f =>
    have same := (redirectMatches_key e f).mp (List.find?_some found)
    rw [List.inj_on_of_nodup_map distinct (List.mem_of_find?_eq_some found) member same]

/-- The permissions at the start let the mapping in. -/
def permitted (env : Env) (e : IptEntry) : Bool :=
  checkUpnpRuleAgainstPermissions env.upnppermlist e.dpts.1 e.target.minIp e.target.minAll

/-- A start adds the mapping if it is not there. -/
def addable (env : Env) (e : IptEntry) : Bool :=
  permitted env e && !env.disablePortForwarding &&
    !decide (env.checkPortinuse ∧
      env.portInUse e.dpts.1 e.proto.toNat (inetNtoa e.target.minIp) e.target.minAll)

/-- The remaining time counts from the start on. -/
def restoredDesc (env env' : Env) (nf : Netfilter) (e : IptEntry) : RdrDesc :=
  { timestamp := expiryTime env' ((ruleRecord env nf e).stored true)
    eport := e.dpts.1
    proto := Int16.ofInt e.proto.toNat
    str := trim (ruleRecord env nf e).desc }

/-- The redirection without its remote host, which the file does not hold. -/
def restoredRule (e : IptEntry) : IptEntry :=
  natRule e.proto.toNat e.dpts.1 (inetNtoa e.target.minIp) e.target.minAll none

def restoredFilter (e : IptEntry) : IptEntry :=
  filterRule e.proto.toNat none (inetNtoa e.target.minIp) e.target.minAll

/-- The tables with the mappings of the rules after those that are there. -/
def restore (env env' : Env) (nf : Netfilter) (t : Tables) (rules : List IptEntry) : Tables :=
  let kept := rules.filter (addable env')
  { nat := t.nat ++ kept.map restoredRule
    forward := t.forward ++ kept.map restoredFilter
    descs := (kept.map (restoredDesc env env' nf)).reverse ++ t.descs }

theorem ask_free (name : (e.proto.toNat : Int) ∈ [IPPROTO_TCP, IPPROTO_UDP, IPPROTO_UDPLITE])
    (free : t.nat.find? (redirectMatches e.proto.toNat e.dpts.1) = none) :
    askTables env' t (asked env nf e) = restore env env' nf t [e] := by
  have proto := (protoAtoi_protoItoa_iff _).mpr name
  have allows : checkUpnpRuleAgainstPermissions env'.upnppermlist e.dpts.1 e.target.minIp
      e.target.minAll = permitted env' e := rfl
  simp only [askTables, redirectTables, asked, proto, inetAton_inetNtoa, free, allows]
  by_cases allowed : permitted env' e = true
  · rw [if_pos allowed]
    by_cases inUse : env'.checkPortinuse = true ∧
        env'.portInUse e.dpts.1 e.proto.toNat (inetNtoa e.target.minIp) e.target.minAll = true
    · rw [if_pos inUse]
      simp [restore, addable, inUse.1, inUse.2]
    · rw [if_neg inUse]
      by_cases disabled : env'.disablePortForwarding = true
      · simp [restore, addable, disabled]
      · rw [if_neg disabled]
        have kept : addable env' e = true := by
          rw [addable, allowed, decide_eq_false inUse, Bool.not_eq_true _ |>.mp disabled]
          rfl
        simp only [restore, List.filter_cons, kept, ↓reduceIte, List.filter_nil, List.map_cons,
          List.map_nil, List.reverse_cons, List.reverse_nil, List.nil_append, List.singleton_append]
        rfl
  · rw [if_neg allowed]
    simp [restore, addable, allowed]

theorem restore_append (t : Tables) (front back : List IptEntry) :
    restore env env' nf t (front ++ back) =
      restore env env' nf (restore env env' nf t front) back := by
  simp [restore]

theorem key_restored (e : IptEntry) : key (restoredRule e) = key e := by
  have port := portRange_fst e.dpts.1
  have small := e.proto.toNat_lt
  have proto : UInt16.ofInt (e.proto.toNat : Int) = e.proto := by
    apply UInt16.toNat_inj.mp
    simp only [UInt16.ofInt, UInt16.toNat_ofNat']
    omega
  simp only [key, restoredRule, natRule, port, proto]

/-- Rules with different keys that are not there are added one after the other. -/
theorem ask_all_free
    (names : ∀ e ∈ rules, (e.proto.toNat : Int) ∈ [IPPROTO_TCP, IPPROTO_UDP, IPPROTO_UDPLITE])
    (distinct : (rules.map key).Nodup) (free : ∀ e ∈ rules, key e ∉ t.nat.map key) :
    (rules.map (asked env nf)).foldl (askTables env') t = restore env env' nf t rules := by
  induction rules generalizing t with
  | nil => simp [restore]
  | cons e rules ih =>
    rw [List.map_cons, List.nodup_cons] at distinct
    have missing : t.nat.find? (redirectMatches e.proto.toNat e.dpts.1) = none := by
      rw [List.find?_eq_none]
      intro f member same
      apply free e List.mem_cons_self
      rw [← (redirectMatches_key e f).mp same]
      exact List.mem_map_of_mem member
    rw [List.map_cons, List.foldl_cons, ask_free (names e List.mem_cons_self) missing,
      ih (fun f member => names f (List.mem_cons_of_mem e member)) distinct.2,
      ← restore_append, List.singleton_append]
    intro f member there
    simp only [restore, List.map_append, List.mem_append] at there
    rcases there with old | new
    · exact free f (List.mem_cons_of_mem e member) old
    · obtain ⟨g, restored, same⟩ := List.mem_map.mp new
      obtain ⟨h, kept, rfl⟩ := List.mem_map.mp restored
      obtain rfl := List.mem_singleton.mp (List.mem_of_mem_filter kept)
      rw [key_restored] at same
      apply distinct.1
      rw [same]
      exact List.mem_map_of_mem member

/-- The daemon may take up the mapping again: its redirection is for no remote host. -/
def resumable (env : Env) (e : IptEntry) : Bool := permitted env e && e.src = 0

theorem rhostOf_nil (e : IptEntry) : sameRhost none (rhostOf e) = true ↔ e.src = 0 := by
  have text : inetNtoa e.src ≠ [] := by simp [inetNtoa]
  simp [rhostOf, sameRhost, text]

/-- A second update of the description takes away what the first has made. -/
theorem redescribe_twice {eport : UInt16} {proto : Int} (byte : isByte proto)
    (desc : Option CString) (timestamp : Nat)
    (missing : t.descs.find? (descMatches eport proto) = none) :
    redescribe eport proto desc timestamp (redescribe eport proto desc timestamp t) =
      { t with
        descs := { timestamp, eport, proto := Int16.ofInt proto,
                   str := desc.getD "miniupnpd".toList } :: t.descs } := by
  have hit : descMatches eport proto
      { timestamp, eport, proto := Int16.ofInt proto,
        str := desc.getD "miniupnpd".toList } = true :=
    (descMatches_new byte _).mpr ⟨rfl, rfl⟩
  simp only [redescribe, eraseP_of_find?_none missing, List.eraseP_cons_of_pos hit]

/-- Where the rule is still there, only its description comes back. -/
theorem ask_found (name : (e.proto.toNat : Int) ∈ [IPPROTO_TCP, IPPROTO_UDP, IPPROTO_UDPLITE])
    (found : t.nat.find? (redirectMatches e.proto.toNat e.dpts.1) = some e)
    (missing : t.descs.find? (descMatches e.dpts.1 e.proto.toNat) = none) :
    askTables env' t (asked env nf e) =
      { t with
        descs := ([e].filter (resumable env')).map (restoredDesc env env' nf) ++ t.descs } := by
  have proto := (protoAtoi_protoItoa_iff _).mpr name
  have byte : isByte (e.proto.toNat : Int) := by
    rw [← proto]
    exact protoAtoi_byte _
  have allows : checkUpnpRuleAgainstPermissions env'.upnppermlist e.dpts.1 e.target.minIp
      e.target.minAll = permitted env' e := rfl
  simp only [askTables, redirectTables, asked, proto, inetAton_inetNtoa, found, allows]
  by_cases allowed : permitted env' e = true
  · rw [if_pos allowed]
    by_cases anyone : e.src = 0
    · have resumed : resumable env' e = true := by simp [resumable, allowed, anyone]
      rw [if_pos ⟨trivial, (rhostOf_nil e).mpr anyone⟩, if_neg (by simp),
        redescribe_twice byte _ _ missing]
      simp only [List.filter_cons, resumed, ↓reduceIte, List.filter_nil, List.map_cons,
        List.map_nil, List.singleton_append]
      rfl
    · have left : resumable env' e = false := by
        rw [resumable, decide_eq_false anyone, Bool.and_false]
      rw [if_neg (fun both => anyone ((rhostOf_nil e).mp both.2)), List.filter_singleton, left]
      rfl
  · rw [if_neg allowed]
    simp [resumable, allowed]

/-- The descriptions of rules that are all there come back, the last one first. -/
theorem ask_all_found (whole : ∀ e ∈ rules, e ∈ t.nat) (distinct : (t.nat.map key).Nodup)
    (names : ∀ e ∈ rules, (e.proto.toNat : Int) ∈ [IPPROTO_TCP, IPPROTO_UDP, IPPROTO_UDPLITE])
    (each : (rules.map key).Nodup)
    (missing : ∀ e ∈ rules, t.descs.find? (descMatches e.dpts.1 e.proto.toNat) = none) :
    (rules.map (asked env nf)).foldl (askTables env') t =
      { t with
        descs := ((rules.filter (resumable env')).map (restoredDesc env env' nf)).reverse ++
          t.descs } := by
  induction rules generalizing t with
  | nil => rfl
  | cons e rules ih =>
    rw [List.map_cons, List.nodup_cons] at each
    rw [List.map_cons, List.foldl_cons, ask_found (names e List.mem_cons_self)
      (find?_self distinct (whole e List.mem_cons_self)) (missing e List.mem_cons_self),
      ih (by exact fun f member => whole f (List.mem_cons_of_mem e member)) (by exact distinct)
        (fun f member => names f (List.mem_cons_of_mem e member)) each.2]
    · rw [show e :: rules = [e] ++ rules from rfl, List.filter_append, List.map_append,
        List.reverse_append]
      have single : (([e].filter (resumable env')).map (restoredDesc env env' nf)).reverse =
          ([e].filter (resumable env')).map (restoredDesc env env' nf) := by
        rw [List.filter_singleton]
        cases resumable env' e <;> rfl
      rw [single, List.append_assoc]
    · intro f member
      have byteOf : ∀ g ∈ e :: rules, isByte (g.proto.toNat : Int) := by
        intro g there
        rw [← (protoAtoi_protoItoa_iff _).mpr (names g there)]
        exact protoAtoi_byte _
      rw [List.find?_append, List.find?_eq_none.mpr, Option.none_or]
      · exact missing f (List.mem_cons_of_mem e member)
      · intro p new same
        obtain ⟨g, kept, rfl⟩ := List.mem_map.mp new
        obtain rfl := List.mem_singleton.mp (List.mem_of_mem_filter kept)
        have keys := (descMatches_new (byteOf g List.mem_cons_self) _).mp same
        apply each.1
        have equal : key g = key f := by
          rw [key, key, keys.1, Prod.mk.injEq]
          exact ⟨rfl, UInt16.toNat_inj.mp (by omega)⟩
        rw [equal]
        exact List.mem_map_of_mem member

end rules

/-- The daemon after a reboot, with empty tables at its start. -/
def reboot (env env' : Env) (behind : Nat → CString) (d : Daemon) : Daemon :=
  (reloadFromLeaseFile env' (Daemon.start (leaseFileRewrite env behind d).leaseFile)).2

/-- The daemon after a restart that leaves the chains as they are. -/
def restart (env env' : Env) (behind : Nat → CString) (d : Daemon) : Daemon :=
  let ended := leaseFileRewrite env behind d
  (reloadFromLeaseFile env' ((Daemon.start ended.leaseFile).withNf (ended.nf.setDescs []))).2

/-- A build with the lease file, which stores remaining times. -/
def remainingLeases (now : Nat) : Env :=
  { Env.plain now with
    enableLeasefile := true
    clock := { upnpTime := now, unixTime := now, leasefileUseRemainingTime := true } }

/-- A mapping for an hour, and one for a remote host. -/
def twoMappings : List Op :=
  [.upnpRedirect (Env.plain 1000) none 8080 (inetNtoa (ofBytes 192 168 0 2)) 80 "TCP".toList
      (some " web".toList) 3600,
    .upnpRedirect (Env.plain 1000) (some (inetNtoa (ofBytes 198 51 100 7))) 9000
      (inetNtoa (ofBytes 192 168 0 3)) 9000 "UDP".toList (some "game".toList) 3600]

theorem twoMappings_writable : Writable (twoMappings.foldl step (Daemon.start none)).nf where
  protocols := by decide
  lengths := by decide
  texts := by decide
  timestamps := by decide

section restarts
variable {env env' : Env} (behind : Nat → CString)

theorem sound_last (leaseFile : Option CString) (ops : List Op) :
    Sound (ops.foldl step (Daemon.start leaseFile)) :=
  always_last (always_of_step step_sound (sound_start leaseFile) ops)

example : (restore (remainingLeases 1900) (remainingLeases 50)
      (twoMappings.foldl step (Daemon.start none)).nf ⟨[], [], []⟩
      ((twoMappings.foldl step (Daemon.start none)).nf.chain .nat)).descs =
    [⟨2750, 9000, 17, "game".toList⟩, ⟨2750, 8080, 6, "web".toList⟩] := by rfl

end restarts

end LeaseRestart
