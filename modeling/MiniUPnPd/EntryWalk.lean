import MiniUPnPd.Lib.IndexWalk
import MiniUPnPd.Lib.Strtok
import MiniUPnPd.MappingEntry
import MiniUPnPd.MappingRemovals
import MiniUPnPd.MappingTable

/-!
A control point that asks for the mappings by index until it is told that there is none, while
mappings are added, renewed and deleted. A renewal leaves a mapping in its place and a new one comes
last, so a mapping is passed over only where one has been deleted that was reported before.
-/
namespace EntryWalk
open CBuffer CText DaemonRules FirstMatch Inet Iptc Iptcrdr IptcrdrSpec LeaseFile MappingEntry
open MappingRemovals MappingTable RuleKeys UpnpRedirect UpnpRedirectSpec
open IndexWalk (Accounted Walk)
open PortMappingList (Namespace)
open UpnpSoap (SoapReply Upnphttp)

section source

/-- The control point with the daemon: what it has been told of which rules, the keys of those that
    have not been deleted since, and how many have. -/
structure World where
  daemon : Daemon
  replies : List (Except Fault (Except SoapReply CString))
  rules : List RedirectRule
  current : List (UInt16 × Int)
  lost : Nat

def World.start (d : Daemon) : World :=
  { daemon := d, replies := [], rules := [], current := [], lost := 0 }

/-- What changes the table, in the order in which the requests of all clients are served. Without a
    lookup, a mapping is added only where one has found the key free. -/
inductive Change
  | upnpRedirect (env : Env) (rhost : Option CString) (eport : UInt16) (iaddr : CString)
      (iport : UInt16) (protocol : CString) (desc : Option CString) (leaseduration : Nat)
  | upnpRedirectInternal (env : Env) (rhost : Option CString) (eport : UInt16) (iaddr : CString)
      (iport : UInt16) (proto : UInt8) (desc : CString) (timestamp : Nat)
  | upnpDeleteRedir (env : Env) (eport : UInt16) (proto : Int)

inductive Event
  | ask (env : Env) (h : Upnphttp) (ns : Namespace) (cells : List Char)
  | change (change : Change)

/-- The request for the mapping with this index. -/
def withIndex (h : Upnphttp) (index : Nat) : Upnphttp :=
  { h with args := [("NewPortMappingIndex".toList, utoa index)] }

def World.asked (env : Env) (h : Upnphttp) (ns : Namespace) (cells : List Char) (w : World) :
    World :=
  let index := w.replies.length
  let (reply, d) := getGenericPortMappingEntry env (withIndex h index) ns cells w.daemon
  match reply, (upnpGetRedirectionInfosByIndex env index w.daemon).1 with
  | .ok (.error _), _ => { w with daemon := d }
  | _, none => { w with daemon := d }
  | reply, some (rule, _) =>
    { w with
      daemon := d
      replies := w.replies ++ [reply]
      rules := w.rules ++ [rule]
      current := w.current ++ [ruleKey rule] }

def Change.made (d : Daemon) : Change → Daemon
  | .upnpRedirect env rhost eport iaddr iport protocol desc leaseduration =>
      (UpnpRedirect.upnpRedirect env rhost eport iaddr iport protocol desc leaseduration d).2
  | .upnpRedirectInternal env rhost eport iaddr iport proto desc timestamp =>
    match d.lookup eport proto.toNat with
    | (none, d) =>
        (UpnpRedirect.upnpRedirectInternal env rhost eport iaddr iport proto.toNat desc timestamp
          d).2
    | (some _, d) => d
  | .upnpDeleteRedir env eport proto => (UpnpRedirect.upnpDeleteRedir env eport proto d).2

/-- The key that is deleted. -/
def Change.deleted : Change → Option (UInt16 × Int)
  | .upnpDeleteRedir _ eport proto => some (eport, proto)
  | _ => none

def World.step (w : World) : Event → World
  | .ask env h ns cells => w.asked env h ns cells
  | .change change =>
    let w := { w with daemon := change.made w.daemon }
    match change.deleted with
    | none => w
    | some k =>
      { w with
        current := w.current.erase k
        lost := if k ∈ w.current then w.lost + 1 else w.lost }

end source

section tables
variable {t : Tables} {eport : UInt16} {proto : Int} {iport : UInt16}

def tableKeys (t : Tables) : List (UInt16 × Int) := t.nat.map entryKey

def keys (d : Daemon) : List (UInt16 × Int) := tableKeys (tables d.nf)

theorem tableKeys_nodup (one : OneEach t) : (tableKeys t).Nodup := by
  rw [List.nodup_iff_count_le_one]
  intro k
  have atMost := (one k.1 k.2).1
  rw [redirectMatches_entryKey] at atMost
  rw [tableKeys, List.count, List.countP_map]
  exact le_trans (le_of_eq (List.countP_congr fun e _ => by simp)) atMost

theorem tableKeys_remove (t : Tables) (eport : UInt16) (proto : Int) :
    tableKeys (remove eport proto t) = (tableKeys t).erase (eport, proto) := by
  have same : (fun e => decide (entryKey e = (eport, proto))) =
      ((eport, proto) == ·) ∘ entryKey := by
    funext e
    rw [Bool.eq_iff_iff, decide_eq_true_eq, Function.comp_apply, beq_iff_eq]
    exact eq_comm
  rw [tableKeys, remove, redirectMatches_entryKey, same, tableKeys, List.erase_eq_eraseP,
    List.eraseP_map]

theorem tableKeys_renumber (desc : Option CString) (timestamp : Nat) (t : Tables) :
    tableKeys (renumber eport proto iport desc timestamp t) = tableKeys t := by
  rw [tableKeys, renumber_nat, tableKeys]
  induction t.nat with
  | nil => rfl
  | cons e rules ih =>
    rw [updateFirst]
    split
    · rfl
    · rw [List.map_cons, ih, List.map_cons]

theorem free_iff :
    t.nat.find? (redirectMatches proto eport) = none ↔ (eport, proto) ∉ tableKeys t := by
  rw [redirectMatches_entryKey, List.find?_eq_none, tableKeys, List.mem_map]
  simp

theorem tableKeys_addMapping (byte : isByte proto) (rhost : Option CString) (iaddr str : CString)
    (timestamp : Nat) (t : Tables) :
    tableKeys (addMapping rhost eport iaddr iport proto str timestamp t) =
      tableKeys t ++ [(eport, proto)] := by
  obtain ⟨port, protocol⟩ := natRule_key rhost eport iaddr iport byte
  rw [tableKeys, addMapping, describe, List.map_append, List.map_singleton, entryKey, port,
    protocol]
  rfl

/-- A request for a redirection adds its key, if it is new, or leaves the keys in their places. -/
theorem tableKeys_redirect (env : Env) (rhost : Option CString) (eport : UInt16) (iaddr : CString)
    (iport : UInt16) (protocol : CString) (desc : Option CString) (leaseduration : Nat)
    (t : Tables) :
    tableKeys (redirectTables env rhost eport iaddr iport protocol desc leaseduration t) =
        tableKeys t ∨
      (eport, protoAtoi protocol) ∉ tableKeys t ∧
        tableKeys (redirectTables env rhost eport iaddr iport protocol desc leaseduration t) =
          tableKeys t ++ [(eport, protoAtoi protocol)] := by
  unfold redirectTables
  cases inetAton iaddr with
  | none => exact .inl rfl
  | some address =>
    dsimp only
    split
    · cases found : t.nat.find? (redirectMatches (protoAtoi protocol) eport) with
      | none =>
        dsimp only
        split
        · exact .inl rfl
        · split
          · exact .inl rfl
          · right
            refine ⟨free_iff.mp found, ?_⟩
            exact tableKeys_addMapping (protoAtoi_byte protocol) rhost iaddr _ _ t
      | some e =>
        left
        dsimp only
        split
        · split
          · rw [tableKeys_renumber, tableKeys_renumber]
          · rfl
        · rfl
    · exact .inl rfl

end tables

section changes
variable {d : Daemon} {w : World}

/-- A change is none at all to the keys, or one of the two of a table that is read by index. -/
inductive Keyed (d : Daemon) (change : Change) : Prop
  | same (none : change.deleted = none) (keys : keys (change.made d) = keys d)
  | added (k : UInt16 × Int) (none : change.deleted = none) (absent : k ∉ keys d)
      (keys : keys (change.made d) = EntryWalk.keys d ++ [k])
  | deleted (k : UInt16 × Int) (some : change.deleted = some k)
      (keys : keys (change.made d) = (EntryWalk.keys d).erase k)

theorem made_keyed (sound : Sound d) (change : Change) :
    Sound (change.made d) ∧ Keyed d change := by
  cases change with
  | upnpRedirect env rhost eport iaddr iport protocol desc leaseduration =>
    refine ⟨sound_redirect sound env rhost eport iaddr iport protocol desc leaseduration, ?_⟩
    have changed := (upnpRedirect_quiet env rhost eport iaddr iport sound.1 protocol desc
      leaseduration).2
    rcases tableKeys_redirect env rhost eport iaddr iport protocol desc leaseduration
      (tables d.nf) with same | ⟨absent, added⟩
    · apply Keyed.same rfl
      rw [keys, Change.made, changed, same, keys]
    · apply Keyed.added (eport, protoAtoi protocol) rfl absent
      rw [keys, Change.made, changed, added, keys]
  | upnpRedirectInternal env rhost eport iaddr iport proto desc timestamp =>
    have byte : isByte proto.toNat := by
      have small := proto.toNat_lt
      exact ⟨by omega, by omega⟩
    have looked := lookup_quiet eport sound.1 proto.toNat
    cases found : (d.nf.chain .nat).find? (redirectMatches proto.toNat eport) with
    | some e =>
      rw [found] at looked
      have kept : Change.made d (.upnpRedirectInternal env rhost eport iaddr iport proto desc
          timestamp) = d := by
        simp only [Change.made, looked, Option.map_some]
      rw [kept]
      exact ⟨sound, .same rfl (by rw [kept])⟩
    | none =>
      rw [found] at looked
      have added : Change.made d (.upnpRedirectInternal env rhost eport iaddr iport proto desc
          timestamp) = (UpnpRedirect.upnpRedirectInternal env rhost eport iaddr iport proto.toNat
            desc timestamp d).2 := by
        simp only [Change.made, looked, Option.map_none]
      have changed := (upnpRedirectInternal_quiet env rhost eport iaddr iport sound.1 proto.toNat
        desc timestamp).2
      rw [added]
      refine ⟨sound_internal sound byte rhost iaddr iport desc timestamp found, ?_⟩
      by_cases disabled : env.disablePortForwarding = true
      · rw [if_pos disabled] at changed
        apply Keyed.same rfl
        rw [added, keys, changed, keys]
      · rw [if_neg disabled] at changed
        apply Keyed.added (eport, proto.toNat) rfl (free_iff.mp found)
        rw [added, keys, changed, tableKeys_addMapping byte, keys]
  | upnpDeleteRedir env eport proto =>
    refine ⟨(steady_sound env).deleted eport proto d sound, ?_⟩
    have changed := (upnpDeleteRedir_quiet env eport sound.1 proto).2
    apply Keyed.deleted (eport, proto) rfl
    rw [keys, Change.made, changed, tableKeys_remove, keys]

end changes

section entrypoints
variable {d d' : Daemon} {k : List (UInt16 × Int)}

/-- One change of the keys: a new key comes last, or a key is taken out. -/
inductive Moves : List (UInt16 × Int) → List (UInt16 × Int) → Prop
  | added {l : List (UInt16 × Int)} {k : UInt16 × Int} (absent : k ∉ l) : Moves l (l ++ [k])
  | deleted (l : List (UInt16 × Int)) (k : UInt16 × Int) : Moves l (l.erase k)

def Reaches (k : List (UInt16 × Int)) (d : Daemon) : Prop :=
  Sound d ∧ Relation.ReflTransGen Moves k (keys d)

theorem reaches_made (reached : Reaches k d) (change : Change) : Reaches k (change.made d) := by
  obtain ⟨sound, keyed⟩ := made_keyed reached.1 change
  refine ⟨sound, ?_⟩
  cases keyed with
  | same _ same =>
    rw [same]
    exact reached.2
  | added k _ absent added =>
    rw [added]
    exact reached.2.tail (.added absent)
  | deleted k _ erased =>
    rw [erased]
    exact reached.2.tail (.deleted _ k)

theorem steady_reaches (env : Env) (k : List (UInt16 × Int)) : Steady env (Reaches k) where
  opened d reached := by
    rw [iptcCalls_quiet 2 reached.1.1]
    exact reached
  deleted eport proto _ reached := reaches_made reached (.upnpDeleteRedir env eport proto)
  cleaned _ _ reached := reached
  filed _ _ reached := reached

theorem adds_reaches (env : Env) (proto : UInt8) (iaddr : CString) (iport : UInt16)
    (k : List (UInt16 × Int)) : Adds env (Reaches k) iaddr iport proto.toNat where
  free eport desc timestamp d _ reached missing := by
    have made := reaches_made reached
      (.upnpRedirectInternal env none eport iaddr iport proto desc timestamp)
    simp only [Change.made] at made
    split at made
    · rename_i d' looked
      rw [looked]
      exact made
    · rename_i rule d' looked
      rw [looked] at missing
      cases missing
  again eport desc timestamp d old _ reached _ := by
    rw [lookup_quiet eport reached.1.1]
    have deleted := reaches_made reached (.upnpDeleteRedir env eport proto.toNat)
    simp only [Change.made] at deleted
    have free : (remove eport proto.toNat (tables d.nf)).nat.find?
        (redirectMatches proto.toNat eport) = none := free_after_remove reached.1.2
    rw [← (upnpDeleteRedir_quiet env eport reached.1.1 proto.toNat).2] at free
    have made := reaches_made deleted
      (.upnpRedirectInternal env none eport iaddr iport proto desc timestamp)
    have looked := lookup_quiet eport deleted.1.1 proto.toNat
    rw [show ((upnpDeleteRedir env eport proto.toNat d).2.nf.chain .nat).find?
      (redirectMatches proto.toNat eport) = none from free] at looked
    simp only [Change.made, looked, Option.map_none] at made
    exact made

/-- Whatever a client sends, and whenever the daemon cleans up or reads the lease file, the keys
    change in these two ways only. -/
theorem step_moves (sound : Sound d) (op : Op) :
    Relation.ReflTransGen Moves (keys d) (keys (MappingTable.step d op)) := by
  have start : Reaches (keys d) d := ⟨sound, .refl⟩
  cases op with
  | upnpRedirect env rhost eport iaddr iport protocol desc leaseduration =>
    exact (reaches_made start
      (.upnpRedirect env rhost eport iaddr iport protocol desc leaseduration)).2
  | upnpDeleteRedir env eport proto =>
    exact (reaches_made start (.upnpDeleteRedir env eport proto)).2
  | natPmp env uplink req senderaddr =>
    have kept : Reaches (keys d) (MappingTable.step d (.natPmp env uplink req senderaddr)) := by
      apply natPmp_keeps (steady_reaches env (keys d)) uplink req ?_ start
      intro _ proto either
      rcases either with udp | tcp
      · rw [udp]
        exact adds_reaches env 17 _ _ _
      · rw [tcp]
        exact adds_reaches env 6 _ _ _
    exact kept.2
  | pcp env req senderIp =>
    have kept := pcp_keeps (steady_reaches env.toEnv (keys d)) req senderIp ?_ start
    · exact kept.2
    · intro info checked _ _ _ _ _
      exact adds_reaches env.toEnv info.protocol _ _ _
  | getUpnpRulesStateList env maxRules =>
    exact (getUpnpRulesStateList_keeps (steady_reaches env (keys d)) maxRules start).2
  | reloadFromLeaseFile env =>
    have kept := reloadFromLeaseFile_keeps (steady_reaches env (keys d)) ?_ start
    · exact kept.2
    · intro l leaseduration d' reached
      exact reaches_made reached
        (.upnpRedirect env none l.eport l.iaddr l.iport l.proto (some l.desc) leaseduration)

end entrypoints

section requests
variable {env : Env} {h : Upnphttp} {ns : Namespace} {cells : List Char} {d : Daemon} {index : Nat}

/-- There is no mapping with this index. -/
def refused : Except Fault (Except SoapReply CString) :=
  .ok (.error (.soapError 713 "SpecifiedArrayIndexInvalid"))

theorem index_given (h : Upnphttp) (index : Nat) :
    UpnpSoap.getValueFromNameValueList (withIndex h index) "NewPortMappingIndex" =
      some (utoa index) := by
  have found : (withIndex h index).args.find? (fun nv => nv.1 = "NewPortMappingIndex".toList) =
      some ("NewPortMappingIndex".toList, utoa index) :=
    List.find?_cons_of_pos (decide_eq_true rfl)
  rw [UpnpSoap.getValueFromNameValueList, found, Option.map_some]

theorem signed_digit {c : Char} (digit : c.isDigit = true) (s : CString) :
    signed (c :: s) = (false, c :: s) := by
  have white : (c :: s).dropWhile isspace = c :: s :=
    List.dropWhile_cons_of_neg (by rw [isspace_of_isDigit digit]; decide)
  unfold signed
  rw [white]
  split
  · rename_i same
    rw [(List.cons.inj same).1] at digit
    exact absurd digit (by decide)
  · rename_i same
    rw [(List.cons.inj same).1] at digit
    exact absurd digit (by decide)
  · rfl

theorem indexArgument_utoa (small : index < 2 ^ 31) :
    indexArgument (utoa index) = some (index : Int) := by
  obtain ⟨c, s, start, digit⟩ := utoa_start index []
  rw [List.append_nil] at start
  have value : atoi (utoa index) = index := by
    have whole := atoi_utoa small [] (by simp)
    rwa [List.append_nil] at whole
  have bound := digitsValue_utoa index
  rw [start] at value bound ⊢
  unfold indexArgument
  rw [signed_digit digit]
  dsimp only
  have first : (((c :: s).head?.map Char.isDigit).getD false) = true := digit
  rw [if_pos first, bound, value, if_neg (by simp only [Bool.false_eq_true, if_false]; omega)]

/-- A request is answered for the rule at its index, or refused where there is none. -/
theorem entry_answered (sound : Sound d) (small : index < 2 ^ 31) :
    ((d.nf.chain .nat)[index]? = none ∧
        getGenericPortMappingEntry env (withIndex h index) ns cells d = (refused, d) ∧
        (upnpGetRedirectionInfosByIndex env index d).1 = none) ∨
      ∃ e leaseduration, (d.nf.chain .nat)[index]? = some e ∧
        getGenericPortMappingEntry env (withIndex h index) ns cells d =
          (entryReply ns cells (readRule d.nf e) leaseduration, d) ∧
        (upnpGetRedirectionInfosByIndex env index d).1 =
          some (readRule d.nf e, leaseduration) := by
  have read := getRedirectRuleByIndex_quiet sound.1 index
  have infos : upnpGetRedirectionInfosByIndex env index d =
      (((d.nf.chain .nat)[index]?.map (readRule d.nf)).map fun (rule : RedirectRule) =>
        (rule, if rule.timestamp > env.clock.upnpTime % 2 ^ 32
          then rule.timestamp - env.clock.upnpTime % 2 ^ 32 else 0), d) := by
    rw [upnpGetRedirectionInfosByIndex, read]
    rfl
  simp only [getGenericPortMappingEntry, index_given, indexArgument_utoa small, infos]
  cases (d.nf.chain .nat)[index]? with
  | none => exact .inl ⟨rfl, rfl, rfl⟩
  | some e => exact .inr ⟨e, _, rfl, rfl, rfl⟩

/-- What is said about a rule is no refusal. -/
theorem entryReply_ne (rule : RedirectRule) (leaseduration : Nat) (reply : SoapReply) :
    entryReply ns cells rule leaseduration ≠ .ok (.error reply) := by
  intro same
  simp only [entryReply, bind, Except.bind] at same
  split at same
  · cases same
  · split at same
    · cases same
    · split at same
      · cases same
      · cases same

theorem refused_iff (sound : Sound d) (small : index < 2 ^ 31) :
    (getGenericPortMappingEntry env (withIndex h index) ns cells d).1 = refused ↔
      (keys d).length ≤ index := by
  have length : (keys d).length = (d.nf.chain .nat).length := List.length_map _
  rw [length]
  rcases @entry_answered env h ns cells d index sound small with
    ⟨last, reply, _⟩ | ⟨e, leaseduration, found, reply, _⟩
  · rw [reply]
    exact iff_of_true rfl (List.getElem?_eq_none_iff.mp last)
  · rw [reply]
    obtain ⟨inside, _⟩ := List.getElem?_eq_some_iff.mp found
    exact iff_of_false (entryReply_ne _ _ _) (by omega)

end requests

section walk
variable {w : World} {env : Env} {h : Upnphttp} {ns : Namespace} {cells : List Char}

/-- The walk over the keys alone. -/
def World.walk (w : World) : Walk (UInt16 × Int) :=
  { table := keys w.daemon, answers := w.rules.map ruleKey, current := w.current, lost := w.lost }

/-- The reply is what the handler makes of the rule. -/
def Tells (reply : Except Fault (Except SoapReply CString)) (rule : RedirectRule) : Prop :=
  ∃ ns cells leaseduration, reply = entryReply ns cells rule leaseduration

structure Walked (w : World) : Prop where
  sound : Sound w.daemon
  told : List.Forall₂ Tells w.replies w.rules
  accounted : Accounted w.walk

theorem asked_walked (h : Upnphttp) (walked : Walked w) (small : w.replies.length < 2 ^ 31) :
    Walked (w.asked env h ns cells) ∧
      (w.asked env h ns cells).replies.length ≤ w.replies.length + 1 := by
  have length := walked.told.length_eq
  rcases @entry_answered env h ns cells w.daemon w.replies.length walked.sound small with
    ⟨_, reply, infos⟩ | ⟨e, leaseduration, found, reply, infos⟩
  · have same : w.asked env h ns cells = w := by
      simp only [World.asked, reply, refused]
    rw [same]
    exact ⟨walked, Nat.le_succ _⟩
  · have asked : w.asked env h ns cells =
        { w with
          replies := w.replies ++ [entryReply ns cells (readRule w.daemon.nf e) leaseduration]
          rules := w.rules ++ [readRule w.daemon.nf e]
          current := w.current ++ [entryKey e] } := by
      simp only [World.asked, reply, infos]
      split
      · rename_i same
        exact absurd same (entryReply_ne _ _ _)
      · rename_i missing _
        cases missing
      · rename_i same _
        cases same
        rfl
    have at' : w.walk.table[w.walk.answers.length]? = some (entryKey e) := by
      have index : w.walk.answers.length = w.replies.length := by
        rw [length]
        exact List.length_map _
      have table : w.walk.table = (w.daemon.nf.chain .nat).map entryKey := rfl
      rw [index, table, List.getElem?_map, found]
      rfl
    have accounted := IndexWalk.ask_accounted walked.accounted at'
    rw [asked]
    refine ⟨⟨walked.sound, ?_, ?_⟩, by simp⟩
    · exact List.rel_append walked.told (.cons ⟨ns, cells, leaseduration, rfl⟩ .nil)
    · have answers : (w.rules ++ [readRule w.daemon.nf e]).map ruleKey =
          w.walk.answers ++ [entryKey e] := List.map_append
      rw [World.walk]
      dsimp only
      rw [answers]
      exact accounted

theorem changed_walked (walked : Walked w) (change : Change) :
    Walked (w.step (.change change)) := by
  obtain ⟨sound, keyed⟩ := made_keyed walked.sound change
  have told := walked.told
  have accounted := walked.accounted
  cases keyed with
  | same untouched same =>
    have step : w.step (.change change) = { w with daemon := change.made w.daemon } := by
      simp only [World.step, untouched]
    rw [step]
    refine ⟨sound, told, ?_⟩
    rw [World.walk]
    dsimp only
    rw [same]
    exact accounted
  | added k untouched absent added =>
    have step : w.step (.change change) = { w with daemon := change.made w.daemon } := by
      simp only [World.step, untouched]
    rw [step]
    refine ⟨sound, told, ?_⟩
    rw [World.walk]
    dsimp only
    rw [added]
    exact IndexWalk.add_accounted accounted absent
  | deleted k taken erased =>
    have step : w.step (.change change) =
        { w with
          daemon := change.made w.daemon
          current := w.current.erase k
          lost := if k ∈ w.current then w.lost + 1 else w.lost } := by
      simp only [World.step, taken]
    rw [step]
    refine ⟨sound, told, ?_⟩
    rw [World.walk]
    dsimp only
    rw [erased]
    exact IndexWalk.erase_accounted accounted k

theorem run_walked (walked : Walked w) (events : List Event)
    (few : w.replies.length + events.length < 2 ^ 31) :
    Walked (events.foldl World.step w) ∧
      (events.foldl World.step w).replies.length ≤ w.replies.length + events.length := by
  induction events generalizing w with
  | nil => exact ⟨walked, Nat.le_add_right _ _⟩
  | cons e events ih =>
    rw [List.length_cons] at few
    have next : Walked (w.step e) ∧ (w.step e).replies.length ≤ w.replies.length + 1 := by
      cases e with
      | ask env h ns cells => exact asked_walked h walked (by omega)
      | change change =>
        refine ⟨changed_walked walked change, ?_⟩
        simp only [World.step]
        split <;> exact Nat.le_succ _
    obtain ⟨run, bound⟩ := ih next.1 (by omega)
    rw [List.foldl_cons, List.length_cons]
    exact ⟨run, by omega⟩

/-- The mappings of the table of which the control point has not been told since they were added. -/
def missed (w : World) : List (UInt16 × Int) := (keys w.daemon).filter (· ∉ w.current)

/-- What the control point knows at its end: each reply is about a rule, and as many mappings of the
    table are missed as were deleted after a reply, less the places that are empty. -/
structure Known (w : World) : Prop where
  told : List.Forall₂ Tells w.replies w.rules
  distinct : w.current.Nodup
  short : (keys w.daemon).length ≤ w.replies.length
  count : (missed w).length + w.replies.length = (keys w.daemon).length + w.lost
  whole : w.lost = 0 → w.rules.map ruleKey = keys w.daemon

/-- When a control point that asks for the mappings by index is told that there are no more, it has
    missed at most as many mappings of the table as have been deleted after it was told of them,
    whatever else was changed between its requests. If none of these has been deleted, what it was
    told is the table as it is, each mapping once and in order. -/
theorem entries_walked {d : Daemon} (sound : Sound d) (events : List Event)
    (few : events.length < 2 ^ 31 - 1) (env : Env) (h : Upnphttp) (ns : Namespace)
    (cells : List Char)
    (ended : (getGenericPortMappingEntry env
      (withIndex h (events.foldl World.step (World.start d)).replies.length) ns cells
      (events.foldl World.step (World.start d)).daemon).1 = refused) :
    Known (events.foldl World.step (World.start d)) := by
  have start : Walked (World.start d) :=
    ⟨sound, .nil, IndexWalk.accounted_start (tableKeys_nodup sound.2)⟩
  have none : (World.start d).replies.length = 0 := rfl
  obtain ⟨walked, bound⟩ := run_walked start events (by omega)
  rw [none, Nat.zero_add] at bound
  generalize events.foldl World.step (World.start d) = w at walked bound ended ⊢
  have answers : w.walk.answers.length = w.replies.length := by
    rw [walked.told.length_eq]
    exact List.length_map _
  have all : (keys w.daemon).length ≤ w.replies.length :=
    (refused_iff walked.sound (by omega)).mp ended
  have accounted := walked.accounted
  have distinct : w.current.Nodup :=
    (accounted.distinct.sublist (List.take_sublist _ _)).sublist accounted.passed
  have end' : w.walk.table.length ≤ w.walk.answers.length := by
    rw [answers]
    exact all
  have count := IndexWalk.missed_count accounted end'
  rw [answers] at count
  exact
    { told := walked.told
      distinct := distinct
      short := all
      count := count
      whole := IndexWalk.answers_table accounted end' }

/-- Two mappings are added, and the first is deleted as soon as the control point knows it. -/
def deletedBehind : List Event :=
  let add (eport : UInt16) : Change :=
    .upnpRedirectInternal (Env.plain 0) none eport "10.0.0.1".toList 80 6 [] 0
  [.change (add 80), .change (add 81), .ask (Env.plain 0) indexRequest plainSpace [],
   .change (.upnpDeleteRedir (Env.plain 0) 80 6)]

def deletedWorld : World := deletedBehind.foldl World.step (World.start (Daemon.start none))

theorem deletedBehind_walked :
    Known deletedWorld ∧ missed deletedWorld = [(81, 6)] ∧ deletedWorld.lost = 1 := by
  have sound := sound_start none
  have few : deletedBehind.length < 2 ^ 31 - 1 := by decide
  have start : Walked (World.start (Daemon.start none)) :=
    ⟨sound, .nil, IndexWalk.accounted_start (tableKeys_nodup sound.2)⟩
  have run : Walked deletedWorld := (run_walked start deletedBehind (by decide)).1
  have one : deletedWorld.replies.length = 1 := by decide +kernel
  have table : keys deletedWorld.daemon = [(81, 6)] := by decide +kernel
  have ended : (getGenericPortMappingEntry (Env.plain 0)
      (withIndex indexRequest deletedWorld.replies.length) plainSpace []
      deletedWorld.daemon).1 = refused := by
    rw [one, refused_iff run.sound (by decide), table]
    decide
  refine ⟨?_, by decide +kernel, by decide +kernel⟩
  exact entries_walked sound deletedBehind few (Env.plain 0) indexRequest plainSpace [] ended

end walk

end EntryWalk
