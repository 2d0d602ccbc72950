import MiniUPnPd.Lib.Runs
import MiniUPnPd.UpnpRedirectSpec

/-!
Expiry of mappings. The main loop cleans the rules when the time recorded in
`nextruletoclean_timestamp` has come, so that time must not be later than the expiry of
any mapping. Adding a mapping lowers it and a cleaning computes it anew; renewing a
mapping in place, an addition that fails half-way and a removal that brings an older
description to light do not.
-/
namespace RuleCleaning
open FirstMatch Inet Iptc Iptcrdr IptcrdrSpec LeaseFile RuleKeys Runs UpnpPermissions
open UpnpRedirect UpnpRedirectSpec

def timestampOf (descs : List RdrDesc) (eport : UInt16) (proto : Int) : Nat :=
  ((descs.find? fun p => p.eport = eport ∧ p.proto = Int16.ofInt proto).map (·.timestamp)).getD 0

def expiry (descs : List RdrDesc) (e : IptEntry) : Nat := timestampOf descs e.dpts.1 e.proto.toNat

def Covers (next timestamp : Nat) : Prop := timestamp ≠ 0 → 0 < next ∧ next ≤ timestamp

def Covered (next : Nat) (t : Tables) : Prop := ∀ e ∈ t.nat, Covers next (expiry t.descs e)

/-- Protocols are those of the IP header, one byte. -/
def ByteProtos (rules : List IptEntry) : Prop := ∀ e ∈ rules, e.proto.toNat < 256

theorem readRule_timestamp (nf : Netfilter) (e : IptEntry) :
    (readRule nf e).timestamp = expiry nf.rdrDescList e := by
  simp only [readRule, getRedirectDesc, expiry, timestampOf]
  cases nf.rdrDescList.find? fun p =>
    p.eport = e.dpts.1 ∧ p.proto = Int16.ofInt (e.proto.toNat : Int) <;> rfl

section keys
variable {eport : UInt16} {proto : Int}

theorem timestampOf_eq (byte : isByte proto) (descs : List RdrDesc) (eport : UInt16) :
    timestampOf descs eport proto =
      ((descs.find? (descMatches eport proto)).map (·.timestamp)).getD 0 := by
  simp only [timestampOf, descMatches_eq byte eport]

theorem timestampOf_cons (new : RdrDesc) (descs : List RdrDesc) (eport' : UInt16) (proto' : Int) :
    timestampOf (new :: descs) eport' proto' =
      if new.eport = eport' ∧ new.proto = Int16.ofInt proto' then new.timestamp
      else timestampOf descs eport' proto' := by
  simp only [timestampOf, List.find?_cons]
  split
  · rename_i hit
    rw [if_pos (by simpa using hit)]
    rfl
  · rename_i miss
    rw [if_neg (by simpa using miss)]

theorem timestampOf_erase_other (byte : isByte proto) {eport' : UInt16} {proto' : Int}
    (byte' : isByte proto') (other : ¬ (eport' = eport ∧ proto' = proto)) (descs : List RdrDesc) :
    timestampOf (descs.eraseP (descMatches eport proto)) eport' proto' =
      timestampOf descs eport' proto' := by
  rw [timestampOf_eq byte', timestampOf_eq byte', find?_eraseP_other]
  intro p hit
  rw [descMatches_iff byte'] at hit
  by_contra also
  rw [Bool.not_eq_false, descMatches_iff byte] at also
  apply other
  have protos := hit.2.symm.trans also.2
  rw [ofInt_inj byte' byte] at protos
  exact ⟨hit.1.symm.trans also.1, protos⟩

theorem byte_of_entry {rules : List IptEntry} (bytes : ByteProtos rules) {e : IptEntry}
    (member : e ∈ rules) : isByte (e.proto.toNat : Int) := by
  have small := bytes e member
  exact ⟨by omega, by omega⟩

end keys

theorem covers_zero (next : Nat) : Covers next 0 := by
  intro leased
  exact absurd rfl leased

theorem covers_lowered_self (next timestamp : Nat) : Covers (lowered next timestamp) timestamp := by
  intro leased
  unfold lowered
  split <;> omega

theorem covers_lowered {next old : Nat} (timestamp : Nat) (covers : Covers next old) :
    Covers (lowered next timestamp) old := by
  intro leased
  have both := covers leased
  unfold lowered
  split <;> omega

def Holds (d : Daemon) : Prop := Covered d.nextruletocleanTimestamp (tables d.nf)

def Bytes (d : Daemon) : Prop := ByteProtos (d.nf.chain .nat)

/-- Every rule of the second chain has the protocol and the external port of a rule of the
    first. -/
def KeysFrom (rules rules' : List IptEntry) : Prop :=
  ∀ e' ∈ rules', ∃ e ∈ rules, e'.proto = e.proto ∧ e'.dpts = e.dpts

theorem keysFrom_self (rules : List IptEntry) : KeysFrom rules rules :=
  fun e member => ⟨e, member, rfl, rfl⟩

theorem keysFrom_eraseP (p : IptEntry → Bool) (rules : List IptEntry) :
    KeysFrom rules (rules.eraseP p) :=
  fun e member => ⟨e, List.mem_of_mem_eraseP member, rfl, rfl⟩

theorem keysFrom_withIport (p : IptEntry → Bool) (iport : UInt16) (rules : List IptEntry) :
    KeysFrom rules (updateFirst p (withIport iport) rules) := by
  intro e' member
  rcases mem_updateFirst member with old | ⟨e, inside, _, same⟩
  · exact ⟨e', old, rfl, rfl⟩
  · exact ⟨e, inside, by rw [same]; rfl, by rw [same]; rfl⟩

theorem bytes_of_keysFrom {rules rules' : List IptEntry} (keys : KeysFrom rules rules')
    (bytes : ByteProtos rules) : ByteProtos rules' := by
  intro e' member
  obtain ⟨e, inside, proto, _⟩ := keys e' member
  rw [proto]
  exact bytes e inside

theorem expiry_congr {e e' : IptEntry} (proto : e'.proto = e.proto) (dpts : e'.dpts = e.dpts)
    (descs : List RdrDesc) : expiry descs e' = expiry descs e := by
  simp only [expiry, proto, dpts]

section steps
variable {d d' : Daemon} {env : Env} {rhost : Option CString} {eport : UInt16} {iaddr : CString}
  {iport : UInt16} {proto : Int} {desc : CString} {timestamp : Nat}

theorem holds_untouched (untouched : Untouched d d') (holds : Holds d) : Holds d' := by
  obtain ⟨nat, descs, next⟩ := untouched
  simpa only [Holds, Covered, nat, descs, next, tables_nat, tables_descs] using holds

theorem holds_described (byte : isByte proto)
    (described : Described rhost eport iaddr iport proto desc timestamp d d')
    (kept : ∀ old, Covers d.nextruletocleanTimestamp old → Covers d'.nextruletocleanTimestamp old)
    (covers : Covers d'.nextruletocleanTimestamp timestamp) (holds : Holds d) : Holds d' := by
  intro e member
  rw [described.1] at member
  rw [described.2]
  simp only [describe, tables_nat, tables_descs, expiry, timestampOf_cons, List.mem_append,
    List.mem_singleton] at member ⊢
  split
  · exact covers
  · rename_i other
    rcases member with old | new
    · exact kept _ (holds e old)
    · have key := natRule_key rhost eport iaddr iport byte
      rw [new, key.1, key.2] at other
      simp at other

theorem holds_internal (byte : isByte proto)
    (half : env.disablePortForwarding = false → halfAdded env d.nf.iptcResults = true →
      Covers d.nextruletocleanTimestamp timestamp) (holds : Holds d) :
    Holds (upnpRedirectInternal env rhost eport iaddr iport proto desc timestamp d).2 := by
  rcases upnpRedirectInternal_cases env rhost eport iaddr iport proto desc timestamp d with
    ⟨_, untouched⟩ | ⟨enters, described, lower | ⟨same, failed⟩⟩
  · exact holds_untouched untouched holds
  · apply holds_described byte described ?_ ?_ holds
    · intro old covers
      rw [lower]
      exact covers_lowered timestamp covers
    · rw [lower]
      exact covers_lowered_self _ timestamp
  · apply holds_described byte described ?_ ?_ holds
    · intro old covers
      rw [same]
      exact covers
    · rw [same]
      exact half enters.1 failed

theorem bytes_internal (byte : isByte proto) (bytes : Bytes d) :
    Bytes (upnpRedirectInternal env rhost eport iaddr iport proto desc timestamp d).2 := by
  rcases upnpRedirectInternal_cases env rhost eport iaddr iport proto desc timestamp d with
    ⟨_, same, _⟩ | ⟨_, ⟨added, _⟩, _⟩
  · rw [tables_nat] at same
    rw [Bytes, same]
    exact bytes
  · intro e member
    rw [← tables_nat, added] at member
    simp only [describe, List.mem_append, List.mem_singleton] at member
    rcases member with old | new
    · exact bytes e old
    · have key := (natRule_key rhost eport iaddr iport byte).2
      rw [← new] at key
      obtain ⟨_, high⟩ := byte
      omega

theorem expiry_redescribe (byte : isByte proto) {e : IptEntry} (byteE : isByte (e.proto.toNat : Int))
    (desc : Option CString) (t : Tables) :
    expiry (redescribe eport proto desc timestamp t).descs e =
      if redirectMatches proto eport e then timestamp else expiry t.descs e := by
  simp only [redescribe, expiry, timestampOf_cons, redirectMatches_iff, ofInt_inj byte byteE]
  by_cases key : eport = e.dpts.1 ∧ proto = (e.proto.toNat : Int)
  · rw [if_pos key, if_pos ⟨key.2, key.1⟩]
  · rw [if_neg key, if_neg fun both => key ⟨both.2, both.1⟩]
    apply timestampOf_erase_other byte byteE
    intro same
    exact key ⟨same.1.symm, same.2.symm⟩

theorem covered_update {nf : Netfilter} {next : Nat} (byte : isByte proto)
    (bytes : ByteProtos (nf.chain .nat)) (covers : Covers next timestamp)
    (covered : Covered next (tables nf)) (iportOld : UInt16) :
    let nf' := (updateExisting env eport proto iport iportOld desc timestamp nf).2
    Covered next (tables nf') ∧ ByteProtos (nf'.chain .nat) := by
  obtain ⟨nat, descs⟩ := updateExisting_cases env eport iport proto desc timestamp iportOld nf
  have keys : KeysFrom (nf.chain .nat)
      (tables (updateExisting env eport proto iport iportOld desc timestamp nf).2).nat := by
    rcases nat with same | updated
    · rw [same]
      exact keysFrom_self _
    · rw [updated]
      exact keysFrom_withIport _ iport _
  refine ⟨?_, bytes_of_keysFrom keys bytes⟩
  intro e' member
  obtain ⟨e, inside, sameProto, sameDpts⟩ := keys e' member
  rw [expiry_congr sameProto sameDpts]
  have old := covered e inside
  rcases descs with same | new
  · rw [same]
    exact old
  · rw [new, expiry_redescribe byte (byte_of_entry bytes inside)]
    split
    · exact covers
    · exact old

theorem holds_renew (byte : isByte proto) (bytes : Bytes d) (old : RedirectRule)
    (leaseduration : Nat)
    (covers : iaddr = old.iaddr → sameRhost rhost old.rhost = true →
      Covers d.nextruletocleanTimestamp (expiryTime env leaseduration)) (holds : Holds d) :
    Holds (renew env rhost eport iaddr iport proto desc leaseduration old d).2 ∧
      Bytes (renew env rhost eport iaddr iport proto desc leaseduration old d).2 := by
  unfold renew
  by_cases same : iaddr = old.iaddr ∧ sameRhost rhost old.rhost = true
  · have ts := covers same.1 same.2
    obtain ⟨covered, next⟩ := covered_update byte bytes ts holds old.iport
    obtain ⟨covered', next'⟩ := covered_update byte next ts covered old.iport
    rw [if_pos same]
    dsimp only
    split
    · simp only [Holds, Bytes, fileAdd_nf, fileAdd_next, fileRemove_nf, fileRemove_next, withNf_nf,
        withNf_next]
      exact ⟨covered', next'⟩
    · exact ⟨covered', next'⟩
  · rw [if_neg same]
    exact ⟨holds, bytes⟩

/-- What a request must meet: if it overwrites a mapping, or adds one only half, the time
    of the next cleaning covers its expiry already. -/
def RedirectAdmitted (env : Env) (rhost : Option CString) (eport : UInt16) (iaddr : CString)
    (iport : UInt16) (protocol : CString) (leaseduration : Nat) (d : Daemon) : Prop :=
  let proto := protoAtoi protocol
  let looked := d.lookup eport proto
  ∀ address, inetAton iaddr = some address →
    checkUpnpRuleAgainstPermissions env.upnppermlist eport address iport = true →
    (∀ old, looked.1 = some old → iaddr = old.iaddr → sameRhost rhost old.rhost = true →
      Covers d.nextruletocleanTimestamp (expiryTime env leaseduration)) ∧
    (looked.1 = none → ¬ (env.checkPortinuse ∧ env.portInUse eport proto iaddr iport) →
      env.disablePortForwarding = false → halfAdded env looked.2.nf.iptcResults = true →
      Covers d.nextruletocleanTimestamp (expiryTime env leaseduration))

theorem lookup_frame (eport : UInt16) (proto : Int) (d : Daemon) :
    tables (d.lookup eport proto).2.nf = tables d.nf ∧
      (d.lookup eport proto).2.nextruletocleanTimestamp = d.nextruletocleanTimestamp :=
  ⟨getRedirectRule_tables eport proto d.nf, rfl⟩

theorem holds_redirect {protocol : CString} {leaseduration : Nat} (request : Option CString)
    (bytes : Bytes d)
    (admitted : RedirectAdmitted env rhost eport iaddr iport protocol leaseduration d)
    (holds : Holds d) :
    let d' := (upnpRedirect env rhost eport iaddr iport protocol request leaseduration d).2
    Holds d' ∧ Bytes d' := by
  unfold upnpRedirect
  cases parsed : inetAton iaddr with
  | none => exact ⟨holds, bytes⟩
  | some address =>
    dsimp only
    split
    · rename_i permitted
      obtain ⟨overwrite, half⟩ := admitted address parsed permitted
      generalize recorded :
        d.record (.upnpRedirect rhost eport iaddr iport protocol request leaseduration) = mid
      have same : mid.nf = d.nf := by rw [← recorded]; rfl
      have next : mid.nextruletocleanTimestamp = d.nextruletocleanTimestamp := by
        rw [← recorded]
        rfl
      have looked : mid.lookup eport (protoAtoi protocol) =
          ((d.lookup eport (protoAtoi protocol)).1,
            mid.withNf (d.lookup eport (protoAtoi protocol)).2.nf) := by
        simp only [Daemon.lookup, same]
        rfl
      have frame := (lookup_frame eport (protoAtoi protocol) d).1
      have byte := protoAtoi_byte protocol
      generalize after : mid.withNf (d.lookup eport (protoAtoi protocol)).2.nf = d1 at looked
      have holds1 : Holds d1 := by
        rw [← after]
        simpa only [Holds, withNf_next, withNf_nf, frame, next] using holds
      have bytes1 : Bytes d1 := by
        rw [← after]
        simpa only [Bytes, withNf_nf, ← tables_nat, frame] using bytes
      have next1 : d1.nextruletocleanTimestamp = d.nextruletocleanTimestamp := by
        rw [← after]
        exact next
      have results1 : d1.nf = (d.lookup eport (protoAtoi protocol)).2.nf := by
        rw [← after]
        rfl
      simp only [looked]
      cases answer : (d.lookup eport (protoAtoi protocol)).1 with
      | some old =>
        dsimp only
        refine holds_renew byte bytes1 old leaseduration ?_ holds1
        intro sameClient sameHost
        rw [next1]
        exact overwrite old answer sameClient sameHost
      | none =>
        dsimp only
        split
        · exact ⟨holds1, bytes1⟩
        · rename_i free
          refine ⟨holds_internal byte ?_ holds1, bytes_internal byte bytes1⟩
          intro enabled failed
          rw [next1]
          rw [results1] at failed
          exact half answer free enabled failed
    · exact ⟨holds, bytes⟩

/-- What a removal must meet: a rule that is left under the key shows a covered expiry. -/
def DeleteAdmitted (eport : UInt16) (proto : Int) (d : Daemon) : Prop :=
  let left :=
    if callsSucceed 5 d.nf.iptcResults then
      (d.nf.chain .nat).eraseP (redirectMatches proto eport)
    else d.nf.chain .nat
  callsSucceed 1 d.nf.iptcResults = true → (∃ e ∈ left, redirectMatches proto eport e = true) →
    Covers d.nextruletocleanTimestamp
      (timestampOf (d.nf.rdrDescList.eraseP (descMatches eport proto)) eport proto)

theorem delete_nat_subset (eport : UInt16) (proto : Int) (d : Daemon) :
    KeysFrom (d.nf.chain .nat)
      (tables (upnpDeleteRedir env eport proto d).2.nf).nat ∧
    ∀ e ∈ (tables (upnpDeleteRedir env eport proto d).2.nf).nat, e ∈ d.nf.chain .nat := by
  obtain ⟨_, _, nat⟩ := upnpDeleteRedir_exact env eport proto d
  rw [nat]
  split
  · exact ⟨keysFrom_eraseP _ _, fun e member => List.mem_of_mem_eraseP member⟩
  · exact ⟨keysFrom_self _, fun e member => member⟩

theorem bytes_delete (bytes : Bytes d) : Bytes (upnpDeleteRedir env eport proto d).2 :=
  bytes_of_keysFrom (delete_nat_subset eport proto d).1 bytes

theorem holds_delete_iff (byte : isByte proto) (bytes : Bytes d) (holds : Holds d) :
    Holds (upnpDeleteRedir env eport proto d).2 ↔ DeleteAdmitted eport proto d := by
  obtain ⟨next, descs, nat⟩ := upnpDeleteRedir_exact env eport proto d
  have inside := (@delete_nat_subset env eport proto d).2
  constructor
  · intro after opened left
    obtain ⟨e, member, hit⟩ := left
    rw [← nat] at member
    have covers := after e member
    rw [next, descs, if_pos opened] at covers
    obtain ⟨protos, ports⟩ := (redirectMatches_iff e).mp hit
    rwa [expiry, ← protos, ← ports] at covers
  · intro admitted e member
    have old := holds e (inside e member)
    rw [next, descs]
    split
    · rename_i opened
      by_cases key : redirectMatches proto eport e = true
      · rw [nat] at member
        have covers := admitted opened ⟨e, member, key⟩
        obtain ⟨protos, ports⟩ := (redirectMatches_iff e).mp key
        rwa [expiry, ← protos, ← ports]
      · have byteE := byte_of_entry bytes (inside e member)
        rw [expiry, timestampOf_erase_other byte byteE]
        · exact old
        · intro same
          apply key
          rw [redirectMatches_iff]
          exact ⟨same.2.symm, same.1.symm⟩
    · exact old

end steps

section cleaning
variable {d : Daemon} {now : Nat}

def ruleState (now : Nat) (descs : List RdrDesc) (e : IptEntry) : RuleState :=
  { packets := e.pcnt
    bytes := e.bcnt
    eport := e.dpts.1
    proto := Int16.ofInt e.proto.toNat
    toRemove := 0 < expiry descs e ∧ expiry descs e ≤ now }

def earliest (now : Nat) (times : List Nat) (next : Nat) : Nat :=
  times.foldl (fun next timestamp => cleanTimestamp now timestamp next) next

theorem collect_quiet (quiet : d.nf.Quiet) (fuel i : Nat) (list : List RuleState)
    (enough : (d.nf.chain .nat).length < fuel + i) :
    collectRuleStates now fuel i list d =
      ((((d.nf.chain .nat).drop i).map (ruleState now d.nf.rdrDescList)).reverse ++ list,
        { d with
          nextruletocleanTimestamp :=
            earliest now (((d.nf.chain .nat).drop i).map (expiry d.nf.rdrDescList))
              d.nextruletocleanTimestamp }) := by
  induction fuel generalizing i list d with
  | zero =>
    have past : (d.nf.chain .nat).drop i = [] := List.drop_eq_nil_iff.mpr (by omega)
    simp [collectRuleStates, past, earliest]
  | succ fuel ih =>
    rw [collectRuleStates, getRedirectRuleByIndex_quiet quiet]
    cases here : (d.nf.chain .nat)[i]? with
    | none =>
      have past : (d.nf.chain .nat).drop i = [] :=
        List.drop_eq_nil_iff.mpr (List.getElem?_eq_none_iff.mp here)
      simp [past, Daemon.withNf, earliest]
    | some e =>
      have split : (d.nf.chain .nat).drop i = e :: (d.nf.chain .nat).drop (i + 1) := by
        obtain ⟨bound, value⟩ := List.getElem?_eq_some_iff.mp here
        rw [List.drop_eq_getElem_cons bound, value]
      simp only [Option.map_some, readRule_timestamp]
      rw [ih (by exact quiet) (i + 1) _ (by dsimp only; omega)]
      simp [split, ruleState, readRule, earliest]

/-- The smallest expiry after `now` among those seen, 0 as long as there is none. -/
theorem clean_fold (times : List Nat) (next : Nat) (start : next = 0 ∨ now < next) :
    let last := earliest now times next
    (last = 0 ∨ now < last) ∧ (now < next → 0 < last ∧ last ≤ next) ∧
      ∀ timestamp ∈ times, now < timestamp → 0 < last ∧ last ≤ timestamp := by
  induction times generalizing next with
  | nil =>
    refine ⟨start, ?_, by simp⟩
    intro later
    exact ⟨by simp only [earliest, List.foldl_nil]; omega, le_refl next⟩
  | cons first times ih =>
    have stepStart : cleanTimestamp now first next = 0 ∨ now < cleanTimestamp now first next := by
      unfold cleanTimestamp
      split <;> omega
    obtain ⟨range, below, all⟩ := ih _ stepStart
    have lower : now < next → now < cleanTimestamp now first next ∧
        cleanTimestamp now first next ≤ next := by
      intro later
      unfold cleanTimestamp
      split <;> omega
    have lowerFirst : now < first → now < cleanTimestamp now first next ∧
        cleanTimestamp now first next ≤ first := by
      intro later
      unfold cleanTimestamp
      split <;> omega
    refine ⟨range, ?_, ?_⟩
    · intro later
      have bound := below (lower later).1
      have small := (lower later).2
      exact ⟨bound.1, by simp only [earliest, List.foldl_cons] at bound ⊢; omega⟩
    · intro timestamp member later
      rcases List.mem_cons.mp member with here | rest
      · subst here
        have bound := below (lowerFirst later).1
        have small := (lowerFirst later).2
        exact ⟨bound.1, by simp only [earliest, List.foldl_cons] at bound ⊢; omega⟩
      · exact all timestamp rest later

def removeAll (list : List RuleState) (t : Tables) : Tables :=
  list.foldl (fun t state => if state.toRemove then remove state.eport state.proto.toInt t else t) t

theorem removeExpired_quiet (env : Env) (quiet : d.nf.Quiet) (list : List RuleState) :
    let d' := removeExpired env list d
    d'.nf.Quiet ∧ tables d'.nf = removeAll list (tables d.nf) ∧
      d'.nextruletocleanTimestamp = d.nextruletocleanTimestamp := by
  induction list generalizing d with
  | nil => exact ⟨quiet, rfl, rfl⟩
  | cons state list ih =>
    simp only [removeExpired, removeAll, List.foldl_cons]
    split
    · obtain ⟨next, removed⟩ := upnpDeleteRedir_quiet env state.eport quiet state.proto.toInt
      obtain ⟨still, after, time⟩ := ih next
      have same := (upnpDeleteRedir_exact env state.eport state.proto.toInt d).1
      rw [removed] at after
      exact ⟨still, after, time.trans same⟩
    · exact ih quiet

def hits (eport : UInt16) (proto : Int) (state : RuleState) : Bool :=
  state.toRemove ∧ state.eport = eport ∧ state.proto.toInt = proto

/-- Rules go from the table as often as their key is listed. -/
theorem removeAll_gone (eport : UInt16) (proto : Int) (list : List RuleState) (t : Tables)
    (enough : t.nat.countP (redirectMatches proto eport) ≤ list.countP (hits eport proto)) :
    (removeAll list t).nat.countP (redirectMatches proto eport) = 0 := by
  induction list generalizing t with
  | nil => simpa [removeAll] using enough
  | cons state list ih =>
    simp only [removeAll, List.foldl_cons]
    apply ih
    by_cases hit : hits eport proto state = true
    · have fields : state.toRemove = true ∧ state.eport = eport ∧ state.proto.toInt = proto := by
        simpa [hits] using hit
      rw [List.countP_cons_of_pos hit] at enough
      rw [if_pos fields.1, fields.2.1, fields.2.2]
      cases found : t.nat.find? (redirectMatches proto eport) with
      | none =>
        have missing : (remove eport proto t).nat = t.nat := eraseP_of_find?_none found
        rw [missing, List.countP_eq_zero.mpr (List.find?_eq_none.mp found)]
        omega
      | some e =>
        have fewer := countP_eraseP found
        simp only [remove]
        omega
    · rw [List.countP_cons_of_neg hit] at enough
      split
      · rename_i marked
        have other : (remove state.eport state.proto.toInt t).nat.countP
            (redirectMatches proto eport) = t.nat.countP (redirectMatches proto eport) := by
          apply countP_eraseP_other
          intro e key
          by_contra also
          rw [Bool.not_eq_false, redirectMatches_iff] at also
          rw [redirectMatches_iff] at key
          apply hit
          simp only [hits, decide_eq_true_eq]
          exact ⟨marked, also.2.trans key.2.symm, also.1.trans key.1.symm⟩
        omega
      · exact enough

theorem removeAll_subset (list : List RuleState) (t : Tables) :
    ∀ e ∈ (removeAll list t).nat, e ∈ t.nat := by
  induction list generalizing t with
  | nil => exact fun e member => member
  | cons state list ih =>
    intro e member
    simp only [removeAll, List.foldl_cons] at member
    have inside := ih _ e member
    split at inside
    · exact List.mem_of_mem_eraseP inside
    · exact inside

theorem removeAll_other {eport : UInt16} {proto : Int} (byte : isByte proto)
    (list : List RuleState) (bytes : ∀ state ∈ list, isByte state.proto.toInt)
    (other : ∀ state ∈ list, hits eport proto state = false) (t : Tables) :
    timestampOf (removeAll list t).descs eport proto = timestampOf t.descs eport proto := by
  induction list generalizing t with
  | nil => rfl
  | cons state list ih =>
    simp only [List.mem_cons, forall_eq_or_imp] at bytes other
    have rest := ih bytes.2 other.2 (if state.toRemove then
      remove state.eport state.proto.toInt t else t)
    simp only [removeAll, List.foldl_cons]
    refine rest.trans ?_
    split
    · rename_i marked
      apply timestampOf_erase_other bytes.1 byte
      intro same
      have hit : hits eport proto state = true := by
        simp only [hits, decide_eq_true_eq]
        exact ⟨marked, same.1.symm, same.2.symm⟩
      rw [other.1] at hit
      exact absurd hit (by simp)
    · rfl

/-- A cleaning whose calls succeed sets a time that covers every mapping it leaves. -/
theorem holds_cleaning (env : Env) (maxRules : Int) (quiet : d.nf.Quiet) (bytes : Bytes d) :
    let d' := (getUpnpRulesStateList env maxRules d).2
    Holds d' ∧ Bytes d' ∧ d'.nf.Quiet := by
  simp only [getUpnpRulesStateList]
  rw [collect_quiet (by exact quiet) _ 0 [] (by simp)]
  simp only [List.drop_zero, List.append_nil]
  generalize timed : env.clock.upnpTime % 2 ^ 32 = now
  generalize last : earliest now ((d.nf.chain .nat).map (expiry d.nf.rdrDescList)) 0 = next
  generalize states : ((d.nf.chain .nat).map (ruleState now d.nf.rdrDescList)).reverse = list
  obtain ⟨still, removed, time⟩ := @removeExpired_quiet
    { d with nextruletocleanTimestamp := next } env quiet list
  have inside : ∀ e ∈ (removeAll list (tables d.nf)).nat, e ∈ d.nf.chain .nat :=
    removeAll_subset list (tables d.nf)
  have statesByte : ∀ state ∈ list, isByte state.proto.toInt := by
    intro state member
    rw [← states, List.mem_reverse, List.mem_map] at member
    obtain ⟨e, from', same⟩ := member
    have byte := byte_of_entry bytes from'
    rw [← same]
    simpa [ruleState, toInt_of_byte byte] using byte
  have counted : ∀ e ∈ d.nf.chain .nat, 0 < expiry d.nf.rdrDescList e →
      expiry d.nf.rdrDescList e ≤ now →
      (removeAll list (tables d.nf)).nat.countP (redirectMatches e.proto.toNat e.dpts.1) = 0 := by
    intro e member leased expired
    apply removeAll_gone
    rw [← states, List.countP_reverse, List.countP_map]
    apply List.countP_mono_left
    intro e' member' key
    obtain ⟨protos, ports⟩ := (redirectMatches_iff e').mp key
    have byte := byte_of_entry bytes member'
    have sameExpiry : expiry d.nf.rdrDescList e' = expiry d.nf.rdrDescList e := by
      rw [expiry, expiry, ← protos, ← ports]
    simp only [Function.comp, hits, ruleState, sameExpiry, toInt_of_byte byte]
    simp [leased, expired, protos, ports]
  refine ⟨?_, ?_, still⟩
  · intro e member
    rw [removed] at member ⊢
    rw [time]
    have old := inside e member
    have byte := byte_of_entry bytes old
    by_cases expired : 0 < expiry d.nf.rdrDescList e ∧ expiry d.nf.rdrDescList e ≤ now
    · have gone := counted e old expired.1 expired.2
      have key : redirectMatches e.proto.toNat e.dpts.1 e = true := by simp [redirectMatches]
      exact absurd key (List.countP_eq_zero.mp gone e member)
    · have other : ∀ state ∈ list, hits e.dpts.1 e.proto.toNat state = false := by
        intro state from'
        rw [← states, List.mem_reverse, List.mem_map] at from'
        obtain ⟨e', inside', same⟩ := from'
        have byte' := byte_of_entry bytes inside'
        by_contra hit
        rw [Bool.not_eq_false, ← same] at hit
        simp only [hits, ruleState, toInt_of_byte byte', decide_eq_true_eq] at hit
        have sameExpiry : expiry d.nf.rdrDescList e' = expiry d.nf.rdrDescList e := by
          rw [expiry, expiry, hit.2.1, hit.2.2]
        rw [sameExpiry] at hit
        exact expired hit.1
      rw [expiry, removeAll_other byte list statesByte other]
      intro leased
      have later : now < expiry d.nf.rdrDescList e := by
        have positive : expiry d.nf.rdrDescList e ≠ 0 := leased
        omega
      have fold := (clean_fold ((d.nf.chain .nat).map (expiry d.nf.rdrDescList)) 0
        (Or.inl rfl)).2.2 _ (List.mem_map_of_mem old) later
      rw [last] at fold
      exact fold
  · intro e member
    rw [← tables_nat, removed] at member
    exact bytes e (inside e member)

theorem collect_permanent (permanent : ∀ e ∈ d.nf.chain .nat, expiry d.nf.rdrDescList e = 0)
    (zero : d.nextruletocleanTimestamp = 0) (fuel i : Nat) (list : List RuleState)
    (kept : ∀ state ∈ list, state.toRemove = false) :
    let collected := collectRuleStates now fuel i list d
    (∀ state ∈ collected.1, state.toRemove = false) ∧
      tables collected.2.nf = tables d.nf ∧ collected.2.nextruletocleanTimestamp = 0 := by
  induction fuel generalizing i list d with
  | zero => exact ⟨kept, rfl, zero⟩
  | succ fuel ih =>
    obtain ⟨done, results, calls⟩ := iptcCalls_cases 2 d.nf
    rw [collectRuleStates]
    simp only [getRedirectRuleByIndex, calls]
    cases here : (if done = true ∧ (0 : Int) ≤ (i : Int) then
        (((d.nf.withResults results).chain .nat)[(i : Int).toNat]?).map
          (readRule (d.nf.withResults results)) else none) with
    | none => exact ⟨kept, rfl, zero⟩
    | some rule =>
      have none : rule.timestamp = 0 := by
        split at here
        · obtain ⟨e, at', same⟩ := Option.map_eq_some_iff.mp here
          rw [← same, readRule_timestamp]
          exact permanent e (List.mem_of_getElem? at')
        · simp at here
      have clean : cleanTimestamp now rule.timestamp d.nextruletocleanTimestamp = 0 := by
        simp [cleanTimestamp, none, zero]
      simp only [clean]
      apply ih
      · exact permanent
      · rfl
      · intro state member
        rcases List.mem_cons.mp member with first | rest
        · rw [first]
          simp [none]
        · exact kept state rest

theorem removeExpired_none (env : Env) (list : List RuleState)
    (kept : ∀ state ∈ list, state.toRemove = false) : removeExpired env list d = d := by
  induction list with
  | nil => rfl
  | cons state list ih =>
    simp only [List.mem_cons, forall_eq_or_imp] at kept
    simp only [removeExpired, List.foldl_cons, kept.1, Bool.false_eq_true, ↓reduceIte]
    exact ih kept.2

theorem holds_cleaning_permanent (env : Env) (maxRules : Int) (bytes : Bytes d)
    (permanent : ∀ e ∈ d.nf.chain .nat, expiry d.nf.rdrDescList e = 0) :
    let d' := (getUpnpRulesStateList env maxRules d).2
    Holds d' ∧ Bytes d' := by
  simp only [getUpnpRulesStateList]
  obtain ⟨kept, same, zero⟩ :=
    @collect_permanent { d with nextruletocleanTimestamp := 0 } (env.clock.upnpTime % 2 ^ 32)
      permanent rfl ((d.nf.chain .nat).length + 1) 0 [] (by simp)
  rw [removeExpired_none env _ kept]
  constructor
  · intro e member
    rw [same] at member ⊢
    rw [show expiry (tables d.nf).descs e = 0 from permanent e member]
    exact covers_zero _
  · rw [Bytes, ← tables_nat, same]
    exact bytes

end cleaning

/-- `results` are the outcomes of the libiptc calls of the operation. -/
inductive Op where
  | upnpRedirect (results : List Bool) (env : Env) (rhost : Option CString) (eport : UInt16)
      (iaddr : CString) (iport : UInt16) (protocol : CString) (desc : Option CString)
      (leaseduration : Nat)
  | upnpRedirectInternal (results : List Bool) (env : Env) (rhost : Option CString)
      (eport : UInt16) (iaddr : CString) (iport : UInt16) (proto : UInt8) (desc : CString)
      (timestamp : Nat)
  | upnpDeleteRedir (results : List Bool) (env : Env) (eport : UInt16) (proto : UInt8)
  | getUpnpRulesStateList (results : List Bool) (env : Env) (maxRulesNumberTarget : Int)

def Op.results : Op → List Bool
  | .upnpRedirect results .. => results
  | .upnpRedirectInternal results .. => results
  | .upnpDeleteRedir results .. => results
  | .getUpnpRulesStateList results .. => results

def facing (d : Daemon) (results : List Bool) : Daemon := d.withNf (d.nf.withResults results)

def run (op : Op) (d : Daemon) : Daemon :=
  match op with
  | .upnpRedirect _ env rhost eport iaddr iport protocol desc leaseduration =>
      (UpnpRedirect.upnpRedirect env rhost eport iaddr iport protocol desc leaseduration d).2
  | .upnpRedirectInternal _ env rhost eport iaddr iport proto desc timestamp =>
      (UpnpRedirect.upnpRedirectInternal env rhost eport iaddr iport proto.toNat desc timestamp d).2
  | .upnpDeleteRedir _ env eport proto => (UpnpRedirect.upnpDeleteRedir env eport proto.toNat d).2
  | .getUpnpRulesStateList _ env maxRules =>
      (UpnpRedirect.getUpnpRulesStateList env maxRules d).2

def step (d : Daemon) (op : Op) : Daemon := run op (facing d op.results)

/-- A cleaning is admitted when its libiptc calls succeed or no mapping has a lease. -/
def Admits (d : Daemon) (op : Op) : Prop :=
  match op with
  | .upnpRedirect results env rhost eport iaddr iport protocol _ leaseduration =>
      RedirectAdmitted env rhost eport iaddr iport protocol leaseduration (facing d results)
  | .upnpRedirectInternal results env _ _ _ _ _ _ timestamp =>
      env.disablePortForwarding = false → halfAdded env results = true →
        Covers d.nextruletocleanTimestamp timestamp
  | .upnpDeleteRedir results _ eport proto => DeleteAdmitted eport proto.toNat (facing d results)
  | .getUpnpRulesStateList results _ _ =>
      results = [] ∨ ∀ e ∈ d.nf.chain .nat, expiry d.nf.rdrDescList e = 0

theorem byte_toNat (proto : UInt8) : isByte (proto.toNat : Int) := by
  have small := proto.toNat_lt
  exact ⟨by omega, by omega⟩

theorem step_holds (d : Daemon) (op : Op) (both : Holds d ∧ Bytes d) (admitted : Admits d op) :
    Holds (step d op) ∧ Bytes (step d op) := by
  obtain ⟨holds, bytes⟩ := both
  have holds0 : Holds (facing d op.results) := holds
  have bytes0 : Bytes (facing d op.results) := bytes
  cases op with
  | upnpRedirect results env rhost eport iaddr iport protocol desc leaseduration =>
    exact holds_redirect desc bytes0 admitted holds0
  | upnpRedirectInternal results env rhost eport iaddr iport proto desc timestamp =>
    exact ⟨holds_internal (byte_toNat proto) admitted holds0,
      bytes_internal (byte_toNat proto) bytes0⟩
  | upnpDeleteRedir results env eport proto =>
    exact ⟨(holds_delete_iff (byte_toNat proto) bytes0 holds0).mpr admitted, bytes_delete bytes0⟩
  | getUpnpRulesStateList results env maxRules =>
    rcases admitted with quiet | permanent
    · have cleaned := @holds_cleaning (facing d results) env maxRules quiet bytes0
      exact ⟨cleaned.1, cleaned.2.1⟩
    · exact holds_cleaning_permanent env maxRules bytes0 permanent

section quiet
variable {d : Daemon}

theorem shaped_removeAll (list : List RuleState) {t : Tables} (shaped : Shaped t) :
    Shaped (removeAll list t) := by
  induction list generalizing t with
  | nil => exact shaped
  | cons state list ih =>
    simp only [removeAll, List.foldl_cons]
    apply ih
    split
    · exact shaped_remove shaped
    · exact shaped

theorem shaped_cleaning (env : Env) (maxRules : Int) (quiet : d.nf.Quiet)
    (shaped : Shaped (tables d.nf)) :
    Shaped (tables (getUpnpRulesStateList env maxRules d).2.nf) := by
  simp only [getUpnpRulesStateList]
  rw [collect_quiet (by exact quiet) _ 0 [] (by simp)]
  dsimp only
  rw [(removeExpired_quiet env (by exact quiet) _).2.1]
  exact shaped_removeAll _ shaped

theorem step_shaped (op : Op) (quiet : op.results = []) (shaped : Shaped (tables d.nf)) :
    Shaped (tables (step d op).nf) := by
  have quiet0 : (facing d op.results).nf.Quiet := quiet
  have shaped0 : Shaped (tables (facing d op.results).nf) := shaped
  cases op with
  | upnpRedirect results env rhost eport iaddr iport protocol desc leaseduration =>
    simp only [step, run]
    rw [(upnpRedirect_quiet env rhost eport iaddr iport quiet0 protocol desc leaseduration).2]
    exact shaped_redirectTables shaped0 env rhost eport iaddr iport protocol desc leaseduration
  | upnpRedirectInternal results env rhost eport iaddr iport proto desc timestamp =>
    simp only [step, run]
    rw [(upnpRedirectInternal_quiet env rhost eport iaddr iport quiet0 _ desc timestamp).2]
    split
    · exact shaped0
    · exact shaped_addMapping shaped0 rhost eport iaddr iport _ desc timestamp
  | upnpDeleteRedir results env eport proto =>
    simp only [step, run]
    rw [(upnpDeleteRedir_quiet env eport quiet0 _).2]
    exact shaped_remove shaped0
  | getUpnpRulesStateList results env maxRules =>
    exact shaped_cleaning env maxRules quiet0 shaped0

/-- An overwritten mapping shows the expiry it was given. -/
theorem overwritten_expiry {t : Tables} (shaped : Shaped t) (bytes : ByteProtos t.nat)
    {e : IptEntry} {eport : UInt16} {proto : Int} (byte : isByte proto) (iport : UInt16)
    (desc : Option CString) (timestamp : Nat)
    (found : t.nat.find? (redirectMatches proto eport) = some e) :
    let after :=
      if iport ≠ e.target.minAll then
        renumber eport proto iport desc timestamp (renumber eport proto iport desc timestamp t)
      else
        redescribe eport proto desc timestamp (redescribe eport proto desc timestamp t)
    ∃ e' ∈ after.nat, expiry after.descs e' = timestamp := by
  have key : redirectMatches proto eport e = true := List.find?_some found
  have byteE := byte_of_entry bytes (List.mem_of_find?_eq_some found)
  by_cases same : iport = e.target.minAll
  · rw [if_neg (by simpa using same)]
    refine ⟨e, List.mem_of_find?_eq_some found, ?_⟩
    rw [expiry_redescribe byte byteE, if_pos key]
  · rw [if_pos same]
    have once : (renumber eport proto iport desc timestamp t).nat.find?
        (redirectMatches proto eport) = some (withIport iport e) := by
      rw [renumber_nat, find?_updateFirst (withIport iport) (fun _ => rfl), found]
      rfl
    refine ⟨withIport iport (withIport iport e), ?_, ?_⟩
    · have twice : (renumber eport proto iport desc timestamp
          (renumber eport proto iport desc timestamp t)).nat.find? (redirectMatches proto eport) =
            some (withIport iport (withIport iport e)) := by
        rw [renumber_nat, find?_updateFirst (withIport iport) (fun _ => rfl), once]
        rfl
      exact List.mem_of_find?_eq_some twice
    · rw [renumber_descs (shaped_renumber shaped desc timestamp) desc timestamp once]
      have shown := @expiry_redescribe eport proto timestamp byte
        (withIport iport (withIport iport e)) byteE desc
        (renumber eport proto iport desc timestamp t)
      exact shown.trans (if_pos key)

theorem renew_next (env : Env) (rhost : Option CString) (eport : UInt16) (iaddr : CString)
    (iport : UInt16) (proto : Int) (desc : CString) (leaseduration : Nat) (old : RedirectRule) :
    (renew env rhost eport iaddr iport proto desc leaseduration old d).2.nextruletocleanTimestamp =
      d.nextruletocleanTimestamp := by
  unfold renew
  split
  · dsimp only
    split
    · simp
    · rfl
  · rfl

theorem redirect_needed (env : Env) (rhost : Option CString) (eport : UInt16) (iaddr : CString)
    (iport : UInt16) (protocol : CString) (desc : Option CString) (leaseduration : Nat)
    (quiet : d.nf.Quiet) (shaped : Shaped (tables d.nf)) (bytes : Bytes d)
    (after : Holds (upnpRedirect env rhost eport iaddr iport protocol desc leaseduration d).2) :
    RedirectAdmitted env rhost eport iaddr iport protocol leaseduration d := by
  intro address parsed permitted
  rw [lookup_quiet eport quiet]
  constructor
  · intro old answer sameClient sameHost
    obtain ⟨e, found, read⟩ := Option.map_eq_some_iff.mp answer
    have changed :=
      (upnpRedirect_quiet env rhost eport iaddr iport quiet protocol desc leaseduration).2
    subst read
    have client : iaddr = inetNtoa e.target.minIp := sameClient
    have host : sameRhost rhost (rhostOf e) = true := sameHost
    simp only [redirectTables, parsed, permitted, ↓reduceIte, tables_nat, found] at changed
    rw [if_pos ⟨client, host⟩] at changed
    obtain ⟨e', member, shows⟩ := overwritten_expiry shaped bytes (protoAtoi_byte protocol) iport
      (some (desc.getD [])) (expiryTime env leaseduration) found
    have time : (upnpRedirect env rhost eport iaddr iport protocol desc leaseduration
        d).2.nextruletocleanTimestamp = d.nextruletocleanTimestamp := by
      have looked := @lookup_quiet
        (d.record (.upnpRedirect rhost eport iaddr iport protocol desc leaseduration)) eport quiet
        (protoAtoi protocol)
      simp only [upnpRedirect, parsed, permitted, ↓reduceIte, looked, record_nf, found,
        Option.map_some]
      rw [renew_next, record_next]
    have covers := after e' (by rw [changed]; exact member)
    rwa [changed, shows, time] at covers
  · intro _ _ _ half
    have none : d.nf.iptcResults = [] := quiet
    simp [halfAdded, none, callsSucceed] at half

theorem step_needed (d : Daemon) (op : Op) (side : Shaped (tables d.nf) ∧ Bytes d)
    (quiet : op.results = []) (holds : Holds d) (after : Holds (step d op)) : Admits d op := by
  obtain ⟨shaped, bytes⟩ := side
  cases op with
  | upnpRedirect results env rhost eport iaddr iport protocol desc leaseduration =>
    exact @redirect_needed (facing d results) env rhost eport iaddr iport protocol desc
      leaseduration quiet shaped bytes after
  | upnpRedirectInternal results env rhost eport iaddr iport proto desc timestamp =>
    intro _ half
    have none : results = [] := quiet
    simp [halfAdded, none, callsSucceed] at half
  | upnpDeleteRedir results env eport proto =>
    have holds0 : Holds (facing d results) := holds
    have bytes0 : Bytes (facing d results) := bytes
    exact (holds_delete_iff (byte_toNat proto) bytes0 holds0).mp after
  | getUpnpRulesStateList results env maxRules => exact Or.inl quiet

end quiet

theorem start_holds (leaseFile : Option CString) :
    Holds (Daemon.start leaseFile) ∧ Bytes (Daemon.start leaseFile) := by
  constructor
  · intro e member
    simp [tables, Daemon.start, Netfilter.empty] at member
  · intro e member
    simp [Daemon.start, Netfilter.empty] at member

/-- The cleaning time covers every expiry throughout a run whose steps are all admitted;
    when no libiptc call fails in the run, it does so only then. -/
theorem cleaning_time_covers (leaseFile : Option CString) (ops : List Op) :
    (Admitted step Admits (Daemon.start leaseFile) ops →
      Always step Holds (Daemon.start leaseFile) ops) ∧
    ((∀ op ∈ ops, op.results = []) → Always step Holds (Daemon.start leaseFile) ops →
      Admitted step Admits (Daemon.start leaseFile) ops) := by
  obtain ⟨holds, bytes⟩ := start_holds leaseFile
  constructor
  · intro admitted
    have both := always_of_admitted step_holds ⟨holds, bytes⟩ admitted
    exact always_imp (fun d kept => kept.1) both
  · intro quiet run
    have side : Shaped (tables (Daemon.start leaseFile).nf) ∧ Bytes (Daemon.start leaseFile) :=
      ⟨rfl, bytes⟩
    apply admitted_of_always (fun d => Shaped (tables d.nf) ∧ Bytes d) (fun op => op.results = [])
      ?_ side quiet run
    intro d op side calls before after
    have admitted := step_needed d op side calls before after
    exact ⟨admitted, step_shaped op calls side.1, (step_holds d op ⟨before, side.2⟩ admitted).2⟩

/-- A permanent mapping is renewed with a lease of 100 seconds. -/
def shortened : List Op :=
  [.upnpRedirect [] (Env.plain 10) none 1001 "192.168.1.2".toList 80 "TCP".toList none 0,
   .upnpRedirect [] (Env.plain 20) none 1001 "192.168.1.2".toList 80 "TCP".toList none 100]

theorem shortened_lease_not_covered : ¬ Holds (shortened.foldl step (Daemon.start none)) := by
  unfold Holds Covered Covers
  decide +kernel

def leased : List Op :=
  [.upnpRedirect [] (Env.plain 10) none 1001 "192.168.1.2".toList 80 "TCP".toList none 100,
   .getUpnpRulesStateList [] (Env.plain 20) 0,
   .upnpDeleteRedir [] (Env.plain 30) 1001 6]

theorem leased_admitted : Admitted step Admits (Daemon.start none) leased := by
  apply (cleaning_time_covers none leased).2
  · simp [leased, Op.results]
  · simp only [leased, Always, Holds, Covered, Covers]
    decide +kernel

end RuleCleaning
