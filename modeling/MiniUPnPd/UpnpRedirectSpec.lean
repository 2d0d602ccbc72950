import MiniUPnPd.Netfilter.IptcrdrSpec
import MiniUPnPd.RuleKeys
import MiniUPnPd.UpnpRedirect

/-!
The redirection layer over the tables, when no libiptc call fails: each function of the
daemon is one operation on the redirections, the filter rules and the descriptions.
-/
namespace UpnpRedirectSpec
open FirstMatch Inet Iptc Iptcrdr IptcrdrSpec LeaseFile RuleKeys UpnpPermissions UpnpRedirect
variable {d : Daemon} (env : Env) (rhost : Option CString) (eport : UInt16) (iaddr : CString)
  (iport : UInt16)

def addMapping (proto : Int) (desc : CString) (timestamp : Nat) (t : Tables) : Tables :=
  { describe rhost eport iaddr iport proto (some desc) timestamp t with
    forward := t.forward ++ [filterRule proto rhost iaddr iport] }

/-- The mapping that a request for the same client and remote host overwrites. -/
def Overwrites (proto : Int) (e : IptEntry) (t : Tables) : Prop :=
  t.nat.find? (redirectMatches proto eport) = some e ∧ iaddr = inetNtoa e.target.minIp ∧
    sameRhost rhost (rhostOf e)

def redirectTables (protocol : CString) (desc : Option CString) (leaseduration : Nat)
    (t : Tables) : Tables :=
  let proto := protoAtoi protocol
  let str := desc.getD []
  let timestamp := expiryTime env leaseduration
  match inetAton iaddr with
  | none => t
  | some address =>
    if checkUpnpRuleAgainstPermissions env.upnppermlist eport address iport then
      match t.nat.find? (redirectMatches proto eport) with
      | some e =>
          if iaddr = inetNtoa e.target.minIp ∧
              sameRhost rhost (rhostOf e) then
            if iport ≠ e.target.minAll then
              renumber eport proto iport (some str) timestamp
                (renumber eport proto iport (some str) timestamp t)
            else
              redescribe eport proto (some str) timestamp
                (redescribe eport proto (some str) timestamp t)
          else t
      | none =>
          if env.checkPortinuse ∧ env.portInUse eport proto iaddr iport then t
          else if env.disablePortForwarding then t
          else addMapping rhost eport iaddr iport proto str timestamp t
    else t

@[simp] theorem withNf_nf (d : Daemon) (nf : Netfilter) : (d.withNf nf).nf = nf := rfl

@[simp] theorem withNf_next (d : Daemon) (nf : Netfilter) :
    (d.withNf nf).nextruletocleanTimestamp = d.nextruletocleanTimestamp := rfl

@[simp] theorem withNf_calls (d : Daemon) (nf : Netfilter) : (d.withNf nf).calls = d.calls := rfl

@[simp] theorem record_nf (d : Daemon) (call : Call) : (d.record call).nf = d.nf := rfl

@[simp] theorem record_next (d : Daemon) (call : Call) :
    (d.record call).nextruletocleanTimestamp = d.nextruletocleanTimestamp := rfl

@[simp] theorem record_calls (d : Daemon) (call : Call) :
    (d.record call).calls = d.calls ++ [call] := rfl

@[simp] theorem fileAdd_nf (proto : Int) (desc : CString) (timestamp : Nat) (d : Daemon) :
    (fileAdd env eport iaddr iport proto desc timestamp d).nf = d.nf := by
  unfold fileAdd
  split <;> rfl

@[simp] theorem fileAdd_next (proto : Int) (desc : CString) (timestamp : Nat) (d : Daemon) :
    (fileAdd env eport iaddr iport proto desc timestamp d).nextruletocleanTimestamp =
      d.nextruletocleanTimestamp := by
  unfold fileAdd
  split <;> rfl

@[simp] theorem fileAdd_calls (proto : Int) (desc : CString) (timestamp : Nat) (d : Daemon) :
    (fileAdd env eport iaddr iport proto desc timestamp d).calls = d.calls := by
  unfold fileAdd
  split <;> rfl

@[simp] theorem fileRemove_nf (proto : Int) (d : Daemon) :
    (fileRemove env eport proto d).nf = d.nf := by
  unfold fileRemove
  split <;> rfl

@[simp] theorem fileRemove_next (proto : Int) (d : Daemon) :
    (fileRemove env eport proto d).nextruletocleanTimestamp = d.nextruletocleanTimestamp := by
  unfold fileRemove
  split <;> rfl

@[simp] theorem fileRemove_calls (proto : Int) (d : Daemon) :
    (fileRemove env eport proto d).calls = d.calls := by
  unfold fileRemove
  split <;> rfl

theorem lookup_quiet (quiet : d.nf.Quiet) (proto : Int) :
    d.lookup eport proto =
      (((d.nf.chain .nat).find? (redirectMatches proto eport)).map (readRule d.nf), d) := by
  simp only [Daemon.lookup, getRedirectRule_quiet quiet]
  rfl

theorem upnpRedirectInternal_quiet (quiet : d.nf.Quiet) (proto : Int) (desc : CString)
    (timestamp : Nat) :
    let redirected := upnpRedirectInternal env rhost eport iaddr iport proto desc timestamp d
    redirected.2.nf.Quiet ∧
      tables redirected.2.nf =
        if env.disablePortForwarding then tables d.nf
        else addMapping rhost eport iaddr iport proto desc timestamp (tables d.nf) := by
  unfold upnpRedirectInternal
  by_cases disabled : env.disablePortForwarding
  · simpa [disabled] using quiet
  · simp only [disabled, Bool.false_eq_true, ↓reduceIte]
    obtain ⟨zero, next, described⟩ := addRedirectRule2_quiet env.enablePortTriggering rhost eport
      iaddr iport proto (some desc) timestamp quiet
    obtain ⟨done, still, filtered⟩ := addFilterRule2_quiet rhost iaddr iport proto next
    have forward : (addRedirectRule2 env.enablePortTriggering rhost eport iaddr iport proto
        (some desc) timestamp d.nf).2.chain .forward = d.nf.chain .forward :=
      congrArg Tables.forward described
    rw [described, forward] at filtered
    simp only [zero, Int.lt_irrefl, ↓reduceIte, fileAdd_nf, record_nf, withNf_nf, done]
    split
    · exact ⟨still, filtered⟩
    · exact ⟨still, filtered⟩

theorem updateExisting_quiet {nf : Netfilter} (quiet : nf.Quiet) (proto : Int)
    (iportOld : UInt16) (desc : CString) (timestamp : Nat) :
    let updated := updateExisting env eport proto iport iportOld desc timestamp nf
    updated.2.Quiet ∧
      tables updated.2 =
        if iport ≠ iportOld then renumber eport proto iport (some desc) timestamp (tables nf)
        else redescribe eport proto (some desc) timestamp (tables nf) := by
  unfold updateExisting
  split
  · exact updatePortmapping_quiet eport proto iport (some desc) timestamp quiet _
  · exact ⟨by simpa using quiet, rfl⟩

theorem renew_quiet (quiet : d.nf.Quiet) (proto : Int) (desc : CString) (leaseduration : Nat)
    (old : RedirectRule) :
    let renewed := renew env rhost eport iaddr iport proto desc leaseduration old d
    let timestamp := expiryTime env leaseduration
    renewed.2.nf.Quiet ∧
      tables renewed.2.nf =
        if iaddr = old.iaddr ∧ sameRhost rhost old.rhost then
          if iport ≠ old.iport then
            renumber eport proto iport (some desc) timestamp
              (renumber eport proto iport (some desc) timestamp (tables d.nf))
          else
            redescribe eport proto (some desc) timestamp
              (redescribe eport proto (some desc) timestamp (tables d.nf))
        else tables d.nf := by
  unfold renew
  by_cases same : iaddr = old.iaddr ∧ sameRhost rhost old.rhost
  · simp only [same, and_self, ↓reduceIte]
    obtain ⟨next, once⟩ := updateExisting_quiet env eport iport quiet proto old.iport desc
      (expiryTime env leaseduration)
    obtain ⟨still, twice⟩ := updateExisting_quiet env eport iport next proto old.iport desc
      (expiryTime env leaseduration)
    rw [once] at twice
    have result : tables (updateExisting env eport proto iport old.iport desc
        (expiryTime env leaseduration) (updateExisting env eport proto iport old.iport desc
          (expiryTime env leaseduration) d.nf).2).2 =
        if iport ≠ old.iport then
          renumber eport proto iport (some desc) (expiryTime env leaseduration)
            (renumber eport proto iport (some desc) (expiryTime env leaseduration) (tables d.nf))
        else
          redescribe eport proto (some desc) (expiryTime env leaseduration)
            (redescribe eport proto (some desc) (expiryTime env leaseduration) (tables d.nf)) := by
      rw [twice]
      split <;> rfl
    split
    · simp only [fileAdd_nf, fileRemove_nf, withNf_nf]
      exact ⟨still, result⟩
    · exact ⟨still, result⟩
  · simpa [same] using quiet

/-- A request changes the tables as `redirectTables` says. -/
theorem upnpRedirect_quiet (quiet : d.nf.Quiet) (protocol : CString) (desc : Option CString)
    (leaseduration : Nat) :
    let redirected := upnpRedirect env rhost eport iaddr iport protocol desc leaseduration d
    redirected.2.nf.Quiet ∧
      tables redirected.2.nf =
        redirectTables env rhost eport iaddr iport protocol desc leaseduration
          (tables d.nf) := by
  unfold upnpRedirect redirectTables
  cases inetAton iaddr with
  | none => exact ⟨quiet, rfl⟩
  | some address =>
    simp only
    split
    · rw [lookup_quiet eport (by simpa using quiet)]
      simp only [record_nf, tables_nat]
      cases (d.nf.chain .nat).find? (redirectMatches (protoAtoi protocol) eport) with
      | some e =>
        exact renew_quiet env rhost eport iaddr iport
          (d := d.record (.upnpRedirect rhost eport iaddr iport protocol desc leaseduration))
          quiet (protoAtoi protocol) (desc.getD []) leaseduration (readRule d.nf e)
      | none =>
        simp only [Option.map_none]
        split
        · exact ⟨quiet, rfl⟩
        · exact upnpRedirectInternal_quiet env rhost eport iaddr iport
            (d := d.record (.upnpRedirect rhost eport iaddr iport protocol desc leaseduration))
            quiet (protoAtoi protocol) (desc.getD []) (expiryTime env leaseduration)
    · exact ⟨quiet, rfl⟩

theorem upnpDeleteRedir_quiet (quiet : d.nf.Quiet) (proto : Int) :
    let deleted := upnpDeleteRedir env eport proto d
    deleted.2.nf.Quiet ∧ tables deleted.2.nf = remove eport proto (tables d.nf) := by
  obtain ⟨_, still, removed⟩ := deleteRedirectAndFilterRules_quiet eport proto quiet
  simp only [upnpDeleteRedir, record_nf, fileRemove_nf, withNf_nf]
  exact ⟨still, removed⟩

section shapes
variable {t : Tables} {e f : IptEntry} {eport : UInt16} {proto : Int} {iport : UInt16}

/-- Protocol, internal host and internal port: all that the searches for a filter rule
    look at. -/
def natShape (e : IptEntry) : UInt16 × InAddr × UInt16 := (e.proto, e.target.minIp, e.target.minAll)

def filterShape (f : IptEntry) : UInt16 × InAddr × UInt16 := (f.proto, f.dst, f.dpts.1)

def Shaped (t : Tables) : Prop :=
  (t.nat : Multiset IptEntry).map natShape = (t.forward : Multiset IptEntry).map filterShape

theorem redirect_fields (found : t.nat.find? (redirectMatches proto eport) = some e) :
    proto = e.proto.toNat ∧ eport = e.dpts.1 := by
  simpa [redirectMatches] using List.find?_some found

theorem filter_fields {iaddr : InAddr}
    (found : t.forward.find? (filterMatches proto iport iaddr) = some f) :
    proto = f.proto.toNat ∧ iport = f.dpts.1 ∧ iaddr = f.dst := by
  simpa [filterMatches] using List.find?_some found

theorem filter_exists (shaped : Shaped t)
    (found : t.nat.find? (redirectMatches proto eport) = some e) :
    ∃ f, t.forward.find? (filterMatches proto e.target.minAll e.target.minIp) = some f := by
  have key : natShape e ∈ (t.forward : Multiset IptEntry).map filterShape := by
    rw [← shaped]
    exact Multiset.mem_map_of_mem _ (Multiset.mem_coe.mpr (List.mem_of_find?_eq_some found))
  obtain ⟨f, member, same⟩ := Multiset.mem_map.mp key
  simp only [filterShape, natShape, Prod.mk.injEq] at same
  obtain ⟨protos, hosts, ports⟩ := same
  apply Option.isSome_iff_exists.mp
  rw [List.find?_isSome]
  refine ⟨f, Multiset.mem_coe.mp member, ?_⟩
  simp [filterMatches, (redirect_fields found).1, protos, hosts, ports]

theorem shape_of_first (found : t.nat.find? (redirectMatches proto eport) = some e)
    (first : t.forward.find? (filterMatches proto e.target.minAll e.target.minIp) = some f) :
    natShape e = filterShape f := by
  obtain ⟨left, _⟩ := redirect_fields found
  obtain ⟨right, port, host⟩ := filter_fields first
  have protos : e.proto = f.proto := by
    apply UInt16.toNat_inj.mp
    omega
  simp only [natShape, filterShape, protos, port, host]

theorem renumber_nat (desc : Option CString) (timestamp : Nat) (t : Tables) :
    (renumber eport proto iport desc timestamp t).nat =
      updateFirst (redirectMatches proto eport) (withIport iport) t.nat := by
  unfold renumber
  cases found : t.nat.find? (redirectMatches proto eport) with
  | none => simp [updateFirst_of_find?_none found]
  | some e =>
    simp only
    cases t.forward.find? (filterMatches proto e.target.minAll e.target.minIp) <;> rfl

theorem renumber_forward (desc : Option CString) (timestamp : Nat)
    (found : t.nat.find? (redirectMatches proto eport) = some e) :
    (renumber eport proto iport desc timestamp t).forward =
      updateFirst (filterMatches proto e.target.minAll e.target.minIp) (withDpts iport)
        t.forward := by
  simp only [renumber, found]
  cases first : t.forward.find? (filterMatches proto e.target.minAll e.target.minIp) with
  | none => simp [updateFirst_of_find?_none first]
  | some f => rfl

theorem renumber_descs (shaped : Shaped t) (desc : Option CString) (timestamp : Nat)
    (found : t.nat.find? (redirectMatches proto eport) = some e) :
    (renumber eport proto iport desc timestamp t).descs =
      (redescribe eport proto desc timestamp t).descs := by
  obtain ⟨f, first⟩ := filter_exists shaped found
  simp only [renumber, found, first, redescribe]

theorem shaped_remove (shaped : Shaped t) : Shaped (remove eport proto t) := by
  cases found : t.nat.find? (redirectMatches proto eport) with
  | none => simpa [Shaped, remove, found, eraseP_of_find?_none found] using shaped
  | some e =>
    obtain ⟨f, first⟩ := filter_exists shaped found
    have left := map_eq_cons_eraseP natShape found
    have right := map_eq_cons_eraseP filterShape first
    unfold Shaped at shaped
    rw [left, right, shape_of_first found first] at shaped
    simp only [Shaped, remove, found]
    exact (Multiset.cons_inj_right _).mp shaped

theorem shaped_renumber (shaped : Shaped t) (desc : Option CString) (timestamp : Nat) :
    Shaped (renumber eport proto iport desc timestamp t) := by
  cases found : t.nat.find? (redirectMatches proto eport) with
  | none => simpa [renumber, found] using shaped
  | some e =>
    obtain ⟨f, first⟩ := filter_exists shaped found
    have left := map_updateFirst natShape (withIport iport) found
    have right := map_updateFirst filterShape (withDpts iport) first
    have same := shape_of_first found first
    have renamed : natShape (withIport iport e) = filterShape (withDpts iport f) := by
      simp only [natShape, filterShape, Prod.mk.injEq] at same
      simp only [natShape, filterShape, withIport, withDpts, same.1, same.2.1]
    unfold Shaped at shaped
    rw [shaped, same, renamed, ← right] at left
    simp only [Shaped, renumber_nat, renumber_forward desc timestamp found]
    exact (Multiset.cons_inj_right _).mp left

theorem shaped_addMapping (shaped : Shaped t) (rhost : Option CString) (eport : UInt16)
    (iaddr : CString) (iport : UInt16) (proto : Int) (desc : CString) (timestamp : Nat) :
    Shaped (addMapping rhost eport iaddr iport proto desc timestamp t) := by
  unfold Shaped at shaped ⊢
  simp only [addMapping, describe, ← Multiset.coe_add, Multiset.map_add, shaped,
    Multiset.coe_singleton, Multiset.map_singleton, natShape, filterShape, natRule, filterRule,
    portRange_fst]

theorem shaped_redirectTables (shaped : Shaped t) (env : Env) (rhost : Option CString)
    (eport : UInt16) (iaddr : CString) (iport : UInt16) (protocol : CString)
    (desc : Option CString) (leaseduration : Nat) :
    Shaped (redirectTables env rhost eport iaddr iport protocol desc leaseduration t) := by
  unfold redirectTables
  cases inetAton iaddr with
  | none => exact shaped
  | some address =>
    dsimp only
    split
    · cases t.nat.find? (redirectMatches (protoAtoi protocol) eport) with
      | none =>
        dsimp only
        split
        · exact shaped
        · split
          · exact shaped
          · exact shaped_addMapping shaped rhost eport iaddr iport _ _ _
      | some e =>
        dsimp only
        split
        · split
          · exact shaped_renumber (shaped_renumber shaped _ _) _ _
          · exact shaped
        · exact shaped
    · exact shaped

end shapes

section failures
variable (proto : Int) (desc : CString) (timestamp : Nat)

def lowered (next timestamp : Nat) : Nat :=
  if timestamp > 0 ∧ (next = 0 ∨ timestamp < next) then timestamp else next

/-- The redirection gets into the nat table, and a call for the rules that go with it
    fails. -/
def halfAdded (results : List Bool) : Bool :=
  callsSucceed 4 results && !callsSucceed (if env.enablePortTriggering then 12 else 8) results

/-- Port forwarding is enabled and the four calls for the nat table succeed. -/
def Enters (d : Daemon) : Prop :=
  env.disablePortForwarding = false ∧ callsSucceed 4 d.nf.iptcResults = true

instance (d : Daemon) : Decidable (Enters env d) := by
  unfold Enters
  infer_instance

def Described (d d' : Daemon) : Prop :=
  (tables d'.nf).nat = (describe rhost eport iaddr iport proto (some desc) timestamp
    (tables d.nf)).nat ∧
  (tables d'.nf).descs = (describe rhost eport iaddr iport proto (some desc) timestamp
    (tables d.nf)).descs

def Untouched (d d' : Daemon) : Prop :=
  (tables d'.nf).nat = d.nf.chain .nat ∧ (tables d'.nf).descs = d.nf.rdrDescList ∧
    d'.nextruletocleanTimestamp = d.nextruletocleanTimestamp

/-- The last part of `upnp_redirect_internal`, for a redirection that is in place. -/
theorem filter_step {nf mid : Netfilter}
    (described : tables mid =
      describe rhost eport iaddr iport proto (some desc) timestamp (tables nf)) (d : Daemon)
    (here : d.nf = mid) :
    let added := addFilterRule2 rhost iaddr iport proto d.nf
    (tables added.2).nat = (describe rhost eport iaddr iport proto (some desc) timestamp
        (tables nf)).nat ∧
      (tables added.2).descs = (describe rhost eport iaddr iport proto (some desc) timestamp
        (tables nf)).descs ∧
      (added.1 = 0 ∧ callsSucceed 4 mid.iptcResults = true ∨
        added.1 = -1 ∧ callsSucceed 4 mid.iptcResults = false) := by
  subst here
  cases done : callsSucceed 4 d.nf.iptcResults with
  | true =>
    have added := append_done .forward (filterRule proto rhost iaddr iport) done
    simp [addFilterRule2, added, described]
  | false =>
    obtain ⟨results, failed⟩ := append_failed .forward (filterRule proto rhost iaddr iport) done
    simp [addFilterRule2, failed, described]

theorem addRedirectRule2_results (nf : Netfilter) :
    let added := addRedirectRule2 env.enablePortTriggering rhost eport iaddr iport proto
      (some desc) timestamp nf
    (callsSucceed 4 nf.iptcResults = false ∧ added.1 = -1 ∧ tables added.2 = tables nf) ∨
      callsSucceed 4 nf.iptcResults = true ∧
      tables added.2 = describe rhost eport iaddr iport proto (some desc) timestamp (tables nf) ∧
      ((added.1 = -1 ∧ halfAdded env nf.iptcResults = true) ∨
        (added.1 = 0 ∧
          halfAdded env nf.iptcResults = !callsSucceed 4 added.2.iptcResults)) := by
  cases nat : callsSucceed 4 nf.iptcResults with
  | false =>
    obtain ⟨results, failed⟩ := append_failed .nat (natRule proto eport iaddr iport rhost) nat
    exact Or.inl ⟨rfl, by simp [addRedirectRule2, addnatrule, failed]⟩
  | true =>
    right
    have added := append_done .nat (natRule proto eport iaddr iport rhost) nat
    generalize here : addRedirectDesc eport proto (some desc) timestamp
      ((nf.withResults (nf.iptcResults.drop 4)).setChain .nat
        (nf.chain .nat ++ [natRule proto eport iaddr iport rhost])) = mid
    have described : tables mid =
        describe rhost eport iaddr iport proto (some desc) timestamp (tables nf) := by
      simp [← here, describe]
    have rest : mid.iptcResults = nf.iptcResults.drop 4 := by rw [← here]; rfl
    have eight := callsSucceed_add 4 4 nf.iptcResults
    have twelve := callsSucceed_add 8 4 nf.iptcResults
    cases trigger : env.enablePortTriggering with
    | false =>
      simp only [addRedirectRule2, addnatrule, added, here]
      simp [described, rest, halfAdded, trigger, nat, eight]
    | true =>
      simp only [addRedirectRule2, addnatrule, added, here, addmasqueraderule]
      cases masquerade : callsSucceed 4 mid.iptcResults with
      | false =>
        obtain ⟨results, failed⟩ :=
          append_failed .postrouting (masqueradeRule proto eport iaddr iport rhost) masquerade
        rw [rest] at masquerade
        simp [failed, described, halfAdded, trigger, nat, eight, twelve, masquerade]
      | true =>
        have done := append_done .postrouting (masqueradeRule proto eport iaddr iport rhost) masquerade
        rw [rest] at masquerade
        simp [done, described, rest, halfAdded, trigger, nat, eight, twelve, masquerade]

theorem upnpRedirectInternal_cases (d : Daemon) :
    let d' := (upnpRedirectInternal env rhost eport iaddr iport proto desc timestamp d).2
    ¬ Enters env d ∧ Untouched d d' ∨
      Enters env d ∧
      Described rhost eport iaddr iport proto desc timestamp d d' ∧
      (d'.nextruletocleanTimestamp = lowered d.nextruletocleanTimestamp timestamp ∨
        d'.nextruletocleanTimestamp = d.nextruletocleanTimestamp ∧
          halfAdded env d.nf.iptcResults = true) := by
  unfold upnpRedirectInternal
  cases disabled : env.disablePortForwarding with
  | true => exact Or.inl ⟨by simp [Enters, disabled], rfl, rfl, rfl⟩
  | false =>
    simp only [Bool.false_eq_true, ↓reduceIte]
    obtain ⟨refused, negative, same⟩ | ⟨done, described, outcome⟩ :=
      addRedirectRule2_results env rhost eport iaddr iport proto desc timestamp d.nf
    · left
      simp only [negative, Int.reduceNeg, Int.reduceLT, ↓reduceIte]
      exact ⟨by simp [Enters, refused], congrArg Tables.nat same, congrArg Tables.descs same, rfl⟩
    · right
      refine ⟨⟨disabled, done⟩, ?_⟩
      rcases outcome with ⟨negative, half⟩ | ⟨zero, late⟩
      · simp only [negative, Int.reduceNeg, Int.reduceLT, ↓reduceIte]
        exact ⟨⟨congrArg Tables.nat described, congrArg Tables.descs described⟩,
          Or.inr ⟨rfl, half⟩⟩
      · simp only [zero, Int.lt_irrefl, ↓reduceIte, fileAdd_next, record_next, withNf_next]
        generalize stored : fileAdd env eport iaddr iport proto desc timestamp _ = mid
        have nf : mid.nf = (addRedirectRule2 env.enablePortTriggering rhost eport iaddr iport
            proto (some desc) timestamp d.nf).2 := by simp [← stored]
        have next : mid.nextruletocleanTimestamp = d.nextruletocleanTimestamp := by
          simp [← stored]
        obtain ⟨nat, descs, ⟨done, _⟩ | ⟨failed, calls⟩⟩ :=
          filter_step rhost eport iaddr iport proto desc timestamp described mid nf
        · simp only [done, Int.lt_irrefl, ↓reduceIte]
          refine ⟨?_, Or.inl ?_⟩
          · split
            · exact ⟨nat, descs⟩
            · exact ⟨nat, descs⟩
          · simp only [lowered]
            split
            · rfl
            · exact next
        · simp only [failed, Int.reduceNeg, Int.reduceLT, ↓reduceIte]
          have half : halfAdded env d.nf.iptcResults = true := by rw [late, calls, Bool.not_false]
          exact ⟨⟨nat, descs⟩, Or.inr ⟨next, half⟩⟩

theorem upnpRedirectInternal_added (d : Daemon)
    (done : 0 ≤ (upnpRedirectInternal env rhost eport iaddr iport proto desc timestamp d).1) :
    Described rhost eport iaddr iport proto desc timestamp d
      (upnpRedirectInternal env rhost eport iaddr iport proto desc timestamp d).2 := by
  unfold upnpRedirectInternal at done ⊢
  cases disabled : env.disablePortForwarding with
  | true => simp [disabled] at done
  | false =>
    simp only [disabled, Bool.false_eq_true, ↓reduceIte] at done ⊢
    obtain ⟨_, negative, _⟩ | ⟨_, described, _⟩ :=
      addRedirectRule2_results env rhost eport iaddr iport proto desc timestamp d.nf
    · simp [negative] at done
    · split
      · rename_i failed
        simp [failed] at done
      · rename_i added
        rw [if_neg added] at done
        generalize stored : fileAdd env eport iaddr iport proto desc timestamp _ = mid at done ⊢
        have nf : mid.nf = (addRedirectRule2 env.enablePortTriggering rhost eport iaddr iport
            proto (some desc) timestamp d.nf).2 := by simp [← stored]
        obtain ⟨nat, descs, _⟩ :=
          filter_step rhost eport iaddr iport proto desc timestamp described mid nf
        split
        · exact ⟨nat, descs⟩
        · split
          · exact ⟨nat, descs⟩
          · exact ⟨nat, descs⟩

theorem upnpRedirectInternal_entered (d : Daemon) (enters : Enters env d) :
    Described rhost eport iaddr iport proto desc timestamp d
      (upnpRedirectInternal env rhost eport iaddr iport proto desc timestamp d).2 := by
  rcases upnpRedirectInternal_cases env rhost eport iaddr iport proto desc timestamp d with
    ⟨refused, _⟩ | ⟨_, described, _⟩
  · exact absurd enters refused
  · exact described

theorem upnpRedirectInternal_refused (d : Daemon) (refused : ¬ Enters env d) :
    Untouched d (upnpRedirectInternal env rhost eport iaddr iport proto desc timestamp d).2 := by
  rcases upnpRedirectInternal_cases env rhost eport iaddr iport proto desc timestamp d with
    ⟨_, untouched⟩ | ⟨enters, _⟩
  · exact untouched
  · exact absurd enters refused

/-- The one call for the redirection that the daemon records, with whether it is made, and the
    notification, which a redirection that lacks its filter rule does not get. -/
theorem upnpRedirectInternal_calls (d : Daemon) :
    (upnpRedirectInternal env rhost eport iaddr iport proto desc timestamp d).2.calls =
      d.calls ++ .upnpRedirectInternal rhost eport iaddr iport proto desc timestamp
          (decide (Enters env d)) ::
        if Enters env d ∧ halfAdded env d.nf.iptcResults = false then [.upnpEventVarChangeNotify]
        else [] := by
  unfold upnpRedirectInternal
  cases disabled : env.disablePortForwarding with
  | true =>
    have refused : ¬ Enters env d := by
      intro enters
      have enabled := enters.1
      simp [disabled] at enabled
    simp [refused]
  | false =>
    simp only [Bool.false_eq_true, ↓reduceIte]
    obtain ⟨failed, negative, same⟩ | ⟨done, described, outcome⟩ :=
      addRedirectRule2_results env rhost eport iaddr iport proto desc timestamp d.nf
    · have refused : ¬ Enters env d := by
        intro enters
        have done := enters.2
        simp [failed] at done
      have nat := congrArg Tables.nat same
      simp only [tables_nat] at nat
      simp [negative, nat, refused]
    · have enters : Enters env d := ⟨disabled, done⟩
      have nat := congrArg Tables.nat described
      simp only [tables_nat] at nat
      have longer : (d.nf.chain .nat).length < ((addRedirectRule2 env.enablePortTriggering rhost
          eport iaddr iport proto (some desc) timestamp d.nf).2.chain .nat).length := by
        simp [nat, describe]
      rcases outcome with ⟨negative, half⟩ | ⟨zero, late⟩
      · simp [negative, longer, enters, half]
      · simp only [zero, Int.lt_irrefl, ↓reduceIte]
        generalize stored : fileAdd env eport iaddr iport proto desc timestamp _ = mid
        have nf : mid.nf = (addRedirectRule2 env.enablePortTriggering rhost eport iaddr iport
            proto (some desc) timestamp d.nf).2 := by simp [← stored]
        have calls : mid.calls = d.calls ++ [.upnpRedirectInternal rhost eport iaddr iport
            proto desc timestamp true] := by simp [← stored, longer]
        obtain ⟨_, _, ⟨zero, four⟩ | ⟨negative, four⟩⟩ :=
          filter_step rhost eport iaddr iport proto desc timestamp described mid nf
        · have whole : halfAdded env d.nf.iptcResults = false := by rw [late, four, Bool.not_true]
          simp only [zero, Int.lt_irrefl, ↓reduceIte]
          split
          · simp [calls, enters, whole]
          · simp [calls, enters, whole]
        · have half : halfAdded env d.nf.iptcResults = true := by rw [late, four, Bool.not_false]
          simp [negative, enters, half, calls]

theorem upnpRedirectInternal_negative (d : Daemon) (refused : ¬ Enters env d) :
    (upnpRedirectInternal env rhost eport iaddr iport proto desc timestamp d).1 = -1 := by
  unfold upnpRedirectInternal
  cases disabled : env.disablePortForwarding with
  | true => simp
  | false =>
    obtain ⟨_, negative, _⟩ | ⟨done, _⟩ :=
      addRedirectRule2_results env rhost eport iaddr iport proto desc timestamp d.nf
    · simp [negative]
    · exact absurd ⟨disabled, done⟩ refused

theorem renew_calls (leaseduration : Nat) (old : RedirectRule) (d : Daemon) :
    (renew env rhost eport iaddr iport proto desc leaseduration old d).2.calls = d.calls := by
  unfold renew
  dsimp only
  split
  · split <;> simp
  · rfl

theorem updateExisting_cases (iportOld : UInt16) (nf : Netfilter) :
    let nf' := (updateExisting env eport proto iport iportOld desc timestamp nf).2
    ((tables nf').nat = nf.chain .nat ∨
        (tables nf').nat =
          updateFirst (redirectMatches proto eport) (withIport iport) (nf.chain .nat)) ∧
      ((tables nf').descs = nf.rdrDescList ∨
        (tables nf').descs =
          (redescribe eport proto (some desc) timestamp (tables nf)).descs) := by
  unfold updateExisting
  split
  · exact updatePortmapping_cases eport proto iport (some desc) timestamp _ nf
  · exact ⟨Or.inl rfl, Or.inr rfl⟩

theorem upnpDeleteRedir_exact (d : Daemon) :
    let d' := (upnpDeleteRedir env eport proto d).2
    d'.nextruletocleanTimestamp = d.nextruletocleanTimestamp ∧
      (tables d'.nf).descs =
        (if callsSucceed 1 d.nf.iptcResults then d.nf.rdrDescList.eraseP (descMatches eport proto)
        else d.nf.rdrDescList) ∧
      (tables d'.nf).nat =
        if callsSucceed 5 d.nf.iptcResults then
          (d.nf.chain .nat).eraseP (redirectMatches proto eport)
        else d.nf.chain .nat := by
  simp only [upnpDeleteRedir, record_next, fileRemove_next, withNf_next, record_nf, fileRemove_nf,
    withNf_nf, true_and]
  exact deleteRedirectAndFilterRules_exact eport proto d.nf

theorem getRedirectDesc_described {d d' : Daemon}
    (described : Described rhost eport iaddr iport proto desc timestamp d d') :
    getRedirectDesc eport proto d'.nf = (desc, timestamp) := by
  have descs : d'.nf.rdrDescList = _ := described.2
  simp [getRedirectDesc, descs, describe]

theorem updateExisting_recorded (iportOld : UInt16) (nf : Netfilter)
    (done : (updateExisting env eport proto iport iportOld desc timestamp nf).1 = 0) :
    getRedirectDesc eport proto
        (updateExisting env eport proto iport iportOld desc timestamp nf).2 = (desc, timestamp) := by
  unfold updateExisting at done ⊢
  split at done
  · rename_i other
    rw [if_pos other]
    exact updatePortmapping_recorded eport proto iport (some desc) timestamp _ nf done
  · rename_i equal
    rw [if_neg equal]
    exact getRedirectDesc_added eport proto (some desc) timestamp _

theorem renew_recorded (leaseduration : Nat) (old : RedirectRule) (d : Daemon)
    (done : (renew env rhost eport iaddr iport proto desc leaseduration old d).1 = 0) :
    getRedirectDesc eport proto
        (renew env rhost eport iaddr iport proto desc leaseduration old d).2.nf =
      (desc, expiryTime env leaseduration) := by
  unfold renew at done ⊢
  dsimp only at done ⊢
  split at done
  · rename_i same
    rw [if_pos same]
    split at done
    · rename_i updated
      rw [if_pos updated]
      simp only [fileAdd_nf, fileRemove_nf, withNf_nf]
      exact updateExisting_recorded env eport iport proto desc (expiryTime env leaseduration) _ _
        updated
    · rename_i failed
      exact absurd done failed
  · simp at done

/-- A request that is accepted has recorded its description and its expiry. -/
theorem upnpRedirect_recorded (protocol : CString) (given : Option CString) (leaseduration : Nat)
    (d : Daemon)
    (done : (upnpRedirect env rhost eport iaddr iport protocol given leaseduration d).1 = 0) :
    getRedirectDesc eport (protoAtoi protocol)
        (upnpRedirect env rhost eport iaddr iport protocol given leaseduration d).2.nf =
      (given.getD [], expiryTime env leaseduration) := by
  unfold upnpRedirect at done ⊢
  dsimp only at done ⊢
  split at done
  · simp at done
  · split at done
    · rename_i permitted
      rw [if_pos permitted]
      split at done
      · exact renew_recorded env rhost eport iaddr iport _ _ leaseduration _ _ done
      · split at done
        · simp at done
        · rename_i free
          rw [if_neg free]
          exact getRedirectDesc_described rhost eport iaddr iport _ _ _
            (upnpRedirectInternal_added env rhost eport iaddr iport _ _ _ _ (by omega))
    · simp at done

/-- The removal reports an error exactly if its first libiptc call fails, and then it has
    changed nothing. -/
theorem upnpDeleteRedir_negative (d : Daemon) :
    (upnpDeleteRedir env eport proto d).1 < 0 ↔ callsSucceed 1 d.nf.iptcResults = false :=
  deleteRedirectAndFilterRules_negative eport proto d.nf

theorem upnpDeleteRedir_refused (d : Daemon)
    (refused : (upnpDeleteRedir env eport proto d).1 < 0) :
    (upnpDeleteRedir env eport proto d).2.nf.chain .nat = d.nf.chain .nat ∧
      (upnpDeleteRedir env eport proto d).2.nf.rdrDescList = d.nf.rdrDescList := by
  have first := (upnpDeleteRedir_negative env eport proto d).mp refused
  obtain ⟨_, descs, nat⟩ := upnpDeleteRedir_exact env eport proto d
  have five := callsSucceed_add 1 4 d.nf.iptcResults
  simp only [five, first, Bool.false_and, Bool.false_eq_true, ↓reduceIte] at descs nat
  exact ⟨nat, descs⟩

end failures

end UpnpRedirectSpec
