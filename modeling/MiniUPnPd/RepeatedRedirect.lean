import MiniUPnPd.UpnpRedirectSpec

/-!
A request for a redirection that is made a second time. The second request finds the rule of the
first and compares the client and the remote host that it is given with those that it prints from
the rule, so that only the written form of an address is taken for the same.
-/
namespace RepeatedRedirect
open CText FirstMatch Inet Iptc Iptcrdr IptcrdrSpec LeaseFile RuleKeys UpnpPermissions
  UpnpRedirect UpnpRedirectSpec

/-- The text is the one that is printed for its address. -/
def Written (iaddr : CString) : Prop := inetNtoa (inetAddr iaddr) = iaddr

/-- No remote host, or one that is printed as it is given. -/
def WrittenHost (rhost : Option CString) : Prop :=
  ∀ s ∈ rhost, s = [] ∨ s = "*".toList ∨ inetAddr s ≠ 0 ∧ Written s

/-- A rule that a request like this one was accepted for, with its description in front. -/
structure Redirected (eport : UInt16) (iport : UInt16) (proto : Int) (desc : CString)
    (e : IptEntry) (nf : Netfilter) : Prop where
  quiet : nf.Quiet
  found : (nf.chain .nat).find? (redirectMatches proto eport) = some e
  inner : e.target.minAll = iport
  described : ∃ p descs, nf.rdrDescList = p :: descs ∧ p.eport = eport ∧
    p.proto = Int16.ofInt proto ∧ p.str = desc

/-- What the client and the remote host of the request are compared with. -/
def Agrees (rhost : Option CString) (iaddr : CString) (e : IptEntry) : Prop :=
  iaddr = inetNtoa e.target.minIp ∧ sameRhost rhost (rhostOf e) = true

/-- The second request is accepted, and only the expiry of the description is new. -/
structure Repeats (env : Env) (eport : UInt16) (proto : Int) (leaseduration : Nat)
    (before : Netfilter) (again : Int × Daemon) : Prop where
  accepted : again.1 = 0
  nat : again.2.nf.chain .nat = before.chain .nat
  forward : again.2.nf.chain .forward = before.chain .forward
  postrouting : again.2.nf.chain .postrouting = before.chain .postrouting
  descs : ∃ p descs, before.rdrDescList = p :: descs ∧ descMatches eport proto p = true ∧
    again.2.nf.rdrDescList = { p with timestamp := expiryTime env leaseduration } :: descs

section first
variable {env : Env} {rhost : Option CString} {eport : UInt16} {iaddr : CString} {iport : UInt16}
  {proto : Int} {desc : CString} {timestamp : Nat} {nf : Netfilter} {e : IptEntry}

theorem find?_withIport (found : (nf.chain .nat).find? (redirectMatches proto eport) = some e) :
    (updateFirst (redirectMatches proto eport) (withIport iport) (nf.chain .nat)).find?
      (redirectMatches proto eport) = some (withIport iport e) := by
  have kept : ∀ a, redirectMatches proto eport (withIport iport a) = redirectMatches proto eport a :=
    fun _ => rfl
  rw [find?_updateFirst (withIport iport) kept, found, Option.map_some]

theorem renumber_found {t : Tables} {given : Option CString}
    (found : t.nat.find? (redirectMatches proto eport) = some e) :
    (renumber eport proto iport given timestamp t).nat =
      updateFirst (redirectMatches proto eport) (withIport iport) t.nat := by
  simp only [renumber, found]
  split
  · rfl
  · rfl

/-- One attempt at an update. -/
theorem updateExisting_found {iportOld : UInt16} (quiet : nf.Quiet)
    (found : (nf.chain .nat).find? (redirectMatches proto eport) = some e)
    (same : iport = iportOld → e.target.minAll = iport) :
    let updated := updateExisting env eport proto iport iportOld desc timestamp nf
    updated.2.Quiet ∧ ∃ e', (updated.2.chain .nat).find? (redirectMatches proto eport) = some e' ∧
      e'.target.minAll = iport ∧ e'.target.minIp = e.target.minIp ∧ e'.src = e.src := by
  intro updated
  obtain ⟨still, tables⟩ := updateExisting_quiet env eport iport quiet proto iportOld desc timestamp
  refine ⟨still, ?_⟩
  have nat := congrArg Tables.nat tables
  rw [tables_nat] at nat
  by_cases other : iport ≠ iportOld
  · rw [if_pos other, renumber_found found] at nat
    exact ⟨withIport iport e, by rw [nat]; exact find?_withIport found, rfl, rfl, rfl⟩
  · rw [if_neg other] at nat
    exact ⟨e, by rw [nat]; exact found, same (not_not.mp other), rfl, rfl⟩

theorem updatePortmapping_described {trigger : Bool} {given : Option CString}
    (done : (updatePortmapping trigger eport proto iport given timestamp nf).1 = 0) :
    ∃ descs, (updatePortmapping trigger eport proto iport given timestamp nf).2.rdrDescList =
      { timestamp, eport, proto := Int16.ofInt proto, str := given.getD "miniupnpd".toList } ::
        descs := by
  unfold updatePortmapping at done ⊢
  dsimp only at done ⊢
  split at done
  · rename_i opened
    rw [if_pos opened]
    split at done
    · simp at done
    · split at done
      · rename_i failed
        omega
      · rename_i changed
        rw [if_neg changed]
        split at done
        · rename_i failed
          omega
        · rename_i filtered
          rw [if_neg filtered]
          exact ⟨_, rfl⟩
  · simp at done

theorem updateExisting_described {iportOld : UInt16}
    (done : (updateExisting env eport proto iport iportOld desc timestamp nf).1 = 0) :
    ∃ descs, (updateExisting env eport proto iport iportOld desc timestamp nf).2.rdrDescList =
      { timestamp, eport, proto := Int16.ofInt proto, str := desc } :: descs := by
  unfold updateExisting at done ⊢
  split at done
  · rename_i other
    rw [if_pos other]
    exact updatePortmapping_described done
  · rename_i same
    rw [if_neg same]
    exact ⟨_, rfl⟩

theorem renew_redirected {leaseduration : Nat} {d : Daemon} (quiet : d.nf.Quiet)
    (found : (d.nf.chain .nat).find? (redirectMatches proto eport) = some e)
    (done : (renew env rhost eport iaddr iport proto desc leaseduration (readRule d.nf e) d).1 = 0) :
    ∃ e', Redirected eport iport proto desc e'
        (renew env rhost eport iaddr iport proto desc leaseduration (readRule d.nf e) d).2.nf ∧
      Agrees rhost iaddr e' := by
  unfold renew at done ⊢
  dsimp only at done ⊢
  split at done
  · rename_i same
    rw [if_pos same]
    obtain ⟨still, first, found', inner', host', src'⟩ := @updateExisting_found env eport iport proto
      desc (expiryTime env leaseduration) d.nf e (readRule d.nf e).iport quiet found Eq.symm
    obtain ⟨still', second, found'', inner'', host'', src''⟩ := @updateExisting_found env eport iport
      proto desc (expiryTime env leaseduration) _ first (readRule d.nf e).iport still found'
      (fun _ => inner')
    split at done
    · rename_i updated
      obtain ⟨descs, described⟩ := updateExisting_described updated
      rw [if_pos updated]
      refine ⟨second, ⟨?_, ?_, inner'', ?_⟩, ?_, ?_⟩
      · simpa using still'
      · simpa using found''
      · exact ⟨_, descs, by simpa using described, rfl, rfl, rfl⟩
      · rw [host'', host']
        exact same.1
      · have src : second.src = e.src := src''.trans src'
        rw [rhostOf, src]
        exact same.2
    · rename_i failed
      exact absurd done failed
  · simp at done

theorem added_redirected {d : Daemon} (quiet : d.nf.Quiet) (byte : isByte proto)
    (free : (d.nf.chain .nat).find? (redirectMatches proto eport) = none)
    (done : (upnpRedirectInternal env rhost eport iaddr iport proto desc timestamp d).1 = 0) :
    Redirected eport iport proto desc (natRule proto eport iaddr iport rhost)
      (upnpRedirectInternal env rhost eport iaddr iport proto desc timestamp d).2.nf := by
  obtain ⟨nat, descs⟩ := upnpRedirectInternal_added env rhost eport iaddr iport proto desc timestamp d
    (by omega)
  obtain ⟨port, protocol⟩ := natRule_key rhost eport iaddr iport byte
  refine ⟨(upnpRedirectInternal_quiet env rhost eport iaddr iport quiet proto desc timestamp).1,
    ?_, rfl, ?_⟩
  · rw [← tables_nat, nat]
    simp only [describe, tables_nat, List.find?_append, free, Option.none_or]
    have key := (redirectMatches_iff (natRule proto eport iaddr iport rhost)).mpr
      ⟨protocol.symm, port.symm⟩
    rw [List.find?_cons, key]
  · rw [← tables_descs, descs]
    exact ⟨_, d.nf.rdrDescList, rfl, rfl, rfl, rfl⟩

end first

section second
variable {env : Env} {rhost : Option CString} {eport : UInt16} {iaddr : CString} {iport : UInt16}
  {proto : Int} {desc : CString} {leaseduration : Nat} {d : Daemon} {e : IptEntry}

theorem renew_repeats (redirected : Redirected eport iport proto desc e d.nf) (byte : isByte proto)
    (agrees : Agrees rhost iaddr e) :
    Repeats env eport proto leaseduration d.nf
      (renew env rhost eport iaddr iport proto desc leaseduration (readRule d.nf e) d) := by
  have update : ∀ nf : Netfilter,
      updateExisting env eport proto iport (readRule d.nf e).iport desc
        (expiryTime env leaseduration) nf =
      (0, addRedirectDesc eport proto (some desc) (expiryTime env leaseduration)
        (delRedirectDesc eport proto nf)) := by
    intro nf
    have port : ¬ iport ≠ (readRule d.nf e).iport := not_not.mpr redirected.inner.symm
    rw [updateExisting, if_neg port]
    rfl
  have old : iaddr = (readRule d.nf e).iaddr ∧ sameRhost rhost (readRule d.nf e).rhost = true :=
    agrees
  obtain ⟨p, descs, list, eports, protos, str⟩ := redirected.described
  have hit : descMatches eport proto p = true :=
    (descMatches_iff byte p).mpr ⟨eports, protos⟩
  have hit' : descMatches eport proto
      { timestamp := expiryTime env leaseduration, eport, proto := Int16.ofInt proto, str := desc } =
        true :=
    (descMatches_iff byte _).mpr ⟨rfl, rfl⟩
  have refreshed : (delRedirectDesc eport proto (addRedirectDesc eport proto (some desc)
      (expiryTime env leaseduration) (delRedirectDesc eport proto d.nf))).rdrDescList = descs := by
    simp only [addRedirectDesc, delRedirectDesc, descs_setDescs, Option.getD_some, list,
      List.eraseP_cons_of_pos hit, List.eraseP_cons_of_pos hit']
  unfold renew
  simp only [if_pos old, update, ↓reduceIte]
  constructor
  · rfl
  · simp [addRedirectDesc, delRedirectDesc]
  · simp [addRedirectDesc, delRedirectDesc]
  · simp [addRedirectDesc, delRedirectDesc]
  · refine ⟨p, descs, list, hit, ?_⟩
    simp only [fileAdd_nf, fileRemove_nf, withNf_nf]
    rw [addRedirectDesc, descs_setDescs, refreshed, Option.getD_some, ← eports, ← protos, ← str]

theorem renew_disagrees (disagrees : ¬ Agrees rhost iaddr e) :
    ¬ Repeats env eport proto leaseduration d.nf
      (renew env rhost eport iaddr iport proto desc leaseduration (readRule d.nf e) d) := by
  intro repeats
  have accepted := repeats.accepted
  have old : ¬ (iaddr = (readRule d.nf e).iaddr ∧
      sameRhost rhost (readRule d.nf e).rhost = true) := disagrees
  unfold renew at accepted
  simp [old] at accepted

/-- The request for a rule that is already there. -/
theorem second_request {protocol : CString} {given : Option CString} {address : InAddr}
    (redirected : Redirected eport iport (protoAtoi protocol) (given.getD []) e d.nf)
    (parsed : inetAton iaddr = some address)
    (permitted : checkUpnpRuleAgainstPermissions env.upnppermlist eport address iport = true) :
    Repeats env eport (protoAtoi protocol) leaseduration d.nf
        (upnpRedirect env rhost eport iaddr iport protocol given leaseduration d) ↔
      Agrees rhost iaddr e := by
  generalize call : Call.upnpRedirect rhost eport iaddr iport protocol given leaseduration = asked
  have looked := @lookup_quiet (d.record asked) eport redirected.quiet (protoAtoi protocol)
  rw [record_nf, redirected.found, Option.map_some] at looked
  unfold upnpRedirect
  simp only [parsed, permitted, ↓reduceIte, call, looked]
  constructor
  · intro repeats
    by_contra disagrees
    exact @renew_disagrees env rhost eport iaddr iport _ _ leaseduration (d.record asked) e disagrees
      repeats
  · intro agrees
    exact @renew_repeats env rhost eport iaddr iport _ _ leaseduration (d.record asked) e redirected
      (protoAtoi_byte protocol) agrees

theorem agrees_natRule : Agrees rhost iaddr (natRule proto eport iaddr iport rhost) ↔
    Written iaddr ∧ WrittenHost rhost := by
  have client : iaddr = inetNtoa (natRule proto eport iaddr iport rhost).target.minIp ↔
      Written iaddr := by
    rw [Written, eq_comm]
    rfl
  have host : sameRhost rhost (rhostOf (natRule proto eport iaddr iport rhost)) = true ↔
      WrittenHost rhost := by
    have src : (natRule proto eport iaddr iport rhost).src = (hostGiven rhost).getD 0 := rfl
    rw [rhostOf, src]
    cases rhost with
    | none => simp [sameRhost, hostGiven, WrittenHost]
    | some s =>
      by_cases wild : s = [] ∨ s = "*".toList
      · have none_ : hostGiven (some s) = none := by
          simp only [hostGiven]
          exact if_pos wild
        have empty : (if ((none : Option InAddr).getD 0) = 0 then [] else
            inetNtoa ((none : Option InAddr).getD 0)) = ([] : CString) := rfl
        rw [none_, empty]
        simp only [sameRhost, WrittenHost, decide_eq_true_eq, Option.mem_def, Option.some.injEq,
          forall_eq']
        constructor
        · intro _
          rcases wild with nil | star
          · exact .inl nil
          · exact .inr (.inl star)
        · intro _
          rcases wild with nil | star
          · exact .inr nil
          · exact .inl ⟨star, trivial⟩
      · have given : hostGiven (some s) = some (inetAddr s) := by
          simp only [hostGiven]
          exact if_neg wild
        rw [given, Option.getD_some]
        simp only [sameRhost, WrittenHost, decide_eq_true_eq, Option.mem_def, Option.some.injEq,
          forall_eq', Written]
        rw [not_or] at wild
        by_cases zero : inetAddr s = 0
        · rw [if_pos zero]
          simp [wild.1, zero]
        · rw [if_neg zero]
          have printed : inetNtoa (inetAddr s) ≠ [] := by
            simp [inetNtoa]
          constructor
          · rintro (⟨_, empty⟩ | same)
            · exact absurd empty printed
            · exact .inr (.inr ⟨zero, same.symm⟩)
          · rintro (nil | star | ⟨_, same⟩)
            · exact absurd nil wild.1
            · exact absurd star wild.2
            · exact .inr same.symm
  rw [Agrees, client, host]

end second

/-- There was a mapping under this key before the first request. -/
def Mapped (eport : UInt16) (proto : Int) (d : Daemon) : Prop :=
  ((d.nf.chain .nat).find? (redirectMatches proto eport)).isSome = true

section requests
variable {env : Env} {rhost : Option CString} {eport : UInt16} {iaddr : CString} {iport : UInt16}
  {protocol : CString} {desc : Option CString} {leaseduration : Nat} {d : Daemon}

theorem first_request (quiet : d.nf.Quiet)
    (accepted : (upnpRedirect env rhost eport iaddr iport protocol desc leaseduration d).1 = 0) :
    (∃ address, inetAton iaddr = some address ∧
        checkUpnpRuleAgainstPermissions env.upnppermlist eport address iport = true) ∧
      ∃ e, Redirected eport iport (protoAtoi protocol) (desc.getD []) e
          (upnpRedirect env rhost eport iaddr iport protocol desc leaseduration d).2.nf ∧
        (Agrees rhost iaddr e ↔
          Mapped eport (protoAtoi protocol) d ∨ Written iaddr ∧ WrittenHost rhost) := by
  generalize call : Call.upnpRedirect rhost eport iaddr iport protocol desc leaseduration = asked
  have looked := @lookup_quiet (d.record asked) eport quiet (protoAtoi protocol)
  rw [record_nf] at looked
  unfold upnpRedirect at accepted ⊢
  simp only [call] at accepted ⊢
  split at accepted
  · simp at accepted
  · rename_i address parsed
    split at accepted
    · rename_i permitted
      refine ⟨⟨address, parsed, permitted⟩, ?_⟩
      simp only [permitted, ↓reduceIte]
      simp only [looked] at accepted ⊢
      cases found : (d.nf.chain .nat).find? (redirectMatches (protoAtoi protocol) eport) with
      | some e =>
        simp only [found, Option.map_some] at accepted ⊢
        obtain ⟨e', redirected, agrees⟩ := @renew_redirected env rhost eport iaddr iport
          (protoAtoi protocol) (desc.getD []) e leaseduration (d.record asked) quiet found accepted
        exact ⟨e', redirected, iff_of_true agrees (.inl (by simp [Mapped, found]))⟩
      | none =>
        simp only [found, Option.map_none] at accepted ⊢
        split at accepted
        · simp at accepted
        · rename_i free
          rw [if_neg free]
          refine ⟨_, added_redirected (d := d.record asked) quiet (protoAtoi_byte protocol) found
            accepted, ?_⟩
          rw [agrees_natRule]
          simp [Mapped, found]
    · simp at accepted

/-- After a request that was accepted, the same one is accepted again with nothing but a new
    expiry, exactly if there was a mapping before or the request writes its addresses as they
    are printed. -/
theorem repeated_iff (clock : LeaseFile.Clock) (quiet : d.nf.Quiet)
    (accepted : (upnpRedirect env rhost eport iaddr iport protocol desc leaseduration d).1 = 0) :
    let first := (upnpRedirect env rhost eport iaddr iport protocol desc leaseduration d).2
    let again := { env with clock }
    Repeats again eport (protoAtoi protocol) leaseduration first.nf
        (upnpRedirect again rhost eport iaddr iport protocol desc leaseduration first) ↔
      Mapped eport (protoAtoi protocol) d ∨ Written iaddr ∧ WrittenHost rhost := by
  intro first again
  obtain ⟨⟨address, parsed, permitted⟩, e, redirected, agrees⟩ := first_request quiet accepted
  rw [← agrees]
  exact second_request redirected parsed permitted

end requests

theorem web_accepted :
    (upnpRedirect (Env.plain 1000) none 8080 "192.168.0.2".toList 80 "TCP".toList
      (some "web".toList) 3600 (Daemon.start none)).1 = 0 := by
  decide +kernel

theorem web_repeated_iff :
    let first := (upnpRedirect (Env.plain 1000) none 8080 "192.168.0.2".toList 80 "TCP".toList
      (some "web".toList) 3600 (Daemon.start none)).2
    let again := { Env.plain 1000 with clock := (Env.plain 2000).clock }
    Repeats again 8080 (LeaseFile.protoAtoi "TCP".toList) 3600 first.nf
        (upnpRedirect again none 8080 "192.168.0.2".toList 80 "TCP".toList
          (some "web".toList) 3600 first) ↔
      Mapped 8080 (LeaseFile.protoAtoi "TCP".toList) (Daemon.start none) ∨
        Written "192.168.0.2".toList ∧ WrittenHost none :=
  have quiet : (Daemon.start none).nf.Quiet := rfl
  repeated_iff (Env.plain 2000).clock quiet web_accepted

/-- TCP port 8080 for the address that stands for any host. -/
def anyHostRequest (d : Daemon) : Int × Daemon :=
  upnpRedirect (Env.plain 1000) (some "0.0.0.0".toList) 8080 "192.168.0.2".toList 80 "TCP".toList
    (some "web".toList) 3600 d

/-- It is accepted once and then refused. -/
theorem any_host_refused :
    (anyHostRequest (Daemon.start none)).1 = 0 ∧
      (anyHostRequest (anyHostRequest (Daemon.start none)).2).1 = -2 := by
  constructor
  · decide +kernel
  · decide +kernel

end RepeatedRedirect
