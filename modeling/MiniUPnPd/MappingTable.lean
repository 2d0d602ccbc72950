import MiniUPnPd.DaemonRules
import MiniUPnPd.Lib.Runs
import MiniUPnPd.UpnpRedirectSpec

/-!
The redirections and the descriptions are two tables under one key, the external port and
the protocol. UPnP, NAT-PMP, PCP, the cleaning and the lease file write them in different
ways, each after a lookup of its own. While no libiptc call fails, no key has two
redirections, and a key has a description if and only if it has a redirection.
-/
namespace MappingTable
open DaemonRules FirstMatch Inet Iptc Iptcrdr IptcrdrSpec LeaseFile NatPmp PcpServer RuleKeys Runs
open UpnpPermissions UpnpRedirect UpnpRedirectSpec

def OneEach (t : Tables) : Prop :=
  ∀ eport proto, t.nat.countP (redirectMatches proto eport) ≤ 1 ∧
    t.descs.countP (descMatches eport proto) = t.nat.countP (redirectMatches proto eport)

section keys
variable {eport eport' : UInt16} {proto proto' : Int}

theorem descMatches_other (other : ¬ (eport' = eport ∧ proto' = proto)) (p : RdrDesc)
    (hit : descMatches eport' proto' p = true) : descMatches eport proto p = false := by
  simp only [descMatches, decide_eq_true_eq] at hit
  by_contra also
  simp only [descMatches, Bool.not_eq_false, decide_eq_true_eq] at also
  exact other ⟨hit.1.symm.trans also.1, hit.2.symm.trans also.2⟩

theorem countP_zero {t : Tables} (free : t.nat.find? (redirectMatches proto eport) = none) :
    t.nat.countP (redirectMatches proto eport) = 0 := by
  rw [List.countP_eq_zero]
  exact List.find?_eq_none.mp free

theorem desc_exists {t : Tables} (one : OneEach t) {e : IptEntry}
    (found : t.nat.find? (redirectMatches proto eport) = some e) :
    ∃ p, t.descs.find? (descMatches eport proto) = some p := by
  have counts := (one eport proto).2
  rw [countP_eraseP found] at counts
  apply Option.isSome_iff_exists.mp
  rw [List.find?_isSome]
  apply List.countP_pos_iff.mp
  omega

theorem desc_missing {t : Tables} (one : OneEach t)
    (free : t.nat.find? (redirectMatches proto eport) = none) :
    t.descs.find? (descMatches eport proto) = none := by
  have counts := (one eport proto).2
  rw [countP_zero free, List.countP_eq_zero] at counts
  exact List.find?_eq_none.mpr counts

end keys

section operations
variable {t : Tables} {eport : UInt16} {proto : Int} {iport : UInt16} {desc : Option CString}
  {timestamp : Nat}

theorem oneEach_remove (one : OneEach t) : OneEach (remove eport proto t) := by
  intro eport' proto'
  obtain ⟨atMost, same⟩ := one eport' proto'
  simp only [remove]
  by_cases key : eport' = eport ∧ proto' = proto
  · obtain ⟨eports, protos⟩ := key
    subst eports protos
    cases found : t.nat.find? (redirectMatches proto' eport') with
    | none =>
      rw [eraseP_of_find?_none found, eraseP_of_find?_none (desc_missing one found)]
      exact ⟨atMost, same⟩
    | some e =>
      obtain ⟨p, described⟩ := desc_exists one found
      rw [countP_eraseP found] at atMost same
      rw [countP_eraseP described] at same
      exact ⟨by omega, by omega⟩
  · rw [countP_eraseP_other (redirectMatches_other key), countP_eraseP_other (descMatches_other key)]
    exact ⟨atMost, same⟩

theorem free_after_remove (one : OneEach t) :
    (remove eport proto t).nat.find? (redirectMatches proto eport) = none := by
  simp only [remove]
  cases found : t.nat.find? (redirectMatches proto eport) with
  | none => rw [eraseP_of_find?_none found, found]
  | some e =>
    have atMost := (one eport proto).1
    rw [countP_eraseP found] at atMost
    have zero : (t.nat.eraseP (redirectMatches proto eport)).countP
        (redirectMatches proto eport) = 0 := by omega
    exact List.find?_eq_none.mpr (List.countP_eq_zero.mp zero)

theorem descMatches_new {eport' : UInt16} {proto' : Int} (byte : isByte proto) (str : CString) :
    descMatches eport' proto' { timestamp, eport, proto := Int16.ofInt proto, str } = true ↔
      eport = eport' ∧ proto = proto' := by
  simp only [descMatches, decide_eq_true_eq, toInt_of_byte byte]

theorem redirectMatches_new {eport' : UInt16} {proto' : Int} (byte : isByte proto)
    (iaddr : CString) (rhost : Option CString) :
    redirectMatches proto' eport' (natRule proto eport iaddr iport rhost) = true ↔
      eport = eport' ∧ proto = proto' := by
  obtain ⟨port, protocol⟩ := natRule_key rhost eport iaddr iport byte
  rw [redirectMatches_iff, port, protocol]
  constructor
  · intro same
    exact ⟨same.2.symm, same.1.symm⟩
  · intro same
    exact ⟨same.2.symm, same.1.symm⟩

/-- A description that takes the place of one with the same key. -/
theorem oneEach_redescribe (one : OneEach t) (byte : isByte proto) {e : IptEntry}
    (found : t.nat.find? (redirectMatches proto eport) = some e) :
    OneEach (redescribe eport proto desc timestamp t) := by
  intro eport' proto'
  obtain ⟨atMost, same⟩ := one eport' proto'
  refine ⟨atMost, ?_⟩
  simp only [redescribe, List.countP_cons, descMatches_new byte]
  by_cases key : eport = eport' ∧ proto = proto'
  · obtain ⟨eports, protos⟩ := key
    subst eports protos
    obtain ⟨p, described⟩ := desc_exists one found
    rw [countP_eraseP described] at same
    simpa using same
  · have other : ¬ (eport' = eport ∧ proto' = proto) := fun both => key ⟨both.1.symm, both.2.symm⟩
    rw [countP_eraseP_other (descMatches_other other), if_neg key]
    exact same

theorem countP_withIport (q : IptEntry → Bool) (eport' : UInt16) (proto' : Int)
    (rules : List IptEntry) :
    (updateFirst q (withIport iport) rules).countP (redirectMatches proto' eport') =
      rules.countP (redirectMatches proto' eport') := by
  induction rules with
  | nil => rfl
  | cons e rules ih =>
    simp only [updateFirst]
    split
    · simp only [List.countP_cons]
      rfl
    · simp only [List.countP_cons, ih]

theorem oneEach_renumber (one : OneEach t) (byte : isByte proto) :
    OneEach (renumber eport proto iport desc timestamp t) := by
  have renumbered : ∀ forward, OneEach
      { t with nat := updateFirst (redirectMatches proto eport) (withIport iport) t.nat, forward } := by
    intro forward eport' proto'
    simp only [countP_withIport]
    exact one eport' proto'
  unfold renumber
  cases found : t.nat.find? (redirectMatches proto eport) with
  | none => exact one
  | some e =>
    dsimp only
    split
    · exact renumbered t.forward
    · apply oneEach_redescribe (renumbered _) byte (e := withIport iport e)
      dsimp only
      rw [find?_updateFirst (withIport iport) (fun _ => rfl), found]
      rfl

theorem oneEach_addMapping (one : OneEach t) (byte : isByte proto) (rhost : Option CString)
    (iaddr str : CString) (free : t.nat.find? (redirectMatches proto eport) = none) :
    OneEach (addMapping rhost eport iaddr iport proto str timestamp t) := by
  intro eport' proto'
  obtain ⟨atMost, same⟩ := one eport' proto'
  simp only [addMapping, describe, List.countP_append, List.countP_cons, List.countP_nil,
    descMatches_new byte, redirectMatches_new byte]
  by_cases key : eport = eport' ∧ proto = proto'
  · obtain ⟨eports, protos⟩ := key
    subst eports protos
    rw [countP_zero free] at same ⊢
    simp [same]
  · rw [if_neg key]
    exact ⟨atMost, same⟩

end operations

theorem oneEach_redirectTables {t : Tables} (one : OneEach t) (env : Env) (rhost : Option CString)
    (eport : UInt16) (iaddr : CString) (iport : UInt16) (protocol : CString)
    (desc : Option CString) (leaseduration : Nat) :
    OneEach (redirectTables env rhost eport iaddr iport protocol desc leaseduration t) := by
  have byte := protoAtoi_byte protocol
  unfold redirectTables
  cases inetAton iaddr with
  | none => exact one
  | some address =>
    dsimp only
    split
    · cases found : t.nat.find? (redirectMatches (protoAtoi protocol) eport) with
      | none =>
        dsimp only
        split
        · exact one
        · split
          · exact one
          · exact oneEach_addMapping one byte rhost iaddr _ found
      | some e =>
        dsimp only
        split
        · split
          · exact oneEach_renumber (oneEach_renumber one byte) byte
          · exact oneEach_redescribe (oneEach_redescribe one byte found) byte found
        · exact one
    · exact one

def Sound (d : Daemon) : Prop := d.nf.Quiet ∧ OneEach (tables d.nf)

theorem sound_start (leaseFile : Option CString) : Sound (Daemon.start leaseFile) :=
  ⟨rfl, fun _ _ => ⟨Nat.zero_le 1, rfl⟩⟩

theorem steady_sound (env : Env) : Steady env Sound where
  opened d sound := by
    rw [iptcCalls_quiet 2 sound.1]
    exact sound
  deleted eport proto d sound := by
    obtain ⟨quiet, removed⟩ := upnpDeleteRedir_quiet env eport sound.1 proto
    refine ⟨quiet, ?_⟩
    rw [removed]
    exact oneEach_remove sound.2
  cleaned next d sound := sound
  filed file d sound := sound

theorem sound_internal {d : Daemon} {env : Env} {eport : UInt16} {proto : Int} (sound : Sound d)
    (byte : isByte proto) (rhost : Option CString) (iaddr : CString) (iport : UInt16)
    (desc : CString) (timestamp : Nat)
    (free : (tables d.nf).nat.find? (redirectMatches proto eport) = none) :
    Sound (upnpRedirectInternal env rhost eport iaddr iport proto desc timestamp d).2 := by
  obtain ⟨quiet, added⟩ :=
    upnpRedirectInternal_quiet env rhost eport iaddr iport sound.1 proto desc timestamp
  refine ⟨quiet, ?_⟩
  rw [added]
  split
  · exact sound.2
  · exact oneEach_addMapping sound.2 byte rhost iaddr desc free

theorem adds_sound (env : Env) {proto : Int} (byte : isByte proto) (iaddr : CString)
    (iport : UInt16) : Adds env Sound iaddr iport proto where
  free eport desc timestamp d _ sound missing := by
    rw [lookup_quiet eport sound.1] at missing ⊢
    exact sound_internal sound byte none iaddr iport desc timestamp
      (Option.map_eq_none_iff.mp missing)
  again eport desc timestamp d old _ sound _ := by
    rw [lookup_quiet eport sound.1]
    apply sound_internal ((steady_sound env).deleted eport proto d sound) byte
    rw [(upnpDeleteRedir_quiet env eport sound.1 proto).2]
    exact free_after_remove sound.2

theorem sound_redirect {d : Daemon} (sound : Sound d) (env : Env) (rhost : Option CString)
    (eport : UInt16) (iaddr : CString) (iport : UInt16) (protocol : CString)
    (desc : Option CString) (leaseduration : Nat) :
    Sound (upnpRedirect env rhost eport iaddr iport protocol desc leaseduration d).2 := by
  obtain ⟨quiet, changed⟩ :=
    upnpRedirect_quiet env rhost eport iaddr iport sound.1 protocol desc leaseduration
  refine ⟨quiet, ?_⟩
  rw [changed]
  exact oneEach_redirectTables sound.2 env rhost eport iaddr iport protocol desc leaseduration

inductive Op where
  | upnpRedirect (env : Env) (rhost : Option CString) (eport : UInt16) (iaddr : CString)
      (iport : UInt16) (protocol : CString) (desc : Option CString) (leaseduration : Nat)
  | upnpDeleteRedir (env : Env) (eport : UInt16) (proto : Int)
  | natPmp (env : Env) (uplink : Uplink) (req : List UInt8) (senderaddr : InAddr)
  | pcp (env : PcpEnv) (req : List UInt8) (senderIp : In6Addr)
  | getUpnpRulesStateList (env : Env) (maxRulesNumberTarget : Int)
  | reloadFromLeaseFile (env : Env)

def step (d : Daemon) : Op → Daemon
  | .upnpRedirect env rhost eport iaddr iport protocol desc leaseduration =>
      (UpnpRedirect.upnpRedirect env rhost eport iaddr iport protocol desc leaseduration d).2
  | .upnpDeleteRedir env eport proto => (UpnpRedirect.upnpDeleteRedir env eport proto d).2
  | .natPmp env uplink req senderaddr =>
      (processIncomingNATPMPPacket env uplink req senderaddr d).2
  | .pcp env req senderIp => (processIncomingPCPPacket env req senderIp d).2
  | .getUpnpRulesStateList env maxRules => (UpnpRedirect.getUpnpRulesStateList env maxRules d).2
  | .reloadFromLeaseFile env => (UpnpRedirect.reloadFromLeaseFile env d).2

theorem step_sound (d : Daemon) (op : Op) (sound : Sound d) : Sound (step d op) := by
  cases op with
  | upnpRedirect env rhost eport iaddr iport protocol desc leaseduration =>
    exact sound_redirect sound env rhost eport iaddr iport protocol desc leaseduration
  | upnpDeleteRedir env eport proto => exact (steady_sound env).deleted eport proto d sound
  | natPmp env uplink req senderaddr =>
    apply natPmp_keeps (steady_sound env) uplink req ?_ sound
    intro _ proto either
    apply adds_sound env ?_ _ _
    rcases either with udp | tcp
    · rw [udp]
      decide
    · rw [tcp]
      decide
  | pcp env req senderIp =>
    apply pcp_keeps (steady_sound env.toEnv) req senderIp ?_ sound
    intro info checked _ _ _ _ _
    apply adds_sound env.toEnv
    have small := info.protocol.toNat_lt
    exact ⟨by omega, by omega⟩
  | getUpnpRulesStateList env maxRules =>
    exact getUpnpRulesStateList_keeps (steady_sound env) maxRules sound
  | reloadFromLeaseFile env =>
    apply reloadFromLeaseFile_keeps (steady_sound env) ?_ sound
    intro l leaseduration d sound
    exact sound_redirect sound env none l.eport l.iaddr l.iport l.proto (some l.desc) leaseduration

/-- In every state of a run a key has at most one redirection, and as many descriptions as
    redirections. -/
theorem one_rule_and_description (leaseFile : Option CString) (ops : List Op) :
    Always step (fun d => OneEach (tables d.nf)) (Daemon.start leaseFile) ops := by
  have run := always_of_step step_sound (sound_start leaseFile) ops
  exact always_imp (fun d sound => sound.2) run

end MappingTable
