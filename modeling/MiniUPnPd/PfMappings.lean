import MiniUPnPd.Lib.Runs
import MiniUPnPd.PfListing

/-!
Histories of calls of the pf backend. The listing is exact only while nothing but the
redirections of the live mappings is in the ruleset that is listed: in the new style the other
rules of the daemon are in it too, and in the old style an update can lose its redirection.
-/
namespace PfMappings
open CText FirstMatch Inet Obsdrdr ObsdrdrSpec PfListing Runs
open RuleKeys (isByte)

inductive Call where
  | add (ifname rhost : Option CString) (eport : UInt16) (iaddr : CString) (iport : UInt16)
      (proto : Int) (desc : CString) (timestamp : Nat) (extaddr : Option CString)
  | delete (eport : UInt16) (proto : Int)
  | update (ifname : Option CString) (eport : UInt16) (proto : Int) (iport : UInt16)
      (desc : CString) (timestamp : Nat) (extaddr : Option CString)
  | updateDescTimestamp (ifname : Option CString) (eport : UInt16) (proto : Int) (desc : CString)
      (timestamp : Nat) (extaddr : Option CString)
  | addPinhole (ifname remHost : Option CString) (remPort : UInt16) (intClient : CString)
      (intPort : UInt16) (proto : UInt8) (desc : CString) (timestamp : Nat)
  | deletePinhole (uid : UInt16)

def perform (cfg : Config) : Call → State → Int × State
  | .add ifname rhost eport iaddr iport proto desc timestamp extaddr =>
      addRules cfg ifname rhost eport iaddr iport proto desc timestamp extaddr
  | .delete eport proto => deleteRedirectAndFilterRules cfg eport proto
  | .update ifname eport proto iport desc timestamp extaddr =>
      updatePortmapping cfg ifname eport proto iport desc timestamp extaddr
  | .updateDescTimestamp ifname eport proto desc timestamp extaddr =>
      updatePortmappingDescTimestamp cfg ifname eport proto desc timestamp extaddr
  | .addPinhole ifname remHost remPort intClient intPort proto desc timestamp =>
      Obsdrdr.addPinhole cfg ifname remHost remPort intClient intPort proto desc timestamp
  | .deletePinhole uid => Obsdrdr.deletePinhole cfg uid

/-- The mappings that are meant to be live after a call. -/
def meant : Call → List PortMapping → List PortMapping
  | .add _ _ eport iaddr iport proto _ timestamp _, live =>
      without (eport, proto) live ++ [{ eport, proto, iaddr, iport, expiry := timestamp }]
  | .delete eport proto, live => without (eport, proto) live
  | .update _ eport proto iport _ timestamp _, live =>
      changed (eport, proto) (fun m => { m with iport, expiry := timestamp }) live
  | .updateDescTimestamp _ eport proto _ timestamp _, live =>
      changed (eport, proto) (fun m => { m with expiry := timestamp }) live
  | .addPinhole .., live => live
  | .deletePinhole _, live => live

def step (cfg : Config) (now : State × List PortMapping) (call : Call) :
    State × List PortMapping := ((perform cfg call now.1).2, meant call now.2)

/-- Before the call, no redirection is found for the external port and the protocol of an added
    mapping, an updated one has its pass rule, and the call neither writes a rule of another
    kind where redirections are listed nor removes the redirection of another mapping. -/
def admits (cfg : Config) (s : State) : Call → Prop
  | .add _ _ eport iaddr _ proto _ _ extaddr =>
      isByte proto ∧ (inetPton iaddr).isSome ∧ redirectOf cfg eport proto s = none ∧
        Bare cfg proto extaddr
  | .delete eport proto =>
      cfg.newstyle ∧ cfg.portTriggering ∧ proto = IPPROTO_UDP →
        ∀ r ∈ redirectOf cfg eport proto s, ∀ iaddr ∈ internalAddr cfg r,
          ∀ q ∈ (listing cfg s).eraseP (redirectMatches eport proto),
            natMatches (proxyPort cfg r) proto iaddr q = false
  | .update _ eport proto _ _ _ extaddr =>
      ∀ r ∈ redirectOf cfg eport proto s, ∀ iaddr ∈ internalAddr cfg r,
        PassFound cfg (proxyPort cfg r) proto iaddr s ∧ Bare cfg proto extaddr
  | .updateDescTimestamp _ eport proto desc _ extaddr =>
      ∀ r ∈ redirectOf cfg eport proto s, r.label ≠ desc → ∀ iaddr ∈ internalAddr cfg r,
        PassFound cfg (proxyPort cfg r) proto iaddr s ∧ Bare cfg proto extaddr
  | .addPinhole .. => ¬ cfg.newstyle
  | .deletePinhole uid => cfg.newstyle → ∀ r ∈ listing cfg s, labelledPinhole uid r = false

section calls
variable {cfg : Config} {s : State} {live : List PortMapping} {eport : UInt16} {proto : Int}
  {r : Rule} {iaddr : InAddr}

def Faithful (cfg : Config) (now : State × List PortMapping) : Prop :=
  Listed cfg (listing cfg now.1) now.1.timestampList now.2

theorem without_free (free : (eport, proto) ∉ live.map PortMapping.key) :
    without (eport, proto) live = live := by
  apply List.filter_eq_self.mpr
  intro m member
  rw [decide_eq_true_eq]
  intro same
  apply free
  rw [← same]
  exact List.mem_map_of_mem member

theorem changed_free (free : (eport, proto) ∉ live.map PortMapping.key)
    (f : PortMapping → PortMapping) : changed (eport, proto) f live = live := by
  have same : ∀ m ∈ live, (if m.key = (eport, proto) then f m else m) = id m := by
    intro m member
    apply if_neg
    intro key
    apply free
    rw [← key]
    exact List.mem_map_of_mem member
  unfold changed
  rw [List.map_congr_left same, List.map_id]

theorem changed_length (f : PortMapping → PortMapping) :
    (changed (eport, proto) f live).length = live.length := List.length_map _

theorem faithful_length (now : Faithful cfg (s, live)) :
    (listing cfg s).length = live.length := by
  rw [← now.shown.length_eq, List.length_map]

/-- The redirection of a live mapping, and its target. -/
theorem found_target (now : Faithful cfg (s, live))
    (found : redirectOf cfg eport proto s = some r) :
    ∃ iaddr, internalAddr cfg r = some iaddr ∧ ¬ (cfg.newstyle ∧ cfg.enableFilterRules) := by
  obtain ⟨member, -, -⟩ := listed_found now found
  obtain ⟨iaddr, target⟩ := Option.isSome_iff_exists.mp (now.redirects r member).2
  refine ⟨iaddr, target, ?_⟩
  intro both
  have none := now.apart both
  rw [none] at member
  cases member

theorem faithful_removed (now : Faithful cfg (s, live))
    (found : redirectOf cfg eport proto s = some r) :
    Faithful cfg (removed cfg eport proto s, without (eport, proto) live) := by
  have listed := listed_remove now found
  unfold Faithful
  dsimp only
  rw [listing_removed]
  exact listed

theorem removed_length (now : Faithful cfg (s, live))
    (found : redirectOf cfg eport proto s = some r) :
    (without (eport, proto) live).length + 1 = live.length := by
  have shorter := faithful_length (faithful_removed now found)
  have length := faithful_length now
  rw [listing_removed, List.length_eraseP_of_mem (List.mem_of_find?_eq_some found)
    (List.find?_some found)] at shorter
  have some := List.length_pos_of_mem (List.mem_of_find?_eq_some found)
  omega

theorem redirectRule_key (cfg : Config) (eport : UInt16) (byte : isByte proto)
    (ifname rhost : Option CString) (target : CString)
    (iport : UInt16) (desc : CString) :
    ruleKey (redirectRule cfg ifname rhost eport target iport proto desc) = (eport, proto) := by
  obtain ⟨low, high⟩ := byte
  have value : ((UInt8.ofInt proto).toNat : Int) = proto := by
    obtain ⟨n, here⟩ := Int.eq_ofNat_of_zero_le low
    subst here
    have small : n < 256 := by omega
    simp only [UInt8.ofInt, UInt8.toNat_ofNat']
    omega
  unfold ruleKey redirectRule
  exact Prod.ext rfl value

theorem redirectRule_target (cfg : Config) (ifname rhost : Option CString) (eport : UInt16)
    (target : CString) (iport : UInt16) (proto : Int) (desc : CString) :
    internalAddr cfg (redirectRule cfg ifname rhost eport target iport proto desc) =
      some ((inetPton target).getD 0) ∧
    proxyPort cfg (redirectRule cfg ifname rhost eport target iport proto desc) = iport := by
  unfold internalAddr proxyPort redirectRule
  by_cases style : cfg.newstyle
  · simp [style]
  · simp [style]

/-- A new mapping is listed with what was asked for. -/
theorem addRules_faithful (now : Faithful cfg (s, live)) (byte : isByte proto)
    (free : (eport, proto) ∉ live.map PortMapping.key) {ifname rhost extaddr : Option CString}
    {iport : UInt16} {desc : CString} (timestamp : Nat) (bare : Bare cfg proto extaddr) :
    Faithful cfg
      ((addRules cfg ifname rhost eport (inetNtoa iaddr) iport proto desc timestamp extaddr s).2,
        live ++ [{ eport, proto, iaddr := inetNtoa iaddr, iport, expiry := timestamp }]) := by
  obtain ⟨extra, listed, stamps, -, alone⟩ := addRules_listing cfg ifname rhost eport
    (inetNtoa iaddr) iport proto desc timestamp extaddr s
  obtain ⟨target, port⟩ :=
    redirectRule_target cfg ifname rhost eport (inetNtoa iaddr) iport proto desc
  rw [(inetPton_iff (inetNtoa iaddr) iaddr).mpr rfl] at target
  unfold Faithful
  dsimp only
  rw [listed, stamps, alone.mpr bare]
  have key := redirectRule_key cfg eport byte ifname rhost (inetNtoa iaddr) iport desc
  have apart : ¬ (cfg.newstyle ∧ cfg.enableFilterRules) := fun both => (bare both.1).1 both.2
  exact listed_add now byte free timestamp key rfl target port apart

theorem add_faithful (now : Faithful cfg (s, live)) {ifname rhost extaddr : Option CString}
    {target desc : CString} {iport : UInt16} {timestamp : Nat}
    (admitted : admits cfg s
      (.add ifname rhost eport target iport proto desc timestamp extaddr)) :
    Faithful cfg (step cfg (s, live)
      (.add ifname rhost eport target iport proto desc timestamp extaddr)) := by
  obtain ⟨byte, address, missing, bare⟩ := admitted
  obtain ⟨iaddr, read⟩ := Option.isSome_iff_exists.mp address
  rw [inetPton_iff] at read
  subst read
  have free := (listed_missing now).mp missing
  unfold step meant perform
  dsimp only
  rw [without_free free]
  exact addRules_faithful now byte free timestamp bare

theorem add_admitted (now : Faithful cfg (s, live)) {ifname rhost extaddr : Option CString}
    {target desc : CString} {iport : UInt16} {timestamp : Nat}
    (exact : Exact cfg (step cfg (s, live)
      (.add ifname rhost eport target iport proto desc timestamp extaddr))) :
    admits cfg s (.add ifname rhost eport target iport proto desc timestamp extaddr) := by
  obtain ⟨extra, listed, -, -, alone⟩ := addRules_listing cfg ifname rhost eport target iport
    proto desc timestamp extaddr s
  have length := exact_length exact
  have before := faithful_length now
  have shorter : (without (eport, proto) live).length ≤ live.length := List.length_filter_le _ _
  have counted : (listing cfg s).length + (extra.length + 1) =
      (without (eport, proto) live).length + 1 := by
    rw [← List.length_cons, ← List.length_append, ← listed]
    exact length.trans List.length_append
  have none : extra = [] := by
    apply List.eq_nil_of_length_eq_zero
    omega
  have whole : (without (eport, proto) live).length = live.length := by omega
  have free : (eport, proto) ∉ live.map PortMapping.key := by
    intro member
    obtain ⟨m, inside, key⟩ := List.mem_map.mp member
    have all := List.length_filter_eq_length_iff.mp whole m inside
    rw [decide_eq_true_eq] at all
    exact all key
  obtain ⟨byte, address⟩ :=
    exact_member exact (List.mem_append_right _ (List.mem_singleton.mpr rfl))
  exact ⟨byte, address, (listed_missing now).mpr free, alone.mp none⟩

/-- What a deletion leaves of the listing. -/
theorem delete_listing (found : redirectOf cfg eport proto s = some r)
    (target : internalAddr cfg r = some iaddr)
    (apart : ¬ (cfg.newstyle ∧ cfg.enableFilterRules)) :
    listing cfg (deleteRedirectAndFilterRules cfg eport proto s).2 =
        (if cfg.newstyle ∧ cfg.portTriggering ∧ proto = IPPROTO_UDP then
          ((listing cfg s).eraseP (redirectMatches eport proto)).eraseP
            (natMatches (proxyPort cfg r) proto iaddr)
        else (listing cfg s).eraseP (redirectMatches eport proto)) ∧
      (deleteRedirectAndFilterRules cfg eport proto s).2.timestampList =
        removeTimestampEntry eport proto s.timestampList := by
  have noDesc : ¬ (none = some r.label) := by simp
  unfold deleteRedirectAndFilterRules
  rw [privDelete_found none found target, if_neg noDesc]
  dsimp only
  obtain ⟨same, stamps⟩ := privDeleteFilterRule_listing (proxyPort cfg r) proto iaddr
    (if cfg.portTriggering ∧ proto = IPPROTO_UDP then
      (deleteNatRule cfg (proxyPort cfg r) proto iaddr (removed cfg eport proto s)).2
    else removed cfg eport proto s) apart
  obtain ⟨natListing, natStamps⟩ :=
    deleteNatRule_listing cfg (proxyPort cfg r) proto iaddr (removed cfg eport proto s)
  unfold deletedOf
  dsimp only
  rw [same, stamps]
  by_cases triggers : cfg.portTriggering ∧ proto = IPPROTO_UDP
  · rw [if_pos triggers, natListing, natStamps, listing_removed]
    by_cases style : cfg.newstyle
    · rw [if_pos style, if_pos ⟨style, triggers⟩]
      exact ⟨rfl, rfl⟩
    · rw [if_neg style, if_neg (fun all => style all.1)]
      exact ⟨rfl, rfl⟩
  · rw [if_neg triggers, if_neg (fun all => triggers all.2), listing_removed]
    exact ⟨rfl, rfl⟩

theorem delete_missing (missing : redirectOf cfg eport proto s = none) :
    (deleteRedirectAndFilterRules cfg eport proto s).2 = s := by
  unfold deleteRedirectAndFilterRules
  rw [privDelete_missing none missing]

theorem delete_faithful (now : Faithful cfg (s, live))
    (admitted : admits cfg s (.delete eport proto)) :
    Faithful cfg (step cfg (s, live) (.delete eport proto)) := by
  unfold step meant perform
  dsimp only
  cases found : redirectOf cfg eport proto s with
  | none =>
    rw [delete_missing found, without_free ((listed_missing now).mp found)]
    exact now
  | some r =>
    obtain ⟨iaddr, target, apart⟩ := found_target now found
    obtain ⟨listed, stamps⟩ := delete_listing found target apart
    have after := faithful_removed now found
    unfold Faithful at after ⊢
    dsimp only at after ⊢
    rw [listing_removed] at after
    rw [listed, stamps]
    split
    · rename_i triggers
      have none := admitted triggers r found iaddr target
      rw [List.eraseP_of_forall_not]
      · exact after
      · intro q member
        rw [none q member]
        decide
    · exact after

theorem delete_admitted (now : Faithful cfg (s, live))
    (exact : Exact cfg (step cfg (s, live) (.delete eport proto))) :
    admits cfg s (.delete eport proto) := by
  intro triggers r found iaddr target q member
  obtain ⟨address, same, apart⟩ := found_target now found
  obtain ⟨listed, -⟩ := delete_listing found target apart
  have after := faithful_length (faithful_removed now found)
  have length : (listing cfg (deleteRedirectAndFilterRules cfg eport proto s).2).length =
      (without (eport, proto) live).length := exact_length exact
  rw [listing_removed] at after
  rw [listed, if_pos triggers, ← after] at length
  by_contra hit
  rw [Bool.not_eq_false] at hit
  rw [List.length_eraseP_of_mem member hit] at length
  have some := List.length_pos_of_mem member
  omega

theorem passFound_removed (apart : ¬ (cfg.newstyle ∧ cfg.enableFilterRules)) {iport : UInt16} :
    PassFound cfg iport proto iaddr (removed cfg eport proto s) ↔
      PassFound cfg iport proto iaddr s := by
  unfold PassFound
  apply forall_congr'
  intro rules
  have other : rulesetOf cfg .PF_PASS ≠ rulesetOf cfg .PF_RDR := by
    intro same
    rcases (rulesetOf_eq_iff .PF_PASS).mp same with style | action
    · exact apart ⟨style, rules⟩
    · cases action
  unfold removed
  dsimp only
  rw [Function.update_of_ne other]

/-- The second half of an update gives the mapping back, changed. -/
theorem replace_faithful (now : Faithful cfg (s, live))
    (found : redirectOf cfg eport proto s = some r) {ifname extaddr : Option CString}
    {iport : UInt16} {desc : CString} {timestamp : Nat}
    (passes : PassFound cfg (proxyPort cfg r) proto iaddr s) (bare : Bare cfg proto extaddr)
    {f : PortMapping → PortMapping}
    (effect : f (ruleMapping cfg s.timestampList r) =
      { eport, proto, iaddr := inetNtoa iaddr, iport, expiry := timestamp }) :
    Faithful cfg
      ((replaceRules cfg ifname eport proto (deletedOf cfg r iaddr) iport desc timestamp extaddr
        (removed cfg eport proto s)).2, changed (eport, proto) f live) := by
  obtain ⟨address, same, apart⟩ := found_target now found
  obtain ⟨member, key, byte⟩ := listed_found now found
  have gone := faithful_removed now found
  have kept : PassFound cfg (deletedOf cfg r iaddr).iport proto (deletedOf cfg r iaddr).iaddr
      (removed cfg eport proto s) := (passFound_removed apart).mpr passes
  obtain ⟨listed, stamps⟩ := privDeleteFilterRule_listing (deletedOf cfg r iaddr).iport proto
    (deletedOf cfg r iaddr).iaddr (removed cfg eport proto s) apart
  have between : Faithful cfg ((privDeleteFilterRule cfg (deletedOf cfg r iaddr).iport proto
      (deletedOf cfg r iaddr).iaddr (removed cfg eport proto s)).2,
        without (eport, proto) live) := by
    unfold Faithful at gone ⊢
    dsimp only at gone ⊢
    rw [listed, stamps]
    exact gone
  have free : (eport, proto) ∉ (without (eport, proto) live).map PortMapping.key := by
    intro again
    obtain ⟨m, inside, same⟩ := List.mem_map.mp again
    have other := (List.mem_filter.mp inside).2
    rw [decide_eq_true_eq] at other
    exact other same
  have mapping : ruleMapping cfg s.timestampList r ∈ live :=
    now.shown.mem_iff.mp (List.mem_map_of_mem member)
  have order := map_key_perm now.distinct mapping f
  rw [effect, ruleMapping_key, key] at order
  rw [replaceRules_added kept]
  exact listed_perm (addRules_faithful between byte free timestamp bare) order.symm

/-- An update that is listed as it was asked for has found its pass rule. -/
theorem replace_admitted (now : Faithful cfg (s, live))
    (found : redirectOf cfg eport proto s = some r) {ifname extaddr : Option CString}
    {iport : UInt16} {desc : CString} {timestamp : Nat}
    {f : PortMapping → PortMapping}
    (exact : Exact cfg
      ((replaceRules cfg ifname eport proto (deletedOf cfg r iaddr) iport desc timestamp extaddr
        (removed cfg eport proto s)).2, changed (eport, proto) f live)) :
    PassFound cfg (proxyPort cfg r) proto iaddr s ∧ Bare cfg proto extaddr := by
  obtain ⟨address, same, apart⟩ := found_target now found
  obtain ⟨listed, -⟩ := privDeleteFilterRule_listing (deletedOf cfg r iaddr).iport proto
    (deletedOf cfg r iaddr).iaddr (removed cfg eport proto s) apart
  have length := exact_length exact
  have shorter := faithful_length (faithful_removed now found)
  have fewer := removed_length now found
  rw [changed_length] at length
  rw [← passFound_removed apart]
  by_cases passes : PassFound cfg (deletedOf cfg r iaddr).iport proto (deletedOf cfg r iaddr).iaddr
      (removed cfg eport proto s)
  · refine ⟨passes, ?_⟩
    obtain ⟨extra, added, -, -, alone⟩ := addRules_listing cfg ifname
      (some (deletedOf cfg r iaddr).rhost) eport (inetNtoa (deletedOf cfg r iaddr).iaddr) iport
      proto desc timestamp extaddr (privDeleteFilterRule cfg (deletedOf cfg r iaddr).iport proto
        (deletedOf cfg r iaddr).iaddr (removed cfg eport proto s)).2
    rw [replaceRules_added passes, added, listed, List.length_append, List.length_cons] at length
    apply alone.mp
    apply List.eq_nil_of_length_eq_zero
    omega
  · rw [replaceRules_stopped passes, listed] at length
    omega

theorem update_missing {ifname extaddr : Option CString} {iport : UInt16} {desc : CString}
    {timestamp : Nat} (missing : redirectOf cfg eport proto s = none) :
    (updatePortmapping cfg ifname eport proto iport desc timestamp extaddr s).2 = s := by
  unfold updatePortmapping
  rw [privDelete_missing none missing]

theorem update_found {ifname extaddr : Option CString} {iport : UInt16} {desc : CString}
    {timestamp : Nat} (found : redirectOf cfg eport proto s = some r)
    (target : internalAddr cfg r = some iaddr) :
    updatePortmapping cfg ifname eport proto iport desc timestamp extaddr s =
      replaceRules cfg ifname eport proto (deletedOf cfg r iaddr) iport desc timestamp extaddr
        (removed cfg eport proto s) := by
  have noDesc : ¬ (none = some r.label) := by simp
  unfold updatePortmapping
  rw [privDelete_found none found target, if_neg noDesc]

/-- The listed mapping of the redirection that is found. -/
theorem found_mapping (now : Faithful cfg (s, live))
    (found : redirectOf cfg eport proto s = some r) (target : internalAddr cfg r = some iaddr) :
    ruleMapping cfg s.timestampList r =
      { eport, proto, iaddr := inetNtoa iaddr, iport := proxyPort cfg r
        expiry := getTimestamp eport proto s.timestampList } := by
  obtain ⟨-, key, -⟩ := listed_found now found
  obtain ⟨ports, protos⟩ := Prod.mk.inj key
  unfold ruleMapping
  rw [ports, protos, target]
  rfl

theorem update_faithful (now : Faithful cfg (s, live)) {ifname extaddr : Option CString}
    {iport : UInt16} {desc : CString} {timestamp : Nat}
    (admitted : admits cfg s (.update ifname eport proto iport desc timestamp extaddr)) :
    Faithful cfg (step cfg (s, live)
      (.update ifname eport proto iport desc timestamp extaddr)) := by
  unfold step meant perform
  dsimp only
  cases found : redirectOf cfg eport proto s with
  | none =>
    rw [update_missing found, changed_free ((listed_missing now).mp found)]
    exact now
  | some r =>
    obtain ⟨iaddr, target, -⟩ := found_target now found
    obtain ⟨passes, bare⟩ := admitted r found iaddr target
    rw [update_found found target]
    apply replace_faithful now found passes bare
    rw [found_mapping now found target]

theorem update_admitted (now : Faithful cfg (s, live)) {ifname extaddr : Option CString}
    {iport : UInt16} {desc : CString} {timestamp : Nat}
    (exact : Exact cfg (step cfg (s, live)
      (.update ifname eport proto iport desc timestamp extaddr))) :
    admits cfg s (.update ifname eport proto iport desc timestamp extaddr) := by
  intro r found iaddr target
  unfold step meant perform at exact
  dsimp only at exact
  rw [update_found found target] at exact
  exact replace_admitted now found exact

theorem redescribe_missing {ifname extaddr : Option CString} {desc : CString} {timestamp : Nat}
    (missing : redirectOf cfg eport proto s = none) :
    (updatePortmappingDescTimestamp cfg ifname eport proto desc timestamp extaddr s).2 = s := by
  unfold updatePortmappingDescTimestamp
  rw [privDelete_missing (some desc) missing]

theorem redescribe_same {ifname extaddr : Option CString} {timestamp : Nat}
    (found : redirectOf cfg eport proto s = some r) (target : internalAddr cfg r = some iaddr) :
    (updatePortmappingDescTimestamp cfg ifname eport proto r.label timestamp extaddr s).2 =
      { s with timestampList := addTimestampEntry eport proto timestamp
                (removeTimestampEntry eport proto s.timestampList) } := by
  unfold updatePortmappingDescTimestamp
  rw [privDelete_found (some r.label) found target, if_pos rfl]
  rfl

theorem redescribe_other {ifname extaddr : Option CString} {desc : CString} {timestamp : Nat}
    (found : redirectOf cfg eport proto s = some r) (target : internalAddr cfg r = some iaddr)
    (other : r.label ≠ desc) :
    updatePortmappingDescTimestamp cfg ifname eport proto desc timestamp extaddr s =
      replaceRules cfg ifname eport proto (deletedOf cfg r iaddr) (proxyPort cfg r) desc
        timestamp extaddr (removed cfg eport proto s) := by
  have differs : ¬ (some desc = some r.label) := by
    intro same
    exact other (Option.some.inj same).symm
  unfold updatePortmappingDescTimestamp
  rw [privDelete_found (some desc) found target, if_neg differs]
  rfl

theorem redescribe_faithful (now : Faithful cfg (s, live)) {ifname extaddr : Option CString}
    {desc : CString} {timestamp : Nat}
    (admitted : admits cfg s (.updateDescTimestamp ifname eport proto desc timestamp extaddr)) :
    Faithful cfg (step cfg (s, live)
      (.updateDescTimestamp ifname eport proto desc timestamp extaddr)) := by
  unfold step meant perform
  dsimp only
  cases found : redirectOf cfg eport proto s with
  | none =>
    rw [redescribe_missing found, changed_free ((listed_missing now).mp found)]
    exact now
  | some r =>
    obtain ⟨iaddr, target, -⟩ := found_target now found
    by_cases same : r.label = desc
    · subst same
      rw [redescribe_same found target]
      exact listed_restamp now found timestamp
    · obtain ⟨passes, bare⟩ := admitted r found same iaddr target
      rw [redescribe_other found target same]
      apply replace_faithful now found passes bare
      rw [found_mapping now found target]

theorem redescribe_admitted (now : Faithful cfg (s, live)) {ifname extaddr : Option CString}
    {desc : CString} {timestamp : Nat}
    (exact : Exact cfg (step cfg (s, live)
      (.updateDescTimestamp ifname eport proto desc timestamp extaddr))) :
    admits cfg s (.updateDescTimestamp ifname eport proto desc timestamp extaddr) := by
  intro r found other iaddr target
  unfold step meant perform at exact
  dsimp only at exact
  rw [redescribe_other found target other] at exact
  exact replace_admitted now found exact

theorem addPinhole_faithful (now : Faithful cfg (s, live)) {ifname remHost : Option CString}
    {remPort intPort : UInt16} {intClient desc : CString} {protocol : UInt8} {timestamp : Nat}
    (old : ¬ cfg.newstyle) :
    Faithful cfg (step cfg (s, live)
      (.addPinhole ifname remHost remPort intClient intPort protocol desc timestamp)) := by
  obtain ⟨r, listed, stamps⟩ :=
    addPinhole_listing cfg s ifname remHost remPort intClient intPort protocol desc timestamp
  unfold Faithful step meant perform at *
  dsimp only at *
  rw [listed, stamps, if_neg old]
  exact now

theorem addPinhole_admitted (now : Faithful cfg (s, live)) {ifname remHost : Option CString}
    {remPort intPort : UInt16} {intClient desc : CString} {protocol : UInt8} {timestamp : Nat}
    (exact : Exact cfg (step cfg (s, live)
      (.addPinhole ifname remHost remPort intClient intPort protocol desc timestamp))) :
    ¬ cfg.newstyle := by
  obtain ⟨r, listed, -⟩ :=
    addPinhole_listing cfg s ifname remHost remPort intClient intPort protocol desc timestamp
  have before := faithful_length now
  have length := exact_length exact
  intro style
  unfold perform at length
  dsimp only [meant] at length
  rw [listed, if_pos style, List.length_append, List.length_singleton] at length
  omega

theorem deletePinhole_faithful (now : Faithful cfg (s, live)) {uid : UInt16}
    (admitted : admits cfg s (.deletePinhole uid)) :
    Faithful cfg (step cfg (s, live) (.deletePinhole uid)) := by
  obtain ⟨listed, stamps⟩ := deletePinhole_listing cfg s uid
  unfold Faithful step meant perform at *
  dsimp only at *
  rw [listed, stamps]
  split
  · rename_i style
    rw [List.eraseP_of_forall_not]
    · exact now
    · intro r member
      rw [admitted style r member]
      decide
  · exact now

theorem deletePinhole_admitted (now : Faithful cfg (s, live)) {uid : UInt16}
    (exact : Exact cfg (step cfg (s, live) (.deletePinhole uid))) :
    admits cfg s (.deletePinhole uid) := by
  obtain ⟨listed, -⟩ := deletePinhole_listing cfg s uid
  have before := faithful_length now
  have length := exact_length exact
  intro style r member
  unfold perform at length
  dsimp only [meant] at length
  rw [listed, if_pos style] at length
  by_contra hit
  rw [Bool.not_eq_false] at hit
  rw [List.length_eraseP_of_mem member hit] at length
  have some := List.length_pos_of_mem member
  omega

end calls

section runs
variable {cfg : Config} {now : State × List PortMapping} {call : Call}

theorem faithful_start (cfg : Config) : Faithful cfg (.start, []) where
  redirects := by simp [listing, State.start]
  shown := List.Perm.nil
  distinct := List.nodup_nil
  stampsDistinct := List.nodup_nil
  owned := by simp [State.start]
  apart := fun _ => rfl

theorem faithful_step (faithful : Faithful cfg now) (admitted : admits cfg now.1 call) :
    Faithful cfg (step cfg now call) := by
  obtain ⟨s, live⟩ := now
  cases call with
  | add => exact add_faithful faithful admitted
  | delete => exact delete_faithful faithful admitted
  | update => exact update_faithful faithful admitted
  | updateDescTimestamp => exact redescribe_faithful faithful admitted
  | addPinhole => exact addPinhole_faithful faithful admitted
  | deletePinhole => exact deletePinhole_faithful faithful admitted

theorem exact_admitted (faithful : Faithful cfg now) (exact : Exact cfg (step cfg now call)) :
    admits cfg now.1 call := by
  obtain ⟨s, live⟩ := now
  cases call with
  | add => exact add_admitted faithful exact
  | delete => exact delete_admitted faithful exact
  | update => exact update_admitted faithful exact
  | updateDescTimestamp => exact redescribe_admitted faithful exact
  | addPinhole => exact addPinhole_admitted faithful exact
  | deletePinhole => exact deletePinhole_admitted faithful exact

/-- For every history from the empty anchor: after every call, exactly the live mappings are
    listed, if and only if every call meets its condition. -/
theorem exact_iff (cfg : Config) (calls : List Call) :
    Always (step cfg) (Exact cfg) (.start, []) calls ↔
      Admitted (step cfg) (fun now call => admits cfg now.1 call) (.start, []) calls := by
  constructor
  · intro run
    apply admitted_of_always (Faithful cfg) (fun _ => True) _ (faithful_start cfg)
      (fun _ _ => trivial) run
    intro now call faithful _ _ exact
    have admitted := exact_admitted faithful exact
    exact ⟨admitted, faithful_step faithful admitted⟩
  · intro run
    have faithful := always_of_admitted (fun _ _ => faithful_step) (faithful_start cfg) run
    exact always_imp (fun _ => exact_of_listed) faithful

/-- In the new style a pinhole is listed as a mapping. -/
theorem pinhole_listed :
    ¬ ∀ (cfg : Config) (calls : List Call), Always (step cfg) (Exact cfg) (.start, []) calls := by
  intro always
  have run := always
    { newstyle := true, enableFilterRules := false, portTriggering := true
      useIfnameInRules := false, setDstAddr := none }
    [.addPinhole none none 0 "2001:db8::1".toList 80 6 "web".toList 0]
  have counted := (always_start run.2).2
  revert counted
  decide

end runs

end PfMappings
