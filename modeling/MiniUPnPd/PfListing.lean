import MiniUPnPd.Pf.ObsdrdrSpec
import MiniUPnPd.RuleKeys

/-!
The port mappings that the anchor of the pf backend lists. Every rule of one ruleset is read as a
redirection. A mapping is known by its external port and its protocol, and so is its timestamp,
which is kept in a list of its own.
-/
namespace PfListing
open CText FirstMatch Inet Obsdrdr ObsdrdrSpec
open RuleKeys (isByte toInt_of_byte)

structure PortMapping where
  eport : UInt16
  proto : Int
  iaddr : CString
  iport : UInt16
  expiry : Nat
  deriving DecidableEq

def PortMapping.key (m : PortMapping) : UInt16 × Int := (m.eport, m.proto)

def without (key : UInt16 × Int) (live : List PortMapping) : List PortMapping :=
  live.filter fun m => m.key ≠ key

def changed (key : UInt16 × Int) (f : PortMapping → PortMapping) (live : List PortMapping) :
    List PortMapping := live.map fun m => if m.key = key then f m else m

/-- What the calls with 0, 1 and so on give up to the first failure. -/
def Enumerates {α : Type} (byIndex : Nat → Option α) (l : List α) : Prop :=
  ∀ i, i ≤ l.length → byIndex i = l[i]?

def mappingOf (info : RedirectInfo) : PortMapping :=
  { eport := info.eport, proto := info.proto, iaddr := info.iaddr, iport := info.iport
    expiry := info.timestamp }

/-- Each live mapping is enumerated exactly once and nothing else is, and the count is right. -/
def Exact (cfg : Config) (now : State × List PortMapping) : Prop :=
  (∃ infos, Enumerates (fun i => getRedirectRuleByIndex cfg i now.1) infos ∧
    (infos.map mappingOf).Perm now.2) ∧
      getRedirectRuleCount cfg now.1 = now.2.length

def stampKey (e : TimestampEntry) : UInt16 × Int := (e.eport, e.protocol.toInt)

def ruleKey (r : Rule) : UInt16 × Int := (r.dst.port, r.proto.toNat)

def ruleMapping (cfg : Config) (stamps : List TimestampEntry) (r : Rule) : PortMapping :=
  { eport := r.dst.port
    proto := r.proto.toNat
    iaddr := inetNtoa ((internalAddr cfg r).getD 0)
    iport := proxyPort cfg r
    expiry := getTimestamp r.dst.port r.proto.toNat stamps }

/-- The rules are the redirections of the live mappings, and the timestamps are theirs. -/
structure Listed (cfg : Config) (rules : List Rule) (stamps : List TimestampEntry)
    (live : List PortMapping) : Prop where
  redirects : ∀ r ∈ rules, r.dstPort1 = r.dst.port ∧ (internalAddr cfg r).isSome
  shown : (rules.map (ruleMapping cfg stamps)).Perm live
  distinct : (live.map PortMapping.key).Nodup
  stampsDistinct : (stamps.map stampKey).Nodup
  owned : ∀ e ∈ stamps, stampKey e ∈ live.map PortMapping.key
  apart : cfg.newstyle ∧ cfg.enableFilterRules → rules = []

section listed
variable {cfg : Config} {rules : List Rule} {stamps : List TimestampEntry}
  {live : List PortMapping} {eport : UInt16} {proto : Int} {r : Rule}

theorem ruleMapping_key (stamps : List TimestampEntry) (r : Rule) :
    (ruleMapping cfg stamps r).key = ruleKey r := rfl

theorem proto_isByte (r : Rule) : isByte r.proto.toNat := by
  have small := r.proto.toNat_lt
  constructor
  · omega
  · omega

theorem stampMatches_iff (byte : isByte proto) (e : TimestampEntry) :
    stampMatches eport proto e = true ↔ stampKey e = (eport, proto) := by
  simp only [stampMatches, stampKey, Prod.mk.injEq, Bool.decide_and, Bool.and_eq_true,
    decide_eq_true_eq]
  constructor
  · intro both
    refine ⟨both.1, ?_⟩
    rw [both.2, toInt_of_byte byte]
  · intro both
    refine ⟨both.1, ?_⟩
    rw [← both.2, Int16.ofInt_toInt]

/-- The time of a key depends on the entries of this key alone. -/
theorem getTimestamp_congr {other : List TimestampEntry} (byte : isByte proto)
    (same : stamps.find? (fun e => stampKey e = (eport, proto)) =
      other.find? (fun e => stampKey e = (eport, proto))) :
    getTimestamp eport proto stamps = getTimestamp eport proto other := by
  have pred : stampMatches eport proto = fun e => decide (stampKey e = (eport, proto)) := by
    funext e
    rw [Bool.eq_iff_iff, stampMatches_iff byte, decide_eq_true_eq]
  unfold getTimestamp
  rw [pred, same]

/-- Two lists of timestamps have the same for every key but this one. -/
def SameElsewhere (key : UInt16 × Int) (stamps other : List TimestampEntry) : Prop :=
  ∀ k, k ≠ key →
    stamps.find? (fun e => stampKey e = k) = other.find? (fun e => stampKey e = k)

theorem sameElsewhere_remove (byte : isByte proto) (stamps : List TimestampEntry) :
    SameElsewhere (eport, proto) (removeTimestampEntry eport proto stamps) stamps := by
  intro k other
  apply find?_eraseP_other
  intro e here
  rw [decide_eq_true_eq] at here
  by_contra hit
  rw [Bool.not_eq_false, stampMatches_iff byte, here] at hit
  exact other hit

theorem sameElsewhere_add (byte : isByte proto) (timestamp : Nat) (stamps : List TimestampEntry) :
    SameElsewhere (eport, proto) (addTimestampEntry eport proto timestamp stamps) stamps := by
  intro k other
  have key : stampKey { timestamp, eport, protocol := Int16.ofInt proto } = (eport, proto) := by
    unfold stampKey
    rw [toInt_of_byte byte]
  unfold addTimestampEntry
  rw [List.find?_cons_of_neg]
  rw [key, decide_eq_true_eq]
  exact Ne.symm other

theorem ruleMapping_other {other : List TimestampEntry}
    (same : SameElsewhere (eport, proto) stamps other) (elsewhere : ruleKey r ≠ (eport, proto)) :
    ruleMapping cfg stamps r = ruleMapping cfg other r := by
  have time : getTimestamp r.dst.port r.proto.toNat stamps =
      getTimestamp r.dst.port r.proto.toNat other :=
    getTimestamp_congr (proto_isByte r) (same (ruleKey r) elsewhere)
  unfold ruleMapping
  rw [time]

theorem redirectMatches_iff (redirect : r.dstPort1 = r.dst.port) :
    redirectMatches eport proto r = true ↔ ruleKey r = (eport, proto) := by
  simp only [redirectMatches, ruleKey, redirect, Prod.mk.injEq, Bool.decide_and, Bool.and_eq_true,
    decide_eq_true_eq]
  constructor
  · intro all
    exact ⟨all.1.symm, all.2.2⟩
  · intro both
    exact ⟨both.1.symm, both.1.symm, both.2⟩

theorem listed_keys (listed : Listed cfg rules stamps live) :
    (rules.map ruleKey).Perm (live.map PortMapping.key) := by
  have keys := listed.shown.map PortMapping.key
  rw [List.map_map] at keys
  exact keys

theorem listed_perm (listed : Listed cfg rules stamps live) {other : List PortMapping}
    (same : live.Perm other) : Listed cfg rules stamps other where
  redirects := listed.redirects
  shown := listed.shown.trans same
  distinct := (same.map _).nodup listed.distinct
  stampsDistinct := listed.stampsDistinct
  owned := fun e member => (same.map _).mem_iff.mp (listed.owned e member)
  apart := listed.apart

theorem listed_missing (listed : Listed cfg rules stamps live) :
    rules.find? (redirectMatches eport proto) = none ↔
      (eport, proto) ∉ live.map PortMapping.key := by
  rw [List.find?_eq_none, ← (listed_keys listed).mem_iff, List.mem_map]
  constructor
  · intro missing present
    obtain ⟨r, member, key⟩ := present
    exact missing r member ((redirectMatches_iff (listed.redirects r member).1).mpr key)
  · intro missing r member hit
    exact missing ⟨r, member, (redirectMatches_iff (listed.redirects r member).1).mp hit⟩

theorem listed_found (listed : Listed cfg rules stamps live)
    (found : rules.find? (redirectMatches eport proto) = some r) :
    r ∈ rules ∧ ruleKey r = (eport, proto) ∧ isByte proto := by
  have member := List.mem_of_find?_eq_some found
  have hit := List.find?_some found
  have key := (redirectMatches_iff (listed.redirects r member).1).mp hit
  have value : (r.proto.toNat : Int) = proto := congrArg Prod.snd key
  refine ⟨member, key, ?_⟩
  rw [← value]
  exact proto_isByte r

theorem removeTimestampEntry_filter (eport : UInt16) (byte : isByte proto)
    (distinct : (stamps.map stampKey).Nodup) :
    removeTimestampEntry eport proto stamps =
      stamps.filter fun e => stampKey e ≠ (eport, proto) := by
  unfold removeTimestampEntry
  rw [← eraseP_key_filter distinct]
  apply eraseP_congr
  intro e _
  rw [Bool.eq_iff_iff, stampMatches_iff byte, decide_eq_true_eq]

theorem newStamp_key (eport : UInt16) (byte : isByte proto) (timestamp : Nat) :
    stampKey { timestamp, eport, protocol := Int16.ofInt proto } = (eport, proto) := by
  unfold stampKey
  rw [toInt_of_byte byte]

/-- Without its redirection, its timestamp and itself, the other mappings are as before. -/
theorem listed_remove (listed : Listed cfg rules stamps live)
    (found : rules.find? (redirectMatches eport proto) = some r) :
    Listed cfg (rules.eraseP (redirectMatches eport proto))
      (removeTimestampEntry eport proto stamps) (without (eport, proto) live) := by
  obtain ⟨-, -, byte⟩ := listed_found listed found
  have erased : rules.eraseP (redirectMatches eport proto) =
      rules.filter fun q => ruleKey q ≠ (eport, proto) := by
    rw [← eraseP_key_filter ((listed_keys listed).nodup_iff.mpr listed.distinct)]
    apply eraseP_congr
    intro q inside
    rw [Bool.eq_iff_iff, redirectMatches_iff (listed.redirects q inside).1, decide_eq_true_eq]
  have stampsErased := removeTimestampEntry_filter eport byte listed.stampsDistinct
  refine ⟨?_, ?_, ?_, ?_, ?_, ?_⟩
  · intro q inside
    exact listed.redirects q (List.mem_of_mem_eraseP inside)
  · have kept := listed.shown.filter fun m => m.key ≠ (eport, proto)
    rw [List.filter_map] at kept
    have same : (rules.filter fun q => ruleKey q ≠ (eport, proto)).map
        (ruleMapping cfg (removeTimestampEntry eport proto stamps)) =
          (rules.filter fun q => ruleKey q ≠ (eport, proto)).map (ruleMapping cfg stamps) := by
      apply List.map_congr_left
      intro q inside
      have other := (List.mem_filter.mp inside).2
      rw [decide_eq_true_eq] at other
      exact ruleMapping_other (sameElsewhere_remove byte stamps) other
    rw [erased, same]
    exact kept
  · exact (List.filter_sublist.map _).nodup listed.distinct
  · rw [stampsErased]
    exact (List.filter_sublist.map _).nodup listed.stampsDistinct
  · intro e inside
    rw [stampsErased, List.mem_filter, decide_eq_true_eq] at inside
    obtain ⟨m, live, same⟩ := List.mem_map.mp (listed.owned e inside.1)
    refine List.mem_map.mpr ⟨m, List.mem_filter.mpr ⟨live, ?_⟩, same⟩
    rw [same, decide_eq_true_eq]
    exact inside.2
  · intro both
    rw [listed.apart both]
    rfl

/-- A redirection at the end, with its timestamp where it has one. -/
theorem listed_add (listed : Listed cfg rules stamps live) (byte : isByte proto)
    (free : (eport, proto) ∉ live.map PortMapping.key) {iaddr : InAddr} {iport : UInt16}
    (timestamp : Nat) (key : ruleKey r = (eport, proto)) (redirect : r.dstPort1 = r.dst.port)
    (target : internalAddr cfg r = some iaddr) (port : proxyPort cfg r = iport)
    (apart : ¬ (cfg.newstyle ∧ cfg.enableFilterRules)) :
    Listed cfg (rules ++ [r]) (stamped eport proto timestamp stamps)
      (live ++ [{ eport, proto, iaddr := inetNtoa iaddr, iport, expiry := timestamp }]) := by
  have elsewhere : SameElsewhere (eport, proto) (stamped eport proto timestamp stamps) stamps := by
    unfold stamped
    split
    · exact sameElsewhere_add byte timestamp stamps
    · intro k _
      rfl
  have new : ∀ e ∈ stamps, stampKey e ≠ (eport, proto) := by
    intro e inside same
    apply free
    rw [← same]
    exact listed.owned e inside
  have time : getTimestamp eport proto (stamped eport proto timestamp stamps) = timestamp := by
    unfold stamped getTimestamp
    by_cases positive : timestamp > 0
    · rw [if_pos positive, addTimestampEntry, List.find?_cons_of_pos (by simp [stampMatches])]
    · have missing : stamps.find? (stampMatches eport proto) = none := by
        rw [List.find?_eq_none]
        intro e inside hit
        exact new e inside ((stampMatches_iff byte e).mp hit)
      rw [if_neg positive, missing]
      dsimp only
      omega
  have own : ruleMapping cfg (stamped eport proto timestamp stamps) r =
      { eport, proto, iaddr := inetNtoa iaddr, iport, expiry := timestamp } := by
    obtain ⟨ports, protos⟩ := Prod.mk.inj key
    unfold ruleMapping
    rw [ports, protos, time, target, port]
    rfl
  have others : rules.map (ruleMapping cfg (stamped eport proto timestamp stamps)) =
      rules.map (ruleMapping cfg stamps) := by
    apply List.map_congr_left
    intro q inside
    apply ruleMapping_other elsewhere
    intro same
    apply free
    rw [← same, ← (listed_keys listed).mem_iff]
    exact List.mem_map_of_mem inside
  have stampOwn := newStamp_key eport byte timestamp
  refine ⟨?_, ?_, ?_, ?_, ?_, ?_⟩
  · intro q inside
    rcases List.mem_append.mp inside with old | last
    · exact listed.redirects q old
    · rw [List.mem_singleton] at last
      subst last
      exact ⟨redirect, by simp [target]⟩
  · rw [List.map_append, others, List.map_singleton, own]
    exact listed.shown.append_right _
  · rw [List.map_append, List.map_singleton]
    exact List.nodup_append'.mpr
      ⟨listed.distinct, List.nodup_singleton _, List.disjoint_singleton.mpr free⟩
  · unfold stamped
    split
    · rw [addTimestampEntry, List.map_cons, stampOwn, List.nodup_cons]
      refine ⟨?_, listed.stampsDistinct⟩
      intro again
      obtain ⟨e, inside, same⟩ := List.mem_map.mp again
      exact new e inside same
    · exact listed.stampsDistinct
  · intro e inside
    rw [List.map_append, List.mem_append]
    unfold stamped at inside
    split at inside
    · rcases List.mem_cons.mp inside with first | old
      · subst first
        rw [stampOwn]
        exact .inr (List.mem_singleton.mpr rfl)
      · exact .inl (listed.owned e old)
    · exact .inl (listed.owned e inside)
  · intro both
    exact absurd both apart

/-- Another timestamp for a mapping that stays where it is. -/
theorem listed_restamp (listed : Listed cfg rules stamps live)
    (found : rules.find? (redirectMatches eport proto) = some r) (timestamp : Nat) :
    Listed cfg rules
      (addTimestampEntry eport proto timestamp (removeTimestampEntry eport proto stamps))
      (changed (eport, proto) (fun m => { m with expiry := timestamp }) live) := by
  obtain ⟨member, key, byte⟩ := listed_found listed found
  have stampOwn := newStamp_key eport byte timestamp
  have keys : (changed (eport, proto) (fun m => { m with expiry := timestamp }) live).map
      PortMapping.key = live.map PortMapping.key := by
    unfold changed
    rw [List.map_map]
    apply List.map_congr_left
    intro m _
    dsimp only [Function.comp]
    split
    · rfl
    · rfl
  have elsewhere : SameElsewhere (eport, proto)
      (addTimestampEntry eport proto timestamp (removeTimestampEntry eport proto stamps))
        stamps := by
    intro k other
    rw [sameElsewhere_add byte timestamp _ k other]
    exact sameElsewhere_remove byte stamps k other
  have time : getTimestamp eport proto
      (addTimestampEntry eport proto timestamp (removeTimestampEntry eport proto stamps)) =
        timestamp := by
    unfold getTimestamp
    rw [addTimestampEntry, List.find?_cons_of_pos (by simp [stampMatches])]
  refine ⟨listed.redirects, ?_, ?_, ?_, ?_, listed.apart⟩
  · have each : rules.map (ruleMapping cfg
        (addTimestampEntry eport proto timestamp (removeTimestampEntry eport proto stamps))) =
          changed (eport, proto) (fun m => { m with expiry := timestamp })
            (rules.map (ruleMapping cfg stamps)) := by
      unfold changed
      rw [List.map_map]
      apply List.map_congr_left
      intro q inside
      dsimp only [Function.comp]
      rw [ruleMapping_key]
      by_cases same : ruleKey q = (eport, proto)
      · obtain ⟨ports, protos⟩ := Prod.mk.inj same
        rw [if_pos same]
        unfold ruleMapping
        rw [ports, protos, time]
      · rw [if_neg same]
        exact ruleMapping_other elsewhere same
    rw [each]
    exact listed.shown.map _
  · rw [keys]
    exact listed.distinct
  · rw [addTimestampEntry, List.map_cons, stampOwn, List.nodup_cons,
      removeTimestampEntry_filter eport byte listed.stampsDistinct]
    refine ⟨?_, (List.filter_sublist.map _).nodup listed.stampsDistinct⟩
    intro again
    obtain ⟨e, inside, same⟩ := List.mem_map.mp again
    have other := (List.mem_filter.mp inside).2
    rw [decide_eq_true_eq] at other
    exact other same
  · intro e inside
    rw [keys]
    rcases List.mem_cons.mp inside with first | old
    · subst first
      rw [stampOwn, ← key, ← (listed_keys listed).mem_iff]
      exact List.mem_map_of_mem member
    · exact listed.owned e (List.mem_of_mem_eraseP old)

end listed

section enumeration
variable {cfg : Config} {s : State} {live : List PortMapping}

def infoFor (cfg : Config) (stamps : List TimestampEntry) (r : Rule) : RedirectInfo :=
  { ifname := r.ifname
    eport := r.dst.port
    iaddr := inetNtoa ((internalAddr cfg r).getD 0)
    iport := proxyPort cfg r
    proto := r.proto.toNat
    desc := r.label
    rhost := rhostText r
    timestamp := getTimestamp r.dst.port r.proto.toNat stamps }

theorem redirectInfo_some {stamps : List TimestampEntry} {r : Rule}
    (target : (internalAddr cfg r).isSome) :
    redirectInfo cfg stamps r = some (infoFor cfg stamps r) := by
  obtain ⟨iaddr, some⟩ := Option.isSome_iff_exists.mp target
  unfold redirectInfo infoFor
  rw [some]
  rfl

theorem exact_of_listed (listed : Listed cfg (listing cfg s) s.timestampList live) :
    Exact cfg (s, live) := by
  have length : (listing cfg s).length = live.length := by
    rw [← listed.shown.length_eq, List.length_map]
  refine ⟨⟨(listing cfg s).map (infoFor cfg s.timestampList), ?_, ?_⟩, ?_⟩
  · intro i _
    have index : ¬ (i : Int) < 0 := by omega
    dsimp only
    unfold getRedirectRuleByIndex
    rw [if_neg index, Int.toNat_natCast, List.getElem?_map]
    change (listing cfg s)[i]? >>= redirectInfo cfg s.timestampList = _
    cases here : (listing cfg s)[i]? with
    | none => rfl
    | some r =>
      exact redirectInfo_some (listed.redirects r (List.mem_of_getElem? here)).2
  · rw [List.map_map]
    exact listed.shown
  · exact congrArg Int.ofNat length

theorem exact_length (exact : Exact cfg (s, live)) : (listing cfg s).length = live.length :=
  Int.ofNat.inj exact.2

/-- A live mapping that is enumerated is read of a rule. -/
theorem exact_member (exact : Exact cfg (s, live)) {m : PortMapping} (member : m ∈ live) :
    isByte m.proto ∧ (inetPton m.iaddr).isSome := by
  obtain ⟨⟨infos, enumerates, same⟩, -⟩ := exact
  obtain ⟨info, inside, mapping⟩ := List.mem_map.mp (same.mem_iff.mpr member)
  obtain ⟨i, below, here⟩ := List.mem_iff_getElem.mp inside
  have read := enumerates i (Nat.le_of_lt below)
  rw [List.getElem?_eq_getElem below, here] at read
  unfold getRedirectRuleByIndex at read
  dsimp only at read
  rw [if_neg (by omega)] at read
  obtain ⟨r, -, shown⟩ := Option.bind_eq_some_iff.mp read
  obtain ⟨iaddr, -, built⟩ := Option.bind_eq_some_iff.mp shown
  obtain rfl := Option.some.inj built
  subst mapping
  refine ⟨proto_isByte r, ?_⟩
  have written := (inetPton_iff (inetNtoa iaddr) iaddr).mpr rfl
  exact Option.isSome_iff_exists.mpr ⟨iaddr, written⟩

end enumeration

end PfListing
