import MiniUPnPd.Pf.Obsdrdr

/-!
What the calls do to the ruleset in which redirections are looked for, and to the list of
timestamps. In the new style every other rule is in that ruleset as well.
-/
namespace ObsdrdrSpec
open CText FirstMatch Inet Obsdrdr Pfpinhole PinholeLabel

variable {cfg : Config} {s : State} {eport : UInt16} {proto : Int}

def listing (cfg : Config) (s : State) : List Rule := s.rules (rulesetOf cfg .PF_RDR)

def redirectOf (cfg : Config) (eport : UInt16) (proto : Int) (s : State) : Option Rule :=
  (listing cfg s).find? (redirectMatches eport proto)

/-- The redirection of a mapping is the only rule that is listed with it. -/
def Bare (cfg : Config) (proto : Int) (extaddr : Option CString) : Prop :=
  cfg.newstyle → ¬ cfg.enableFilterRules ∧
    ¬ (cfg.portTriggering ∧ proto = IPPROTO_UDP ∧ extaddr.isSome)

/-- A pass rule for this internal address and port, or one that is taken for it, is there. -/
def PassFound (cfg : Config) (iport : UInt16) (proto : Int) (iaddr : InAddr) (s : State) : Prop :=
  cfg.enableFilterRules →
    ((s.rules (rulesetOf cfg .PF_PASS)).find? (filterMatches iport proto iaddr)).isSome

theorem rulesetOf_eq_iff (action : Action) :
    rulesetOf cfg action = rulesetOf cfg .PF_RDR ↔ cfg.newstyle ∨ action = .PF_RDR := by
  unfold rulesetOf
  by_cases style : cfg.newstyle
  · simp [style]
  · cases action with
    | PF_PASS => simp [style]
    | PF_MATCH => simp [style]
    | PF_NAT => simp [style]
    | PF_RDR => simp [style]

theorem listing_addTail (cfg : Config) (s : State) (r : Rule) : listing cfg (s.addTail cfg r) =
    if cfg.newstyle ∨ r.action = .PF_RDR then listing cfg s ++ [r] else listing cfg s := by
  unfold listing State.addTail
  dsimp only
  by_cases same : rulesetOf cfg r.action = rulesetOf cfg .PF_RDR
  · rw [if_pos ((rulesetOf_eq_iff r.action).mp same), same, Function.update_self]
  · have other : ¬ (cfg.newstyle ∨ r.action = .PF_RDR) := by
      intro either
      exact same ((rulesetOf_eq_iff r.action).mpr either)
    rw [if_neg other, Function.update_of_ne (Ne.symm same)]

theorem listing_removeRule (action : Action) (i : Nat) :
    listing cfg (s.removeRule (rulesetOf cfg action) i) =
      if cfg.newstyle ∨ action = .PF_RDR then (listing cfg s).eraseIdx i else listing cfg s := by
  unfold listing State.removeRule
  dsimp only
  by_cases same : rulesetOf cfg action = rulesetOf cfg .PF_RDR
  · rw [if_pos ((rulesetOf_eq_iff action).mp same), same, Function.update_self]
  · have other : ¬ (cfg.newstyle ∨ action = .PF_RDR) := by
      intro either
      exact same ((rulesetOf_eq_iff action).mpr either)
    rw [if_neg other, Function.update_of_ne (Ne.symm same)]

section additions
variable (cfg : Config) (ifname rhost : Option CString) (eport : UInt16) (target : CString)
  (iport : UInt16) (proto : Int) (desc : CString) (timestamp : Nat) (extaddr : Option CString)
  (s : State)

theorem redirectRule_listed : cfg.newstyle ∨
    (redirectRule cfg ifname rhost eport target iport proto desc).action = .PF_RDR := by
  by_cases style : cfg.newstyle
  · exact .inl style
  · exact .inr (by simp [redirectRule, style])

/-- `add_redirect_rule2` and `add_filter_rule2` together. -/
def addRules : Int × State :=
  match addRedirectRule2 cfg ifname rhost eport target iport proto desc timestamp extaddr s with
  | (r, s) => if r < 0 then (-1, s) else addFilterRule2 cfg ifname rhost target iport proto desc s

def stamped (eport : UInt16) (proto : Int) (timestamp : Nat)
    (timestampList : List TimestampEntry) : List TimestampEntry :=
  if timestamp > 0 then addTimestampEntry eport proto timestamp timestampList else timestampList

theorem addNatRule_listing : ∃ extra,
    listing cfg (addNatRule cfg ifname rhost eport target iport proto desc extaddr s).2 =
        listing cfg s ++ extra ∧
      (addNatRule cfg ifname rhost eport target iport proto desc extaddr s).2.timestampList =
        s.timestampList ∧
      (extra = [] ↔ ¬ (cfg.newstyle ∧ extaddr.isSome)) := by
  cases extaddr with
  | none => exact ⟨[], by simp [addNatRule]⟩
  | some ext =>
    unfold addNatRule
    dsimp only
    rw [listing_addTail]
    by_cases style : cfg.newstyle
    · exact ⟨_, if_pos (.inl style), rfl, by simp [style]⟩
    · exact ⟨[], by simp [style, natRule, State.addTail]⟩

theorem addFilterRule2_listing : ∃ extra,
    listing cfg (addFilterRule2 cfg ifname rhost target iport proto desc s).2 =
        listing cfg s ++ extra ∧
      (addFilterRule2 cfg ifname rhost target iport proto desc s).2.timestampList =
        s.timestampList ∧
      (addFilterRule2 cfg ifname rhost target iport proto desc s).1 = 0 ∧
      (extra = [] ↔ ¬ (cfg.newstyle ∧ cfg.enableFilterRules)) := by
  unfold addFilterRule2
  by_cases rules : cfg.enableFilterRules
  · rw [if_pos rules, listing_addTail]
    by_cases style : cfg.newstyle
    · exact ⟨_, if_pos (.inl style), rfl, rfl, by simp [style, rules]⟩
    · exact ⟨[], by simp [style, passRule, State.addTail]⟩
  · exact ⟨[], by simp [rules]⟩

theorem addRedirectRule2_listing : ∃ extra,
    listing cfg
        (addRedirectRule2 cfg ifname rhost eport target iport proto desc timestamp extaddr s).2 =
        listing cfg s ++ redirectRule cfg ifname rhost eport target iport proto desc :: extra ∧
      (addRedirectRule2 cfg ifname rhost eport target iport proto desc timestamp extaddr
        s).2.timestampList = stamped eport proto timestamp s.timestampList ∧
      (extra = [] ↔ ¬ (cfg.newstyle ∧ cfg.portTriggering ∧ proto = IPPROTO_UDP ∧
        extaddr.isSome)) := by
  have redirect : listing cfg
      (s.addTail cfg (redirectRule cfg ifname rhost eport target iport proto desc)) =
        listing cfg s ++ [redirectRule cfg ifname rhost eport target iport proto desc] := by
    rw [listing_addTail, if_pos (redirectRule_listed _ _ _ _ _ _ _ _)]
  have stamps : ∀ s' : State, (if timestamp > 0 then
      { s' with timestampList := addTimestampEntry eport proto timestamp s'.timestampList }
        else s') =
      { s' with timestampList := stamped eport proto timestamp s'.timestampList } := by
    intro s'
    unfold stamped
    split
    · rfl
    · rfl
  unfold addRedirectRule2
  dsimp only
  rw [stamps]
  by_cases triggers : cfg.portTriggering ∧ proto = IPPROTO_UDP
  · obtain ⟨extra, listed, stampsKept, none⟩ :=
      addNatRule_listing cfg ifname rhost eport target iport proto desc extaddr
        { s.addTail cfg (redirectRule cfg ifname rhost eport target iport proto desc) with
          timestampList := stamped eport proto timestamp s.timestampList }
    refine ⟨extra, ?_, ?_, ?_⟩
    · rw [if_pos triggers]
      refine listed.trans ?_
      have same : listing cfg
          { s.addTail cfg (redirectRule cfg ifname rhost eport target iport proto desc) with
            timestampList := stamped eport proto timestamp s.timestampList } =
          listing cfg s ++ [redirectRule cfg ifname rhost eport target iport proto desc] := redirect
      rw [same, List.append_assoc]
      rfl
    · rw [if_pos triggers]
      exact stampsKept
    · rw [none]
      simp [triggers]
  · refine ⟨[], ?_, ?_, ?_⟩
    · rw [if_neg triggers]
      exact redirect
    · rw [if_neg triggers]
      rfl
    · simp only [true_iff]
      intro all
      exact triggers ⟨all.2.1, all.2.2.1⟩

/-- What a new mapping adds to the rules that are listed. -/
theorem addRules_listing : ∃ extra,
    listing cfg (addRules cfg ifname rhost eport target iport proto desc timestamp extaddr s).2 =
        listing cfg s ++ redirectRule cfg ifname rhost eport target iport proto desc :: extra ∧
      (addRules cfg ifname rhost eport target iport proto desc timestamp extaddr
        s).2.timestampList = stamped eport proto timestamp s.timestampList ∧
      (addRules cfg ifname rhost eport target iport proto desc timestamp extaddr s).1 = 0 ∧
      (extra = [] ↔ Bare cfg proto extaddr) := by
  obtain ⟨nats, redirected, stamps, noNat⟩ :=
    addRedirectRule2_listing cfg ifname rhost eport target iport proto desc timestamp extaddr s
  obtain ⟨passes, filtered, kept, result, noPass⟩ :=
    addFilterRule2_listing cfg ifname rhost target iport proto desc
      (addRedirectRule2 cfg ifname rhost eport target iport proto desc timestamp extaddr s).2
  refine ⟨nats ++ passes, ?_, kept.trans stamps, result, ?_⟩
  · refine filtered.trans ?_
    rw [redirected, List.append_assoc, List.cons_append]
  · rw [List.append_eq_nil_iff, noNat, noPass]
    unfold Bare
    constructor
    · intro neither style
      exact ⟨fun rules => neither.2 ⟨style, rules⟩, fun triggers => neither.1 ⟨style, triggers⟩⟩
    · intro bare
      exact ⟨fun all => (bare all.1).2 all.2, fun both => (bare both.1).1 both.2⟩

end additions

section pinholes
variable (cfg : Config) (s : State) (ifname remHost : Option CString) (remPort : UInt16)
  (intClient : CString) (intPort : UInt16) (protocol : UInt8) (desc : CString) (timestamp : Nat)

/-- The pass rule of a pinhole is listed in the new style. -/
theorem addPinhole_listing : ∃ r,
    listing cfg (Obsdrdr.addPinhole cfg ifname remHost remPort intClient intPort protocol desc
        timestamp s).2 = (if cfg.newstyle then listing cfg s ++ [r] else listing cfg s) ∧
      (Obsdrdr.addPinhole cfg ifname remHost remPort intClient intPort protocol desc
        timestamp s).2.timestampList = s.timestampList := by
  obtain ⟨r, kind, added⟩ : ∃ r : Rule, r.action = .PF_PASS ∧
      (Obsdrdr.addPinhole cfg ifname remHost remPort intClient intPort protocol desc
        timestamp s).2 = { s.addTail cfg r with nextUid := succUid s.nextUid } := ⟨_, rfl, rfl⟩
  have rule := listing_addTail cfg s r
  rw [added]
  refine ⟨r, ?_, rfl⟩
  refine Eq.trans rule ?_
  by_cases style : cfg.newstyle
  · rw [if_pos (.inl style), if_pos style]
  · rw [if_neg style, if_neg]
    simp [style, kind]

/-- Among the rules of the anchor a pinhole is the rule that the pinhole model adds. -/
theorem addPinhole_pf (bounded : s.nextUid < 65535) :
    let pf : Pf := { rules := (s.rules (rulesetOf cfg .PF_PASS)).map Rule.toPfRule
                     nextUid := s.nextUid, bounded }
    let added := Obsdrdr.addPinhole cfg ifname remHost remPort intClient intPort protocol desc
      timestamp s
    Pfpinhole.addPinhole ifname remHost remPort intClient intPort protocol desc timestamp pf =
      (added.1, { rules := (added.2.rules (rulesetOf cfg .PF_PASS)).map Rule.toPfRule
                  nextUid := added.2.nextUid, bounded := succUid_bounded s.nextUid }) := by
  simp [Obsdrdr.addPinhole, Pfpinhole.addPinhole, State.addTail]

end pinholes

section removals

def deletedOf (cfg : Config) (r : Rule) (iaddr : InAddr) : Deleted :=
  { iport := proxyPort cfg r, iaddr, rhost := rhostText r }

/-- Without the redirection and its timestamp. -/
def removed (cfg : Config) (eport : UInt16) (proto : Int) (s : State) : State :=
  { s with
    rules := Function.update s.rules (rulesetOf cfg .PF_RDR)
      ((listing cfg s).eraseP (redirectMatches eport proto))
    timestampList := removeTimestampEntry eport proto s.timestampList }

@[simp] theorem listing_removed : listing cfg (removed cfg eport proto s) =
    (listing cfg s).eraseP (redirectMatches eport proto) := by
  exact Function.update_self _ _ _

theorem privDelete_missing (checkDesc : Option CString)
    (missing : redirectOf cfg eport proto s = none) :
    privDeleteRedirectRuleCheckDesc cfg eport proto checkDesc s = (none, s) := by
  have same := findFirst_entry (redirectMatches eport proto) (listing cfg s)
  unfold redirectOf at missing
  rw [missing, Option.map_eq_none_iff] at same
  unfold listing at same
  unfold privDeleteRedirectRuleCheckDesc
  rw [same]

theorem privDelete_found {r : Rule} {iaddr : InAddr} (checkDesc : Option CString)
    (found : redirectOf cfg eport proto s = some r) (target : internalAddr cfg r = some iaddr) :
    privDeleteRedirectRuleCheckDesc cfg eport proto checkDesc s =
      if checkDesc = some r.label then (some (1, deletedOf cfg r iaddr), s)
      else (some (0, deletedOf cfg r iaddr), removed cfg eport proto s) := by
  have same := findFirst_entry (redirectMatches eport proto) (listing cfg s)
  unfold redirectOf at found
  rw [found] at same
  obtain ⟨⟨i, q⟩, first, entry⟩ := Option.map_eq_some_iff.mp same
  dsimp only at entry
  subst entry
  have erased := eraseIdx_of_findFirst first
  unfold listing at first
  unfold privDeleteRedirectRuleCheckDesc
  rw [first]
  dsimp only
  rw [target]
  dsimp only
  split
  · rfl
  · unfold State.removeRule removed
    dsimp only
    unfold listing at erased ⊢
    rw [erased]
    rfl

theorem privDeleteFilterRule_refused {iport : UInt16} {iaddr : InAddr} :
    (privDeleteFilterRule cfg iport proto iaddr s).1 < 0 ↔ ¬ PassFound cfg iport proto iaddr s := by
  unfold privDeleteFilterRule PassFound
  rw [← findFirst_isSome_iff]
  by_cases rules : cfg.enableFilterRules
  · cases first : findFirst (filterMatches iport proto iaddr)
        (s.rules (rulesetOf cfg .PF_PASS)) with
    | none => simp [rules]
    | some entry => simp [rules]
  · simp [rules]

/-- Unless pass rules are listed too, removing one changes nothing that is listed. -/
theorem privDeleteFilterRule_listing (iport : UInt16) (proto : Int) (iaddr : InAddr) (s : State)
    (apart : ¬ (cfg.newstyle ∧ cfg.enableFilterRules)) :
    listing cfg (privDeleteFilterRule cfg iport proto iaddr s).2 = listing cfg s ∧
      (privDeleteFilterRule cfg iport proto iaddr s).2.timestampList = s.timestampList := by
  unfold privDeleteFilterRule
  by_cases rules : cfg.enableFilterRules
  · have old : ¬ (cfg.newstyle ∨ Action.PF_PASS = Action.PF_RDR) := by
      intro either
      rcases either with style | other
      · exact apart ⟨style, rules⟩
      · cases other
    rw [if_pos rules]
    cases first : findFirst (filterMatches iport proto iaddr)
        (s.rules (rulesetOf cfg .PF_PASS)) with
    | none => exact ⟨rfl, rfl⟩
    | some entry =>
      refine ⟨?_, rfl⟩
      dsimp only
      rw [listing_removeRule, if_neg old]
  · rw [if_neg rules]
    exact ⟨rfl, rfl⟩

/-- A search in the ruleset for rules of this kind, and the removal of what it finds. -/
theorem listing_removeFirst {action : Action} {p : Rule → Bool} (kind : action ≠ .PF_RDR) :
    listing cfg
        (match findFirst p (s.rules (rulesetOf cfg action)) with
          | none => s
          | some (i, _) => s.removeRule (rulesetOf cfg action) i) =
      if cfg.newstyle then (listing cfg s).eraseP p else listing cfg s := by
  by_cases style : cfg.newstyle
  · have same : rulesetOf cfg action = rulesetOf cfg .PF_RDR :=
      (rulesetOf_eq_iff action).mpr (.inl style)
    rw [if_pos style]
    cases first : findFirst p (s.rules (rulesetOf cfg action)) with
    | none =>
      rw [same] at first
      exact (eraseP_of_find?_none (find?_of_findFirst_none first)).symm
    | some entry =>
      dsimp only
      rw [listing_removeRule, if_pos (.inl style)]
      rw [same] at first
      exact eraseIdx_of_findFirst first
  · have other : ¬ (cfg.newstyle ∨ action = .PF_RDR) := by
      intro either
      exact either.elim style kind
    rw [if_neg style]
    cases first : findFirst p (s.rules (rulesetOf cfg action)) with
    | none => rfl
    | some entry =>
      dsimp only
      rw [listing_removeRule, if_neg other]

theorem deleteNatRule_listing (cfg : Config) (iport : UInt16) (proto : Int) (iaddr : InAddr)
    (s : State) :
    listing cfg (deleteNatRule cfg iport proto iaddr s).2 =
        (if cfg.newstyle then (listing cfg s).eraseP (natMatches iport proto iaddr)
          else listing cfg s) ∧
      (deleteNatRule cfg iport proto iaddr s).2.timestampList = s.timestampList := by
  have kind : Action.PF_NAT ≠ .PF_RDR := by decide
  rw [← listing_removeFirst kind]
  unfold deleteNatRule
  cases findFirst (natMatches iport proto iaddr) (s.rules (rulesetOf cfg .PF_NAT)) with
  | none => exact ⟨rfl, rfl⟩
  | some entry => exact ⟨rfl, rfl⟩

theorem deletePinhole_listing (cfg : Config) (s : State) (uid : UInt16) :
    listing cfg (deletePinhole cfg uid s).2 =
        (if cfg.newstyle then (listing cfg s).eraseP (labelledPinhole uid)
          else listing cfg s) ∧
      (deletePinhole cfg uid s).2.timestampList = s.timestampList := by
  have kind : Action.PF_PASS ≠ .PF_RDR := by decide
  rw [← listing_removeFirst kind]
  unfold deletePinhole
  cases findFirst (labelledPinhole uid) (s.rules (rulesetOf cfg .PF_PASS)) with
  | none => exact ⟨rfl, rfl⟩
  | some entry => exact ⟨rfl, rfl⟩

end removals

section replacements
variable {ifname extaddr : Option CString} {deleted : Deleted} {iport : UInt16} {desc : CString}
  {timestamp : Nat}

/-- An update that finds no pass rule stops, with the redirection gone. -/
theorem replaceRules_stopped (missing : ¬ PassFound cfg deleted.iport proto deleted.iaddr s) :
    (replaceRules cfg ifname eport proto deleted iport desc timestamp extaddr s).2 =
      (privDeleteFilterRule cfg deleted.iport proto deleted.iaddr s).2 := by
  unfold replaceRules
  dsimp only
  rw [if_pos (privDeleteFilterRule_refused.mpr missing)]

theorem replaceRules_added (found : PassFound cfg deleted.iport proto deleted.iaddr s) :
    (replaceRules cfg ifname eport proto deleted iport desc timestamp extaddr s).2 =
      (addRules cfg ifname (some deleted.rhost) eport (inetNtoa deleted.iaddr) iport proto desc
        timestamp extaddr (privDeleteFilterRule cfg deleted.iport proto deleted.iaddr s).2).2 := by
  have passed : ¬ (privDeleteFilterRule cfg deleted.iport proto deleted.iaddr s).1 < 0 := by
    rw [privDeleteFilterRule_refused]
    exact not_not_intro found
  unfold replaceRules addRules
  dsimp only
  rw [if_neg passed]
  split
  · rfl
  · split
    · rfl
    · rfl

end replacements

end ObsdrdrSpec
