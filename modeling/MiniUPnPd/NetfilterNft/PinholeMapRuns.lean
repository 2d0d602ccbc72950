import MiniUPnPd.Lib.FirstMatch
import MiniUPnPd.NetfilterNft.PinholeMap

/-!
The pinhole functions refine the finite map, in every run in which no IPv4 rule is taken for a
pinhole, and only pinholes that are there and that are read back as they are get looked up or
updated.
-/
namespace PinholeMapRuns
open CText FirstMatch Inet Nftnlrdr NftnlrdrMisc NftnlrdrMiscSpec Nftpinhole NftpinholeSpec
  PinholeLabel PinholeMap PinholeRequests Runs
open PcpServer (In6Addr)

section search
variable {uid : UInt16}

theorem holds_reads {rule : NftnlRule} {e : Entry} (holds : Holds rule (.pinhole uid e)) :
    ReadsPinhole e.proto e.remHost e.intClient e.intPort rule.userdata
      (tableCb .RULE_FILTER rule) := by
  obtain ⟨_, ifIdx, exprs⟩ := holds
  have reads := readsPinhole rule.handle rule.userdata ifIdx e.proto e.remHost e.intClient
    e.intPort e.remPort
  rw [← exprs] at reads
  exact reads

theorem holds_scanLabel {rule : NftnlRule} {e : Entry} (holds : Holds rule (.pinhole uid e)) :
    scanLabel rule.userdata = some ((uid.toNat : Int), e.expiry.toNat) := by
  obtain ⟨⟨desc, label⟩, _⟩ := holds
  rw [label]
  exact writtenLabel_read uid.toNat_lt e.expiry.toNat_lt desc

theorem holds_shown {rule : NftnlRule} {e : Entry} (holds : Holds rule (.pinhole uid e)) :
    shown rule = true :=
  decide_eq_true ⟨(holds_reads holds).type, scanLabel_nonempty (holds_scanLabel holds)⟩

/-- The rule of a pinhole, which is the only one for it. -/
structure Placed (uid : UInt16) (rules : List NftnlRule) (items : List Item) (rule : NftnlRule)
    (e : Entry) : Prop where
  member : rule ∈ rules
  holds : Holds rule (.pinhole uid e)
  found : lookup uid items = some e
  removed : (rules.map NftnlRule.handle).Nodup → (uids items).Nodup →
    List.Forall₂ Holds (rules.filter fun other => other.handle ≠ rule.handle) (without uid items)

theorem without_absent {items : List Item} (absent : uid ∉ uids items) :
    without uid items = items := by
  apply List.filter_eq_self.mpr
  intro item member
  cases item with
  | other desc exprs => rfl
  | pinhole uid' e =>
    have here : uid' ∈ uids items := List.mem_filterMap.mpr ⟨_, member, rfl⟩
    have other : uid' ≠ uid := by
      rintro rfl
      exact absent here
    simp [Item.isPinhole, Item.uid?, other]

theorem placed_first {rule : NftnlRule} {e : Entry} {rules : List NftnlRule} {items : List Item}
    (first : Holds rule (.pinhole uid e)) (rest : List.Forall₂ Holds rules items) :
    Placed uid (rule :: rules) (.pinhole uid e :: items) rule e where
  member := List.mem_cons_self
  holds := first
  found := by rw [lookup_pinhole, if_pos rfl]
  removed := by
    intro distinct once
    rw [uids_pinhole, List.nodup_cons] at once
    rw [List.map_cons, List.nodup_cons] at distinct
    have others : ∀ other ∈ rules, decide (other.handle ≠ rule.handle) = true := by
      intro other member
      refine decide_eq_true ?_
      intro same
      exact distinct.1 (List.mem_map.mpr ⟨other, member, same⟩)
    have here : (Item.pinhole uid e).isPinhole uid = true := (isPinhole_iff uid e).mpr rfl
    rw [List.filter_cons_of_neg (by simp), List.filter_eq_self.mpr others, without_gone here,
      without_absent once.1]
    exact rest

theorem placed_later {rule rule' : NftnlRule} {item : Item} {e : Entry} {rules : List NftnlRule}
    {items : List Item} (first : Holds rule' item) (other : ¬ item.isPinhole uid = true)
    (placed : Placed uid rules items rule e) :
    Placed uid (rule' :: rules) (item :: items) rule e where
  member := List.mem_cons_of_mem _ placed.member
  holds := placed.holds
  found := (lookup_skips other).trans placed.found
  removed := by
    intro distinct once
    rw [List.map_cons, List.nodup_cons] at distinct
    have kept : rule'.handle ≠ rule.handle := by
      intro same
      exact distinct.1 (List.mem_map.mpr ⟨rule, placed.member, same.symm⟩)
    rw [List.filter_cons_of_pos (by simp [kept]), without_stays other]
    refine .cons first (placed.removed distinct.2 ?_)
    cases item with
    | other desc exprs => exact once
    | pinhole uid' e' =>
      rw [uids_pinhole, List.nodup_cons] at once
      exact once.2

/-- A rule before the pinhole is passed over, whatever the buffer holds. -/
theorem search_skips {also : CString → Bool} {rule : NftnlRule} {item : Item} {items : List Item}
    (holds : Holds rule item) (other : ¬ item.isPinhole uid = true)
    (right : Unmistaken uid also (item :: items)) (visible : shown rule = true)
    (buffer : List Char) :
    ¬ (untilNul (copyLabel rule.userdata buffer) = labelStart uid ∧ also rule.userdata) := by
  intro hit
  cases item with
  | other desc exprs =>
    have listed : Item.other desc exprs ∈ (Item.other desc exprs :: items).takeWhile
        (fun item => !item.isPinhole uid) := by
      rw [List.takeWhile_cons_of_pos (by simp [other])]
      exact List.mem_cons_self
    have nonempty : rule.userdata ≠ [] := by
      unfold shown at visible
      exact (of_decide_eq_true visible).2
    have taken := takenFor_of_copyLabel nonempty hit.1
    rw [holds.1] at taken hit
    exact right _ listed ⟨taken, hit.2⟩
  | pinhole uid' e =>
    obtain ⟨⟨d, label⟩, _⟩ := holds
    rw [label, copyLabel_written] at hit
    exact other ((isPinhole_iff uid' e).mpr (labelStart_injective hit.1))

/-- A search that is not mistaken finds the rule of the pinhole, if there is one. -/
theorem searchLabel_cases {also : CString → Bool} {rules : List NftnlRule} {items : List Item}
    (holds : List.Forall₂ Holds rules items) (right : Unmistaken uid also items)
    (readable : ∀ rule e, Holds rule (.pinhole uid e) → also rule.userdata = true)
    (tmpLabel : List Char) :
    let result := searchLabel (labelStart uid) (fun p => also p.desc) tmpLabel
      ((rules.filter shown).map (tableCb .RULE_FILTER))
    lookup uid items = none ∧ result = none ∨
      ∃ rule e, Placed uid rules items rule e ∧ result = some (tableCb .RULE_FILTER rule) := by
  induction holds generalizing tmpLabel with
  | nil => exact .inl ⟨rfl, rfl⟩
  | @cons rule item rules items first rest ih =>
    have desc : (tableCb .RULE_FILTER rule).desc = rule.userdata := (tableCb_frame _ rule).2
    by_cases here : item.isPinhole uid = true
    · cases item with
      | other desc exprs => simp [Item.isPinhole, Item.uid?] at here
      | pinhole uid' e =>
        obtain rfl := (isPinhole_iff uid' e).mp here
        refine .inr ⟨rule, e, placed_first first rest, ?_⟩
        have read : untilNul (copyLabel rule.userdata tmpLabel) = labelStart uid' := by
          obtain ⟨⟨d, label⟩, _⟩ := first
          rw [label]
          exact copyLabel_written uid' _ d tmpLabel
        rw [List.filter_cons_of_pos (holds_shown first), List.map_cons, searchLabel]
        simp only [desc]
        exact if_pos ⟨read, readable rule e first⟩
    · have next : Unmistaken uid also items := by
        intro item' member
        refine right item' ?_
        rw [List.takeWhile_cons_of_pos (by simp [here])]
        exact List.mem_cons_of_mem _ member
      have search : ∃ buffer,
          searchLabel (labelStart uid) (fun p => also p.desc) tmpLabel
              (((rule :: rules).filter shown).map (tableCb .RULE_FILTER)) =
            searchLabel (labelStart uid) (fun p => also p.desc) buffer
              ((rules.filter shown).map (tableCb .RULE_FILTER)) := by
        by_cases visible : shown rule = true
        · refine ⟨copyLabel rule.userdata tmpLabel, ?_⟩
          rw [List.filter_cons_of_pos visible, List.map_cons, searchLabel]
          simp only [desc]
          exact if_neg (search_skips first here right visible tmpLabel)
        · exact ⟨tmpLabel, by rw [List.filter_cons_of_neg visible]⟩
      obtain ⟨buffer, same⟩ := search
      intro result
      rcases ih next buffer with ⟨none_, nothing⟩ | ⟨rule', e, placed, found⟩
      · exact .inl ⟨(lookup_skips here).trans none_, same.trans nothing⟩
      · exact .inr ⟨rule', e, placed_later first here placed, same.trans found⟩

end search

section info
variable (p q : RuleT) (out : PinholeInfo)

theorem inetNtop6_nonempty (a : In6Addr) : inetNtop6 a ≠ [] := by
  intro empty
  have missing : inetPton6 [] = none := by decide
  have read := inetPton6_inetNtop6 a
  rw [empty, missing] at read
  exact absurd read (by simp)

/-- What was written for a rule that is passed over is written again. -/
theorem readInfo_again : readInfo p (readInfo q out) = readInfo p out := by
  have host : (out.remHost.map fun host => if host = [] then [] else inetNtop6 q.rhost6).map
      (fun host => if host = [] then [] else inetNtop6 p.rhost6) =
      out.remHost.map fun host => if host = [] then [] else inetNtop6 p.rhost6 := by
    cases out.remHost with
    | none => rfl
    | some host =>
      by_cases empty : host = []
      · simp [empty]
      · simp [empty, inetNtop6_nonempty]
  simp only [readInfo, host, Option.map_map, Function.comp_def]

/-- The results for the rule that the lookup ends with. -/
def finished (p : RuleT) (out : PinholeInfo) : PinholeInfo :=
  { readInfo p out with
    timestamp := out.timestamp.bind fun _ => (scanLabel p.desc).map Prod.snd
    desc := out.desc.map fun _ => p.desc }

theorem unreadable {out : PinholeInfo} {desc : CString} (unread : ¬ readable out desc = true) :
    ∃ t, out.timestamp = some t ∧ scanLabel desc = none := by
  cases asked : out.timestamp with
  | none => simp [readable, asked] at unread
  | some t =>
    cases read : scanLabel desc with
    | none => exact ⟨t, rfl, rfl⟩
    | some r => simp [readable, read] at unread

theorem getLoop_of_search {start : CString} {ps : List RuleT} {p : RuleT} {out : PinholeInfo}
    {tmpLabel : List Char}
    (found : searchLabel start (fun p => readable out p.desc) tmpLabel ps = some p) :
    getLoop start tmpLabel ps out = finished p out := by
  induction ps generalizing tmpLabel out with
  | nil => simp [searchLabel] at found
  | cons q ps ih =>
    simp only [searchLabel] at found
    simp only [getLoop]
    by_cases hit : untilNul (copyLabel q.desc tmpLabel) = start
    · rw [if_pos hit]
      by_cases read : readable out q.desc = true
      · rw [if_pos ⟨hit, read⟩] at found
        obtain rfl : q = p := Option.some.inj found
        split
        · rename_i asked unread
          have given : out.timestamp = some _ := asked
          rw [readable, given, unread] at read
          simp at read
        · rfl
      · rw [if_neg (fun both => read both.2)] at found
        obtain ⟨t, asked, unread⟩ := unreadable read
        have still : (readInfo q out).timestamp = some t := asked
        have again : getLoop start (copyLabel q.desc tmpLabel) ps (readInfo q out) =
            finished p (readInfo q out) := ih found
        simp only [still, unread]
        rw [again, finished, readInfo_again, still, finished, asked]
        rfl
    · rw [if_neg hit]
      rw [if_neg (fun both => hit both.1)] at found
      exact ih found

/-- A rule that is read back as it is gives what is asked for of the entry. -/
theorem finished_info {uid : UInt16} {rule : NftnlRule} {e : Entry} {out : PinholeInfo}
    (holds : Holds rule (.pinhole uid e)) (asked : e.Shown out) :
    { finished (tableCb .RULE_FILTER rule) out with desc := none } = e.info out := by
  have reads := holds_reads holds
  obtain ⟨rport, dport, host⟩ := asked
  have hosts : (out.remHost.map fun host => if host = [] then [] else inetNtop6
      (e.remHost.getD 0)) = out.remHost.map fun _ => inetNtop6 (e.remHost.getD 0) := by
    cases buffer : out.remHost with
    | none => rfl
    | some text =>
      have nonempty : text ≠ [] := by
        rintro rfl
        exact host buffer
      rw [Option.map_some, Option.map_some, if_neg nonempty]
  have ports : (out.remPort.map fun _ => (0 : UInt16)) = out.remPort.map fun _ => e.remPort := by
    cases port : out.remPort with
    | none => rfl
    | some p => rw [rport (by rw [port]; rfl)]
  have dports : (out.intPort.map fun _ => if Ported e.proto then e.intPort else 0) =
      out.intPort.map fun _ => e.intPort := by
    cases port : out.intPort with
    | none => rfl
    | some p =>
      rcases dport (by rw [port]; rfl) with ported | zero
      · rw [if_pos ported]
      · rw [zero, ite_self]
  have label : scanLabel (tableCb .RULE_FILTER rule).desc =
      some ((uid.toNat : Int), e.expiry.toNat) := by
    rw [reads.desc]
    exact holds_scanLabel holds
  have time : (out.timestamp.bind fun _ => some e.expiry.toNat) =
      out.timestamp.map fun _ => e.expiry.toNat := by
    cases out.timestamp <;> rfl
  simp only [finished, readInfo, reads.rhost6, reads.rport, reads.iaddr6, reads.eport,
    reads.proto, label, Option.map_some, hosts, ports, dports, time, Entry.info]

end info

/-- With the numbers that have been given out. -/
structure Kept (s : State) : Prop extends Refines s where
  once : (uids s.items).Nodup
  numbered : s.pinholes.nextUid = s.adds + 1
  few : s.adds < 65534
  below : ∀ uid ∈ uids s.items, uid.toNat ≤ s.adds

section steps
variable {s : State} (kept : Kept s)
include kept

theorem number_toNat : (UInt16.ofInt s.pinholes.nextUid).toNat = s.adds + 1 := by
  have few := kept.few
  rw [kept.numbered]
  simp only [UInt16.ofInt, UInt16.toNat_ofNat']
  omega

theorem number_fresh : UInt16.ofInt s.pinholes.nextUid ∉ uids s.items := by
  intro member
  have old := kept.below _ member
  rw [number_toNat kept] at old
  omega

theorem map_none_iff (uid : UInt16) : s.map uid = none ↔ uid ∉ uids s.items := by
  rw [← kept.entries uid]
  exact lookup_none_iff

theorem add_kept (stack : In6Addr × In6Addr) (ifIdx : Option Nat) (req : PinholeRequest)
    (room : s.adds + 1 < 65534) : Kept (step s (.add stack ifIdx req)) := by
  have number := number_toNat kept
  have fresh := number_fresh kept
  have given : numberOf (respond s.pinholes (.add stack ifIdx req)).1 =
      UInt16.ofInt s.pinholes.nextUid := rfl
  refine ⟨⟨⟨kept.agreed, ?_, ?_⟩, ?_, ?_⟩, ?_, ?_, room, ?_⟩
  · rw [given, number, ← kept.numbered]
    rfl
  · rw [given]
    exact (map_none_iff kept _).mpr fresh
  · intro uid
    simp only [step, itemsAfter, mapAfter, given]
    rw [lookup_pinhole, kept.entries, Function.update_apply]
    simp only [eq_comm]
  · refine .cons ⟨⟨req.desc, ?_⟩, ifIdx, rfl⟩ kept.rules
    rw [given, number, ← kept.numbered]
    rfl
  · exact List.nodup_cons.mpr ⟨fresh, kept.once⟩
  · have next : succUid s.pinholes.nextUid = s.adds + 1 + 1 := by
      rw [kept.numbered]
      exact if_neg (by omega)
    exact next
  · intro uid member
    rcases List.mem_cons.mp member with rfl | old
    · exact Nat.le_of_eq number
    · exact Nat.le_succ_of_le (kept.below uid old)

theorem addFilterRule_kept (ifIdx : Option Nat) (rhost : Option CString) (iaddr : CString)
    (iport : UInt16) (proto : Int) (desc : Option CString) :
    Kept (step s (.addFilterRule ifIdx rhost iaddr iport proto desc)) where
  agreed := ⟨kept.agreed, trivial⟩
  entries := kept.entries
  rules := .cons ⟨rfl, rfl⟩ kept.rules
  once := kept.once
  numbered := kept.numbered
  few := kept.few
  below := kept.below

section found
variable {uid : UInt16} {tmpLabel : List Char}

/-- What the search of a deletion or an update finds. -/
theorem search_cases (right : Unmistaken uid (fun _ => true) s.items) (tmpLabel : List Char) :
    let result := searchLabel (labelStart uid) (fun _ => true) tmpLabel (labelled s.pinholes)
    s.map uid = none ∧ result = none ∨
      ∃ rule e, Placed uid s.pinholes.nft.forward.rules s.items rule e ∧ s.map uid = some e ∧
        result = some (tableCb .RULE_FILTER rule) := by
  intro result
  have cases_ := searchLabel_cases kept.rules right (fun _ _ _ => rfl) tmpLabel
  rw [← labelled_eq] at cases_
  rcases cases_ with ⟨absent, nothing⟩ | ⟨rule, e, placed, found⟩
  · exact .inl ⟨(kept.entries uid).symm.trans absent, nothing⟩
  · exact .inr ⟨rule, e, placed, (kept.entries uid).symm.trans placed.found, found⟩

theorem removed_rules {rule : NftnlRule} {e : Entry}
    (placed : Placed uid s.pinholes.nft.forward.rules s.items rule e) :
    List.Forall₂ Holds
      (s.pinholes.delRule (tableCb .RULE_FILTER rule).handle).nft.forward.rules
      (without uid s.items) := by
  rw [delRule_rules, (tableCb_frame _ rule).1]
  exact placed.removed s.pinholes.nft.forward.distinct kept.once

theorem delete_kept (right : Unmistaken uid (fun _ => true) s.items) :
    Kept (step s (.delete tmpLabel uid)) := by
  have entries : ∀ u, lookup u (without uid s.items) = Function.update s.map uid none u := by
    intro u
    rw [lookup_without, kept.entries, Function.update_apply]
    simp only [eq_comm]
  have once : (uids (without uid s.items)).Nodup := kept.once.sublist uids_without
  have below : ∀ u ∈ uids (without uid s.items), u.toNat ≤ s.adds := by
    intro u member
    exact kept.below u (uids_without.subset member)
  rcases search_cases kept right tmpLabel with ⟨absent, nothing⟩ | ⟨rule, e, placed, here, found⟩
  · have same : deletePinhole tmpLabel uid s.pinholes = (-2, s.pinholes) := by
      rw [deletePinhole, nothing]
    have alone : without uid s.items = s.items :=
      without_absent ((map_none_iff kept uid).mp absent)
    refine ⟨⟨⟨kept.agreed, ?_⟩, entries, ?_⟩, once, ?_, kept.few, below⟩
    · simp [Expected, respond, same, absent]
    · simp only [step, respond, same, itemsAfter, alone]
      exact kept.rules
    · simp only [step, respond, same]
      exact kept.numbered
  · have gone : deletePinhole tmpLabel uid s.pinholes =
        (0, s.pinholes.delRule (tableCb .RULE_FILTER rule).handle) := by
      rw [deletePinhole, found]
    refine ⟨⟨⟨kept.agreed, ?_⟩, entries, ?_⟩, once, ?_, kept.few, below⟩
    · simp [Expected, respond, gone, here]
    · simp only [step, respond, gone, itemsAfter]
      exact removed_rules kept placed
    · simp only [step, respond, gone]
      exact kept.numbered

theorem update_kept {reindexed : Nat → Nat} {timestamp : UInt32}
    (right : Unmistaken uid (fun _ => true) s.items) (rewritten : ∀ e ∈ s.map uid, e.Rewritten) :
    Kept (step s (.update tmpLabel reindexed uid timestamp)) := by
  rcases search_cases kept right tmpLabel with ⟨absent, nothing⟩ | ⟨rule, e, placed, here, found⟩
  · have same : updatePinhole tmpLabel reindexed uid timestamp.toNat s.pinholes =
        (-2, s.pinholes) := by
      rw [updatePinhole, nothing]
    have missing : lookup uid s.items = none := (kept.entries uid).trans absent
    have unchanged : step s (.update tmpLabel reindexed uid timestamp) =
        { s with agreed := s.agreed ∧
            Expected s.map (.update tmpLabel reindexed uid timestamp) ⟨-2, none⟩ } := by
      have map : Function.update s.map uid none = s.map := by
        rw [← absent, Function.update_eq_self]
      simp [step, respond, same, itemsAfter, missing, mapAfter, absent, map, Call.isAdd]
    rw [unchanged]
    refine { kept with agreed := ⟨kept.agreed, ?_⟩ }
    simp [Expected, absent]
  · obtain ⟨noPort, port, given⟩ := rewritten e here
    have reads := holds_reads placed.holds
    have host : (if (tableCb .RULE_FILTER rule).rhost6 = 0 then none
        else some (tableCb .RULE_FILTER rule).rhost6) = e.remHost := by
      rw [reads.rhost6]
      cases source : e.remHost with
      | none => rfl
      | some a =>
        have other : a ≠ 0 := by
          rintro rfl
          exact given source
        exact if_neg other
    have dport : (tableCb .RULE_FILTER rule).eport = e.intPort := by
      rw [reads.eport]
      rcases port with ported | zero
      · exact if_pos ported
      · rw [zero, ite_self]
    let e' : Entry := { e with expiry := timestamp }
    let exprs := ruleSetFilter6 (some (reindexed (tableCb .RULE_FILTER rule).ingressIfidx))
      e.proto e.remHost e.intClient e.intPort e.remPort
    have written : updatePinhole tmpLabel reindexed uid timestamp.toNat s.pinholes =
        (0, (s.pinholes.delRule (tableCb .RULE_FILTER rule).handle).newRule
          (writtenLabel uid.toNat timestamp.toNat []) exprs) := by
      simp only [updatePinhole, found, host, dport, reads.proto, reads.iaddr6, reads.iport,
        ← noPort, exprs]
    have items : itemsAfter s.items (respond s.pinholes
        (.update tmpLabel reindexed uid timestamp)).1 (.update tmpLabel reindexed uid timestamp) =
        .pinhole uid e' :: without uid s.items := by
      simp only [itemsAfter, placed.found, e']
    have old : uid.toNat ≤ s.adds := by
      refine kept.below uid ?_
      by_contra absent
      rw [(map_none_iff kept uid).mpr absent] at here
      simp at here
    refine ⟨⟨⟨kept.agreed, ?_⟩, ?_, ?_⟩, ?_, ?_, kept.few, ?_⟩
    · simp [Expected, respond, written, here]
    · intro u
      simp only [step, items, mapAfter, here, Option.map_some]
      rw [lookup_pinhole, lookup_without, Function.update_apply, kept.entries]
      by_cases same : uid = u
      · rw [if_pos same, if_pos same.symm]
      · rw [if_neg same, if_neg same, if_neg (Ne.symm same)]
    · simp only [step, items]
      rw [show (respond s.pinholes (.update tmpLabel reindexed uid timestamp)).2 =
        (s.pinholes.delRule (tableCb .RULE_FILTER rule).handle).newRule
          (writtenLabel uid.toNat timestamp.toNat []) exprs by simp only [respond, written]]
      exact .cons ⟨⟨[], rfl⟩, _, rfl⟩ (removed_rules kept placed)
    · simp only [step, items]
      exact List.nodup_cons.mpr ⟨not_mem_without, kept.once.sublist uids_without⟩
    · simp only [step, respond, written]
      exact kept.numbered
    · intro u member
      simp only [step, items, uids_pinhole, List.mem_cons] at member
      rcases member with rfl | rest
      · exact old
      · exact kept.below u (uids_without.subset rest)

theorem get_kept {out : PinholeInfo} (right : Unmistaken uid (readable out) s.items)
    (present : (s.map uid).isSome) (asked : ∀ e ∈ s.map uid, e.Shown out) :
    Kept (step s (.get tmpLabel uid out)) := by
  refine ⟨⟨⟨kept.agreed, ?_⟩, kept.entries, kept.rules⟩, kept.once, kept.numbered, kept.few,
    kept.below⟩
  have readsAll : ∀ rule e, Holds rule (.pinhole uid e) → readable out rule.userdata = true := by
    intro rule e holds
    rw [readable, holds_scanLabel holds, Option.isSome_some, Bool.or_true]
  have cases_ := searchLabel_cases kept.rules right readsAll tmpLabel
  rw [← labelled_eq] at cases_
  rcases cases_ with ⟨absent, _⟩ | ⟨rule, e, placed, found⟩
  · rw [← kept.entries uid, absent] at present
    simp at present
  · have here : s.map uid = some e := (kept.entries uid).symm.trans placed.found
    have result := getLoop_of_search found
    have written := finished_info placed.holds (asked e here)
    simp only [Expected, here, respond, getPinholeInfo, result, Option.map_some, written]
    exact ⟨trivial, trivial⟩

section clean
variable {now : Nat} (cleaned : ∀ item ∈ s.items, item.Cleaned now s.pinholes.nextUid)
include cleaned

/-- A rule that a cleaning leaves because of its label takes part in the numbering. -/
theorem numbered_below {rule : NftnlRule} (member : rule ∈ s.pinholes.nft.forward.rules)
    {r : Int × Nat} (read : scanLabel rule.userdata = some r) : r.1 < s.pinholes.nextUid := by
  obtain ⟨item, listed, holds⟩ := forall₂_exists kept.rules member
  cases item with
  | other desc exprs =>
    rw [holds.1] at read
    exact (cleaned _ listed r read).2
  | pinhole uid e =>
    have known : uid ∈ uids s.items := List.mem_filterMap.mpr ⟨_, listed, rfl⟩
    have old := kept.below uid known
    rw [holds_scanLabel holds] at read
    obtain rfl := Option.some.inj read
    rw [kept.numbered]
    dsimp only
    omega

theorem clean_nextUid :
    (cleanPinholeList now s.pinholes).2.nextUid = s.pinholes.nextUid := by
  have same : (cleanPinholeList now s.pinholes).2.nextUid =
      renumbered (cleanLoop (now % 2 ^ 32) (labelled s.pinholes)
        { minTs := UINT_MAX, minUid := INT_MAX, maxUid := -1, n := 0 } s.pinholes).1
        (cleanLoop (now % 2 ^ 32) (labelled s.pinholes)
          { minTs := UINT_MAX, minUid := INT_MAX, maxUid := -1, n := 0 } s.pinholes).2.nextUid := rfl
  rw [same, cleanLoop_nextUid]
  refine renumbered_below (cleanLoop_maxUid ?_ (by dsimp only; omega) _) s.pinholes.bounded
  intro p listed r read _
  rw [labelled_eq] at listed
  obtain ⟨rule, inside, rfl⟩ := List.mem_map.mp listed
  rw [(tableCb_frame _ rule).2] at read
  exact numbered_below kept cleaned (List.mem_of_mem_filter inside) read

theorem clean_kept : Kept (step s (.clean now)) where
  agreed := ⟨kept.agreed, trivial⟩
  entries := by
    intro uid
    simp only [step, itemsAfter, mapAfter]
    rw [lookup_alive kept.once, kept.entries]
  rules := by
    have left : (respond s.pinholes (.clean now)).2.nft.forward.rules =
        (cleanPinholeList now s.pinholes).2.nft.forward.rules := rfl
    simp only [step, itemsAfter]
    rw [left, clean_rules]
    apply forall₂_filter kept.rules
    intro rule item listed holds
    have exact := cleaned item listed
    cases item with
    | other desc exprs =>
      have stays : expires (now % 2 ^ 32) rule.userdata = false := by
        rw [holds.1, expires, Option.any_eq_false]
        intro r read
        have later := (exact r read).1
        simpa using later
      rw [stays, Bool.and_false]
      rfl
    | pinhole uid e =>
      rw [holds_shown holds, expires_of_scanLabel (holds_scanLabel holds), Bool.true_and]
      have lives : (Item.pinhole uid e).alive now = !decide (e.expiry.toNat ≤ now) := by
        simp only [Item.alive, Entry.alive, ← decide_not, Nat.not_le]
      rw [lives, decide_eq_decide.mpr exact]
  once := kept.once.sublist (List.Sublist.filterMap _ List.filter_sublist)
  numbered := (clean_nextUid kept cleaned).trans kept.numbered
  few := kept.few
  below := by
    intro uid member
    exact kept.below uid ((List.Sublist.filterMap _ List.filter_sublist).subset member)

end clean

end found

end steps

theorem step_kept (call : Call) {s : State} (kept : Kept s) (meets : Meets s call) :
    Kept (step s call) := by
  cases call with
  | add stack ifIdx req => exact add_kept kept stack ifIdx req meets
  | update tmpLabel reindexed uid timestamp => exact update_kept kept meets.1 meets.2
  | delete tmpLabel uid => exact delete_kept kept meets
  | get tmpLabel uid out => exact get_kept kept meets.1 meets.2.1 meets.2.2
  | clean now => exact clean_kept kept meets
  | addFilterRule ifIdx rhost iaddr iport proto desc =>
    exact addFilterRule_kept kept ifIdx rhost iaddr iport proto desc

/-- In every run whose calls meet the condition, the answers are those of the map, and the chain
    has exactly the rules for its entries and the rules of port mappings that were added. -/
theorem pinholes_refine_map (calls : List Call) (meets : Admitted step Meets .start calls) :
    Always step Refines .start calls := by
  have start : Kept .start :=
    { agreed := trivial
      entries := fun _ => rfl
      rules := .nil
      once := .nil
      numbered := rfl
      few := by decide
      below := fun uid member => absurd member List.not_mem_nil }
  have run := always_of_admitted (fun s call kept => step_kept call kept) start meets
  exact always_imp (fun s kept => kept.toRefines) run

def webPinhole (timestamp : UInt32) : PinholeRequest :=
  { remHost := some "2001:db8::9".toList, remPort := 0, intClient := "2001:db8::2".toList
    intPort := 80, proto := 6, desc := "web".toList, timestamp }

def allAsked : PinholeInfo :=
  { remHost := some "?".toList, remPort := some 0, intClient := some [], intPort := some 0
    proto := some 0, desc := some [], timestamp := some 0 }

/-- Two pinholes and a port mapping, with every call. -/
def sharedChain : List Call :=
  [.add (0, 0) none (webPinhole 100), .add (0, 0) (some 2) (webPinhole 200),
    .addFilterRule none none "192.168.1.2".toList 80 6 (some "pinhole-7 web".toList),
    .update [] id 1 300, .get "pinhole-2".toList 1 allAsked, .delete [] 5, .clean 250,
    .delete [] 1]

theorem sharedChain_refines : Always step Refines .start sharedChain :=
  pinholes_refine_map sharedChain (by decide)

/-- A lookup of a pinhole that is absent reports success. -/
theorem absent_reported :
    ¬ Always step Refines .start [.get [] 5 allAsked] := by
  intro run
  have answer := (always_last run).agreed.2
  have expected : Expected (fun _ => none) (.get [] 5 allAsked)
      (respond State.start.pinholes (.get [] 5 allAsked)).1 := answer
  simp [Expected, respond, getPinholeInfo] at expected

end PinholeMapRuns
