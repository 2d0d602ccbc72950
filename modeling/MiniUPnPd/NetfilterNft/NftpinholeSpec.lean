import MiniUPnPd.NetfilterNft.Nftpinhole
import MiniUPnPd.NetfilterNft.NftnlrdrMiscSpec

/-!
The rules that the searches for pinholes look at, as rules are added and deleted, and which labels
a search takes for that of a pinhole.
-/
namespace NftpinholeSpec
open CText FirstMatch Nftnlrdr NftnlrdrMisc NftnlrdrMiscSpec Nftpinhole PinholeLabel
open PcpServer (In6Addr)

/-- What is read back of the rule of a pinhole. -/
structure ReadsPinhole (protocol : UInt8) (source : Option In6Addr) (client : In6Addr)
    (port : UInt16) (label : CString) (p : RuleT) : Prop where
  type : p.type = .RULE_FILTER
  desc : p.desc = label
  proto : p.proto = protocol
  rhost6 : p.rhost6 = source.getD 0
  iaddr6 : p.iaddr6 = client
  eport : p.eport = if Ported protocol then port else 0
  rport : p.rport = 0
  iport : p.iport = 0

theorem readsPinhole (handle : Nat) (label : CString) (ifIdx : Option Nat) (proto : UInt8)
    (rhost6 : Option In6Addr) (iaddr6 : In6Addr) (iport rport : UInt16) :
    ReadsPinhole proto rhost6 iaddr6 iport label (tableCb .RULE_FILTER
      { handle, userdata := label
        exprs := ruleSetFilter6 ifIdx proto rhost6 iaddr6 iport rport }) := by
  have read := tableCb_filter6 handle label ifIdx proto rhost6 iaddr6 iport rport
  rw [read]
  exact ⟨rfl, rfl, rfl, rfl, rfl, rfl, rfl, rfl⟩

theorem writtenLabel_read {uid timestamp : Nat} (bounded : uid < 65536) (small : timestamp < 2 ^ 32)
    (desc : CString) : scanLabel (writtenLabel uid timestamp desc) = some ((uid : Int), timestamp) :=
  scanLabel_cut desc (Nat.lt_trans bounded (by decide)) small (by decide)

theorem scanLabel_nonempty {label : CString} {read : Int × Nat}
    (scanned : scanLabel label = some read) : label ≠ [] := by
  rintro rfl
  have missing : scanLabel [] = none := by decide
  rw [missing] at scanned
  exact absurd scanned (by simp)

theorem labelled_newRule (s : Pinholes) {label : CString} (nonempty : label ≠ [])
    (exprs : List NftnlExpr) (filter : (tableCb .RULE_FILTER
      { handle := s.nft.forward.nextHandle, userdata := label, exprs }).type = .RULE_FILTER) :
    labelled (s.newRule label exprs) = tableCb .RULE_FILTER
      { handle := s.nft.forward.nextHandle, userdata := label, exprs } :: labelled s := by
  have text : (tableCb .RULE_FILTER
      { handle := s.nft.forward.nextHandle, userdata := label, exprs }).desc = label :=
    (tableCb_frame _ _).2
  unfold labelled headFilter
  simp only [Pinholes.newRule, cache_newRule]
  rw [List.filter_cons_of_pos (by simp [filter]), List.filter_cons_of_pos (by simp [text, nonempty])]

section labels
variable {word : CString} (plain : ∀ c ∈ word, c ≠ ' ' ∧ c ≠ Char.ofNat 0)
include plain

theorem untilNul_word (rest : List Char) : untilNul (word ++ Char.ofNat 0 :: rest) = word := by
  have kept : ∀ c ∈ word, decide (c ≠ Char.ofNat 0) = true := by
    intro c member
    exact decide_eq_true (plain c member).2
  rw [untilNul, List.takeWhile_append_of_pos kept, List.takeWhile_cons_of_neg (by simp),
    List.append_nil]

/-- A label whose first word is this one. -/
theorem cutWord_word (given : word ≠ []) (rest : List Char) :
    cutWord (word ++ ' ' :: rest) = word ++ Char.ofNat 0 :: rest := by
  have kept : ∀ c ∈ word, decide (c ≠ ' ' ∧ c ≠ Char.ofNat 0) = true := by
    intro c member
    exact decide_eq_true (plain c member)
  obtain ⟨d, ds, rfl⟩ := List.exists_cons_of_ne_nil given
  have first := (plain d List.mem_cons_self).1
  have noBlank : ((d :: ds) ++ ' ' :: rest).takeWhile (· = ' ') = [] := by
    simp [first]
  have all : ((d :: ds) ++ ' ' :: rest).dropWhile (· = ' ') = (d :: ds) ++ ' ' :: rest := by
    simp [first]
  have found : ((d :: ds) ++ ' ' :: rest).takeWhile (fun c => c ≠ ' ' ∧ c ≠ Char.ofNat 0) =
      d :: ds := by
    rw [List.takeWhile_append_of_pos kept, List.takeWhile_cons_of_neg (by simp), List.append_nil]
  unfold cutWord
  simp only [noBlank, all, found, List.drop_left, List.nil_append]

end labels

/-- The first word of a text is this one only if the text begins with it, and a blank or the end
    comes next. -/
theorem cutWord_cases {text : List Char} {word : CString} (read : untilNul (cutWord text) = word) :
    ∃ rest, text = word ++ rest ∧ ∀ c ∈ rest.head?, c = ' ' ∨ c = Char.ofNat 0 := by
  unfold cutWord at read
  simp only at read
  split at read
  · rename_i rest found
    let blanks := text.takeWhile (· = ' ')
    let first := (text.dropWhile (· = ' ')).takeWhile fun c => c ≠ ' ' ∧ c ≠ Char.ofNat 0
    have parts : text = (blanks ++ first) ++ ' ' :: rest := by
      rw [← found, List.append_assoc, List.prefix_iff_eq_append.mp (List.takeWhile_prefix _),
        List.takeWhile_append_dropWhile]
    have plain : ∀ c ∈ blanks ++ first, decide (c ≠ Char.ofNat 0) = true := by
      intro c member
      rcases List.mem_append.mp member with blank | other
      · have same := List.mem_takeWhile_imp blank
        rw [decide_eq_true_eq] at same
        subst same
        decide
      · have both := List.mem_takeWhile_imp other
        simp only [decide_eq_true_eq] at both
        exact decide_eq_true both.2
    have whole : blanks ++ first = word := by
      rw [← read, untilNul, List.takeWhile_append_of_pos plain,
        List.takeWhile_cons_of_neg (by simp), List.append_nil]
    refine ⟨' ' :: rest, by rw [parts, whole], ?_⟩
    intro c head
    exact .inl (Option.some.inj head).symm
  · refine ⟨text.dropWhile (· ≠ Char.ofNat 0), ?_, ?_⟩
    · rw [← read, untilNul, List.takeWhile_append_dropWhile]
    · intro c head
      have stopped := List.head?_dropWhile_not (fun c => decide (c ≠ Char.ofNat 0)) text
      rw [Option.mem_def.mp head] at stopped
      exact .inr (by simpa using stopped)

section numbers
variable (uid : UInt16)

theorem labelStart_plain : ∀ c ∈ labelStart uid, c ≠ ' ' ∧ c ≠ Char.ofNat 0 := by
  have all : (pinholeText.all fun c => c ≠ ' ' ∧ c ≠ Char.ofNat 0) = true := by decide
  have plainText : ∀ c ∈ pinholeText, c ≠ ' ' ∧ c ≠ Char.ofNat 0 := by
    intro c member
    exact of_decide_eq_true (List.all_eq_true.mp all c member)
  intro c member
  rcases List.mem_append.mp member with text | number
  · exact plainText c text
  · have digit := utoa_digits uid.toNat c number
    constructor <;> rintro rfl <;> exact absurd digit (by decide)

theorem labelStart_injective {uid uid' : UInt16} (same : labelStart uid = labelStart uid') :
    uid = uid' := by
  have numbers : utoa uid.toNat = utoa uid'.toNat := List.append_cancel_left same
  have values := utoa_value uid.toNat
  rw [numbers, utoa_value] at values
  exact UInt16.toNat_inj.mp values.symm

theorem labelStart_nonempty : labelStart uid ≠ [] :=
  List.append_ne_nil_of_left_ne_nil (by decide) _

theorem labelStart_length : (labelStart uid).length ≤ 13 := by
  have digits : (utoa uid.toNat).length ≤ 5 :=
    utoa_length (by decide) (Nat.lt_trans uid.toNat_lt (by decide))
  have text : pinholeText.length = 8 := by decide
  rw [labelStart, List.length_append, text]
  omega

theorem writtenLabel_start (timestamp : Nat) (desc : CString) :
    ∃ rest, writtenLabel uid.toNat timestamp desc = labelStart uid ++ ' ' :: rest := by
  have fits := labelStart_length uid
  have whole : pinholeLabel uid.toNat timestamp desc =
      labelStart uid ++ ' ' :: (tsText ++ (utoa timestamp ++ ':' :: ' ' :: desc)) := by
    simp [pinholeLabel, labelStart]
  have room : NFT_DESCR_SIZE - 1 = (labelStart uid).length +
      ((NFT_DESCR_SIZE - 2 - (labelStart uid).length) + 1) := by
    unfold NFT_DESCR_SIZE
    omega
  refine ⟨(tsText ++ (utoa timestamp ++ ':' :: ' ' :: desc)).take
    (NFT_DESCR_SIZE - 2 - (labelStart uid).length), ?_⟩
  rw [writtenLabel, whole, room, List.take_length_add_append, List.take_succ_cons]

/-- What a search reads of the label of a pinhole, whatever the buffer holds. -/
theorem copyLabel_written (timestamp : Nat) (desc : CString) (tmpLabel : List Char) :
    untilNul (copyLabel (writtenLabel uid.toNat timestamp desc) tmpLabel) = labelStart uid := by
  obtain ⟨rest, label⟩ := writtenLabel_start uid timestamp desc
  rw [copyLabel, label, List.append_assoc, List.cons_append,
    cutWord_word (labelStart_plain uid) (labelStart_nonempty uid),
    untilNul_word (labelStart_plain uid)]

/-- A label that begins like that of this pinhole, or that the rest of the buffer may complete. -/
def TakenFor (uid : UInt16) (desc : CString) : Prop :=
  desc ≠ [] ∧ (desc <+: labelStart uid ∨ labelStart uid ++ [' '] <+: desc ∨
    labelStart uid ++ [Char.ofNat 0] <+: desc)

instance (desc : CString) : Decidable (TakenFor uid desc) := by
  unfold TakenFor
  infer_instance

theorem takenFor_of_copyLabel {uid : UInt16} {desc : CString} (nonempty : desc ≠ [])
    {tmpLabel : List Char} (read : untilNul (copyLabel desc tmpLabel) = labelStart uid) :
    TakenFor uid desc := by
  refine ⟨nonempty, ?_⟩
  obtain ⟨rest, text, next⟩ := cutWord_cases read
  rcases List.append_eq_append_iff.mp text with ⟨more, start, _⟩ | ⟨more, label, follows⟩
  · exact .inl ⟨more, start.symm⟩
  · cases more with
    | nil => exact .inl ⟨[], by simpa using label⟩
    | cons c more =>
      have inside : labelStart uid ++ [c] <+: desc := ⟨more, by rw [label, List.append_assoc]; rfl⟩
      rcases next c (by rw [follows]; rfl) with rfl | rfl
      · exact .inr (.inl inside)
      · exact .inr (.inr inside)

end numbers

section chain

/-- The rules that have a label. -/
def shown (rule : NftnlRule) : Bool :=
  (tableCb .RULE_FILTER rule).type = .RULE_FILTER ∧ rule.userdata ≠ []

theorem labelled_eq (s : Pinholes) :
    labelled s = (s.nft.forward.rules.filter shown).map (tableCb .RULE_FILTER) := by
  rw [labelled, headFilter, NftChain.cache, List.filter_filter, List.filter_map]
  congr 2
  funext rule
  simp only [Function.comp_apply, shown, (tableCb_frame _ rule).2]
  rw [Bool.and_comm, ← Bool.decide_and]

theorem delRule_rules (s : Pinholes) (handle : Nat) :
    (s.delRule handle).nft.forward.rules =
      s.nft.forward.rules.filter fun rule => rule.handle ≠ handle :=
  eraseP_key_filter s.nft.forward.distinct handle

/-- The label of a pinhole that is removed at this time. -/
def expires (now : Nat) (desc : CString) : Bool := (scanLabel desc).any fun r => r.2 ≤ now

theorem expires_of_scanLabel {now : Nat} {desc : CString} {r : Int × Nat}
    (read : scanLabel desc = some r) : expires now desc = decide (r.2 ≤ now) := by
  rw [expires, read, Option.any_some]

theorem cleanLoop_rules (now : Nat) (ps : List RuleT) (c : Cleaning) (s : Pinholes) :
    (cleanLoop now ps c s).2.nft.forward.rules = s.nft.forward.rules.filter fun rule =>
      !ps.any fun p => expires now p.desc && p.handle == rule.handle := by
  induction ps generalizing c s with
  | nil => simp [cleanLoop]
  | cons p ps ih =>
    cases read : scanLabel p.desc with
    | none =>
      have stays : expires now p.desc = false := by rw [expires, read, Option.any_none]
      simp only [cleanLoop, read, ih, List.any_cons, stays, Bool.false_and, Bool.false_or]
    | some r =>
      have exact : expires now p.desc = decide (r.2 ≤ now) := expires_of_scanLabel read
      by_cases old : r.2 ≤ now
      · rw [decide_eq_true old] at exact
        simp only [cleanLoop, read, old, ↓reduceIte, ih, delRule_rules, List.filter_filter,
          List.any_cons, exact, Bool.true_and, Bool.not_or]
        congr 1
        funext rule
        rw [Bool.and_comm]
        congr 1
        simp [eq_comm, beq_eq_decide]
      · rw [decide_eq_false old] at exact
        simp only [cleanLoop, read, old, ↓reduceIte, ih, List.any_cons, exact, Bool.false_and,
          Bool.false_or]

theorem cleanLoop_nextUid (now : Nat) (ps : List RuleT) (c : Cleaning) (s : Pinholes) :
    (cleanLoop now ps c s).2.nextUid = s.nextUid := by
  induction ps generalizing c s with
  | nil => rfl
  | cons p ps ih =>
    simp only [cleanLoop]
    split
    · exact ih c s
    · split
      · rw [ih]
        rfl
      · exact ih _ s

theorem cleanLoop_maxUid {now : Nat} {ps : List RuleT} {limit : Int}
    (below : ∀ p ∈ ps, ∀ r ∈ scanLabel p.desc, now < r.2 → r.1 < limit) {c : Cleaning}
    (start : c.maxUid < limit) (s : Pinholes) : (cleanLoop now ps c s).1.maxUid < limit := by
  induction ps generalizing c s with
  | nil => exact start
  | cons p ps ih =>
    simp only [List.mem_cons, forall_eq_or_imp] at below
    obtain ⟨first, rest⟩ := below
    simp only [cleanLoop]
    split
    · exact ih rest start s
    · rename_i uid ts read
      split
      · exact ih rest (c := { c with n := c.n + 1 }) start _
      · rename_i new
        have small := first (uid, ts) read (Nat.lt_of_not_le new)
        refine ih rest ?_ s
        dsimp only
        split
        · exact small
        · split
          · exact start
          · exact start

theorem renumbered_below {c : Cleaning} {nextUid : Nat} (below : c.maxUid < nextUid)
    (bounded : nextUid < 65535) : renumbered c nextUid = nextUid := by
  unfold renumbered
  split
  · have same : (if c.minUid - 32000 ≤ nextUid ∧ (nextUid : Int) ≤ c.maxUid
        then (c.maxUid + 1).toNat else nextUid) = nextUid := if_neg (by omega)
    rw [same]
    exact if_neg (by omega)
  · rfl

/-- A cleaning removes the rules that it takes for those of expired pinholes. -/
theorem clean_rules (now : Nat) (p : Pinholes) :
    (cleanPinholeList now p).2.nft.forward.rules = p.nft.forward.rules.filter fun rule =>
      !(shown rule && expires (now % 2 ^ 32) rule.userdata) := by
  have distinct := p.nft.forward.distinct
  have loop : (cleanPinholeList now p).2.nft.forward.rules = (cleanLoop (now % 2 ^ 32) (labelled p)
      { minTs := UINT_MAX, minUid := INT_MAX, maxUid := -1, n := 0 } p).2.nft.forward.rules := rfl
  rw [loop, cleanLoop_rules, labelled_eq]
  apply List.filter_congr
  intro rule member
  congr 1
  rw [Bool.eq_iff_iff, List.any_map, List.any_eq_true]
  constructor
  · rintro ⟨other, listed, hit⟩
    rw [List.mem_filter] at listed
    simp only [Function.comp_apply, tableCb_frame, Bool.and_eq_true, beq_iff_eq] at hit
    obtain rfl : other = rule := List.inj_on_of_nodup_map distinct listed.1 member hit.2
    rw [listed.2, hit.1]
    rfl
  · intro hit
    rw [Bool.and_eq_true] at hit
    refine ⟨rule, List.mem_filter.mpr ⟨member, hit.1⟩, ?_⟩
    simp only [Function.comp_apply, tableCb_frame, hit.2, beq_self_eq_true, Bool.and_true]

end chain

end NftpinholeSpec
