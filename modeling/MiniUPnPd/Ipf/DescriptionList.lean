import MiniUPnPd.Ipf.Ipfrdr
import MiniUPnPd.Lib.Runs
import MiniUPnPd.RuleKeys

/-!
The descriptions of the ipf backend. When an entry is taken out of the list, the entries in front
of it go with it, so the list is right only as long as each call finds its entry in front.
-/
namespace DescriptionList
open CText Inet Ipfrdr RuleKeys Runs

inductive Request where
  | add (rhost : Option CString) (eport : UInt16) (iaddr : CString) (iport : UInt16)
      (proto : Int) (desc : CString) (timestamp : Nat)
  | delete (passed : Nat) (eport : UInt16) (proto : Int)
  | update (eport : UInt16) (proto : Int) (desc : Option CString) (timestamp : Nat)

abbrev Live := UInt16 → Int → Option (CString × Nat)

/-- With what the calls so far have given to the live mappings: description and expiry. -/
structure State where
  ipf : Ipf
  live : Live

def setLive (eport : UInt16) (proto : Int) (given : Option (CString × Nat)) (live : Live) : Live :=
  fun e p => if e = eport ∧ p = proto then given else live e p

/-- A mapping keeps its description if it is given none. -/
def renewed (eport : UInt16) (proto : Int) (desc : Option CString) (timestamp : Nat)
    (live : Live) : Live :=
  setLive eport proto ((live eport proto).map fun old => (desc.getD old.1, timestamp)) live

def step (s : State) : Request → State
  | .add rhost eport iaddr iport proto desc timestamp =>
      { ipf := (addRedirectRule2 rhost eport iaddr iport proto (some desc) timestamp s.ipf).2
        live := setLive eport proto (some (desc, timestamp)) s.live }
  | .delete passed eport proto =>
      { ipf := (deleteRedirectRule passed eport proto s.ipf).2
        live := setLive eport proto none s.live }
  | .update eport proto desc timestamp =>
      { ipf := (updatePortmappingDescTimestamp eport proto desc timestamp s.ipf).2
        live := renewed eport proto desc timestamp s.live }

/-- The rules that are there before the first call are not of these mappings. -/
def State.start (rules : List IpNat) : State :=
  { ipf := { rules, rdrDescList := [] }, live := fun _ _ => none }

/-- What the list has under a key. -/
def entries (eport : UInt16) (proto : Int) (list : List RdrDesc) : List (CString × Nat) :=
  (list.filter (descMatches eport proto)).map fun p => (p.str, p.timestamp)

/-- One entry for each live mapping, with its latest description and expiry, and no other. -/
def Described (s : State) : Prop :=
  ∀ eport proto, entries eport proto s.ipf.rdrDescList = (s.live eport proto).toList

/-- A mapping is added only where there is none. -/
def Allowed (s : State) : Request → Prop
  | .add _ eport _ _ proto _ _ => s.live eport proto = none
  | _ => True

/-- The entry that is in front of the list. -/
def InFront (s : State) (eport : UInt16) (proto : Int) : Prop :=
  ∃ p ∈ s.ipf.rdrDescList.head?, descMatches eport proto p = true

/-- A call for a live mapping finds its entry in front, a removal for a protocol of the IP header
    and an update with a description; and only a mapping that is live is updated. -/
def Reaches (s : State) : Request → Prop
  | .add .. => True
  | .delete _ eport proto =>
      (s.live eport proto).isSome → isByte proto ∧ InFront s eport proto
  | .update eport proto desc _ =>
      if (s.live eport proto).isSome then InFront s eport proto ∧ desc.isSome else desc = none

/-- The kernel has a rule for each live mapping that it can have one for. -/
def Backed (s : State) : Prop :=
  ∀ eport proto, isByte proto → (s.live eport proto).isSome →
    ∃ ipn ∈ s.ipf.rules, ruleMatches eport proto ipn = true

section lists
variable {eport : UInt16} {proto : Int} {list front back : List RdrDesc} {p : RdrDesc}

theorem entries_cons (eport : UInt16) (proto : Int) (p : RdrDesc) (list : List RdrDesc) :
    entries eport proto (p :: list) =
      if descMatches eport proto p then (p.str, p.timestamp) :: entries eport proto list
      else entries eport proto list := by
  unfold entries
  rw [List.filter_cons]
  split
  · rfl
  · rfl

theorem entries_new (eport' : UInt16) (proto' : Int) (str : CString) (timestamp : Nat)
    (list : List RdrDesc) :
    entries eport proto ({ eport := eport', proto := proto', timestamp, str } :: list) =
      if eport = eport' ∧ proto = proto' then (str, timestamp) :: entries eport proto list
      else entries eport proto list := by
  rw [entries_cons]
  simp only [descMatches, decide_eq_true_eq]
  by_cases same : eport = eport' ∧ proto = proto'
  · rw [if_pos same, if_pos ⟨same.1.symm, same.2.symm⟩]
  · rw [if_neg same, if_neg fun also => same ⟨also.1.symm, also.2.symm⟩]

theorem entries_append (eport : UInt16) (proto : Int) (front back : List RdrDesc) :
    entries eport proto (front ++ back) = entries eport proto front ++ entries eport proto back := by
  simp [entries]

theorem entries_eq_nil : entries eport proto list = [] ↔
    ∀ p ∈ list, descMatches eport proto p = false := by
  simp [entries]

theorem descMatches_self (p : RdrDesc) : descMatches p.eport p.proto p = true := by
  simp [descMatches]

theorem descMatches_iff : descMatches eport proto p = true ↔ p.eport = eport ∧ p.proto = proto := by
  simp [descMatches]

/-- The list has an entry under the key or it has none, and then nothing is removed. -/
theorem list_cases (eport : UInt16) (proto : Int) (list : List RdrDesc) :
    (∃ front p back, list = front ++ p :: back ∧ descMatches eport proto p = true ∧
      (∀ q ∈ front, descMatches eport proto q = false) ∧
      delRedirectDesc eport proto list = back) ∨
    (∀ q ∈ list, descMatches eport proto q = false) ∧ delRedirectDesc eport proto list = list := by
  have split : list.takeWhile (fun p => !descMatches eport proto p) ++
      list.dropWhile (fun p => !descMatches eport proto p) = list := List.takeWhile_append_dropWhile
  have others : ∀ q ∈ list.takeWhile (fun p => !descMatches eport proto p),
      descMatches eport proto q = false := by
    intro q member
    have passed := List.mem_takeWhile_imp member
    simpa using passed
  unfold delRedirectDesc
  cases rest : list.dropWhile (fun p => !descMatches eport proto p) with
  | nil =>
    rw [rest, List.append_nil] at split
    rw [split] at others
    exact .inr ⟨others, rfl⟩
  | cons p back =>
    have stops := List.head?_dropWhile_not (fun p => !descMatches eport proto p) list
    rw [rest] at split stops
    left
    refine ⟨_, p, back, split.symm, ?_, others, rfl⟩
    simpa using stops

/-- Without its entry for one key, the list still has the others exactly if that entry was in
    front. -/
theorem removed_iff {live : Live}
    (described : ∀ e p', entries e p' (front ++ p :: back) = (live e p').toList)
    (hit : descMatches eport proto p = true)
    (others : ∀ q ∈ front, descMatches eport proto q = false) :
    (∀ e p', ¬ (e = eport ∧ p' = proto) → entries e p' back = (live e p').toList) ↔
      front = [] := by
  rw [descMatches_iff] at hit
  constructor
  · intro kept
    cases front with
    | nil => rfl
    | cons f front =>
      have different := others f List.mem_cons_self
      have apart : ¬ (f.eport = eport ∧ f.proto = proto) := by
        intro same
        rw [descMatches_iff.mpr same] at different
        cases different
      have once := described f.eport f.proto
      have still := kept f.eport f.proto apart
      rw [List.cons_append, entries_cons, if_pos (descMatches_self f), entries_append] at once
      have lengths := congrArg List.length once
      rw [← still, entries_cons] at lengths
      split at lengths
      · simp only [List.length_cons, List.length_append] at lengths
        omega
      · simp only [List.length_cons, List.length_append] at lengths
        omega
  · intro first e p' apart
    have same := described e p'
    have other : descMatches e p' p = false := by
      by_contra also
      rw [Bool.not_eq_false, descMatches_iff] at also
      exact apart ⟨also.1.symm.trans hit.1, also.2.symm.trans hit.2⟩
    rw [first, List.nil_append, entries_cons, other] at same
    exact same

end lists

section rules
variable {eport : UInt16} {proto : Int} {s : Ipf} {passed : Nat}

theorem ruleMatches_byte {ipn : IpNat} (hit : ruleMatches eport proto ipn = true) :
    isByte proto := by
  simp only [ruleMatches, decide_eq_true_eq] at hit
  have small := ipn.inP.toNat_lt
  unfold isByte
  omega

/-- Both attempts together find a rule if there is one. -/
theorem delete_cases (passed : Nat) (eport : UInt16) (proto : Int) (s : Ipf) :
    let s' := (deleteRedirectRule passed eport proto s).2
    (∃ ipn ∈ s.rules, ruleMatches eport proto ipn = true ∧ s'.rules = s.rules.erase ipn ∧
      s'.rdrDescList = delRedirectDesc eport proto s.rdrDescList) ∨
    (∀ ipn ∈ s.rules, ruleMatches eport proto ipn = false) ∧ s' = s := by
  unfold deleteRedirectRule realDeleteRedirectRule
  cases first : (s.rules.drop passed).find? (ruleMatches eport proto) with
  | some ipn =>
    have member := List.mem_of_mem_drop (List.mem_of_find?_eq_some first)
    exact .inl ⟨ipn, member, List.find?_some first, rfl, rfl⟩
  | none =>
    dsimp only
    rw [if_pos rfl]
    cases second : s.rules.find? (ruleMatches eport proto) with
    | some ipn =>
      exact .inl ⟨ipn, List.mem_of_find?_eq_some second, List.find?_some second, rfl, rfl⟩
    | none =>
      have absent := List.find?_eq_none.mp second
      exact .inr ⟨fun ipn member => Bool.eq_false_iff.mpr (absent ipn member), rfl⟩

end rules

section steps
variable {s : State} {eport : UInt16} {proto : Int}

theorem setLive_self (given : Option (CString × Nat)) (live : Live) :
    setLive eport proto given live eport proto = given := if_pos ⟨rfl, rfl⟩

theorem setLive_other {e : UInt16} {p : Int} (other : ¬ (e = eport ∧ p = proto))
    (given : Option (CString × Nat)) (live : Live) :
    setLive eport proto given live e p = live e p := if_neg other

theorem setLive_same {live : Live} {given : Option (CString × Nat)}
    (same : live eport proto = given) : setLive eport proto given live = live := by
  funext e p
  by_cases here : e = eport ∧ p = proto
  · obtain ⟨rfl, rfl⟩ := here
    rw [setLive_self, same]
  · exact setLive_other here given live

/-- What has to be shown of a call that changes one key. -/
theorem described_set {list : List RdrDesc} {live : Live} {given : Option (CString × Nat)} :
    (∀ e p, entries e p list = (setLive eport proto given live e p).toList) ↔
      entries eport proto list = given.toList ∧
        ∀ e p, ¬ (e = eport ∧ p = proto) → entries e p list = (live e p).toList := by
  constructor
  · intro all
    constructor
    · rw [all, setLive_self]
    · intro e p other
      rw [all, setLive_other other]
  · intro both e p
    by_cases here : e = eport ∧ p = proto
    · obtain ⟨rfl, rfl⟩ := here
      rw [both.1, setLive_self]
    · rw [both.2 e p here, setLive_other here]

/-- The list when the mapping is live: its one entry, the entries in front of it and those behind. -/
theorem live_split (described : Described s) {given : CString × Nat}
    (live : s.live eport proto = some given) :
    ∃ front p back, s.ipf.rdrDescList = front ++ p :: back ∧ descMatches eport proto p = true ∧
      (∀ q ∈ front, descMatches eport proto q = false) ∧
      delRedirectDesc eport proto s.ipf.rdrDescList = back ∧ entries eport proto back = [] := by
  have one := described eport proto
  rw [live] at one
  rcases list_cases eport proto s.ipf.rdrDescList with
    ⟨front, p, back, whole, hit, others, removed⟩ | ⟨absent, _⟩
  · refine ⟨front, p, back, whole, hit, others, removed, ?_⟩
    rw [whole, entries_append, entries_cons, if_pos hit, entries_eq_nil.mpr others] at one
    simp only [List.nil_append, Option.toList_some, List.cons.injEq] at one
    exact one.2
  · rw [entries_eq_nil.mpr absent] at one
    cases one

theorem dead_list (described : Described s) (dead : s.live eport proto = none) :
    delRedirectDesc eport proto s.ipf.rdrDescList = s.ipf.rdrDescList := by
  have nothing := described eport proto
  rw [dead] at nothing
  rcases list_cases eport proto s.ipf.rdrDescList with
    ⟨front, p, back, whole, hit, _, _⟩ | ⟨_, same⟩
  · rw [whole] at nothing
    have missing := entries_eq_nil.mp nothing p (by simp)
    rw [hit] at missing
    cases missing
  · exact same

theorem inFront_iff {front back : List RdrDesc} {p : RdrDesc}
    (whole : s.ipf.rdrDescList = front ++ p :: back) (hit : descMatches eport proto p = true)
    (others : ∀ q ∈ front, descMatches eport proto q = false) :
    InFront s eport proto ↔ front = [] := by
  unfold InFront
  rw [whole]
  cases front with
  | nil => simp [hit]
  | cons f front =>
    have other := others f List.mem_cons_self
    simp [other]

theorem add_described (described : Described s) (free : s.live eport proto = none)
    (rhost : Option CString) (iaddr : CString) (iport : UInt16) (desc : CString)
    (timestamp : Nat) :
    Described (step s (.add rhost eport iaddr iport proto desc timestamp)) := by
  have nothing := described eport proto
  rw [free] at nothing
  refine described_set.mpr ⟨?_, ?_⟩
  · simp only [step, addRedirectRule2, addRedirectDesc]
    rw [entries_new, if_pos ⟨rfl, rfl⟩, nothing]
    rfl
  · intro e p other
    simp only [step, addRedirectRule2, addRedirectDesc]
    rw [entries_new, if_neg other, described]

theorem delete_described_iff (described : Described s) (backed : Backed s) (passed : Nat) :
    Described (step s (.delete passed eport proto)) ↔ Reaches s (.delete passed eport proto) := by
  have settled : Described (step s (.delete passed eport proto)) ↔ _ := described_set
  rw [settled]
  simp only [step, Reaches]
  have cases := delete_cases passed eport proto s.ipf
  cases live : s.live eport proto with
  | none =>
    have same : (deleteRedirectRule passed eport proto s.ipf).2.rdrDescList = s.ipf.rdrDescList := by
      rcases cases with ⟨ipn, _, _, _, removed⟩ | ⟨_, same⟩
      · rw [removed, dead_list described live]
      · rw [same]
    rw [same, described eport proto, live]
    simp only [Option.isSome_none, Bool.false_eq_true, false_implies, iff_true, true_and]
    exact fun e p _ => described e p
  | some given =>
    obtain ⟨front, p, back, whole, hit, others, removed, emptied⟩ := live_split described live
    rw [inFront_iff whole hit others]
    simp only [Option.isSome_some, forall_const]
    rcases cases with ⟨ipn, _, match_, _, changed⟩ | ⟨absent, same⟩
    · have byte := ruleMatches_byte match_
      have all : ∀ e p', entries e p' (front ++ p :: back) = (s.live e p').toList := by
        rw [← whole]
        exact described
      rw [changed, removed, emptied, removed_iff all hit others]
      simp [byte]
    · have unbacked : ¬ isByte proto := by
        intro byte
        obtain ⟨ipn, member, found⟩ := backed eport proto byte (by rw [live]; rfl)
        rw [absent ipn member] at found
        cases found
      rw [same, described eport proto, live]
      simp [unbacked]

theorem update_described_iff (described : Described s) (desc : Option CString)
    (timestamp : Nat) :
    Described (step s (.update eport proto desc timestamp)) ↔
      Reaches s (.update eport proto desc timestamp) := by
  have settled : Described (step s (.update eport proto desc timestamp)) ↔ _ := described_set
  rw [settled]
  simp only [step, Reaches, updatePortmappingDescTimestamp]
  cases live : s.live eport proto with
  | none =>
    rw [dead_list described live]
    simp only [Option.isSome_none, Bool.false_eq_true, ↓reduceIte]
    cases desc with
    | none =>
      simp only [addRedirectDesc, iff_true]
      refine ⟨?_, fun e p _ => described e p⟩
      rw [described eport proto, live]
      rfl
    | some str =>
      have more : entries eport proto
          (addRedirectDesc eport proto timestamp (some str) s.ipf.rdrDescList) ≠ [] := by
        rw [addRedirectDesc, entries_new, if_pos ⟨rfl, rfl⟩]
        exact List.cons_ne_nil _ _
      simp only [reduceCtorEq, iff_false]
      intro both
      exact more both.1
  | some given =>
    obtain ⟨front, p, back, whole, hit, others, removed, emptied⟩ := live_split described live
    rw [inFront_iff whole hit others, removed]
    simp only [Option.isSome_some, ↓reduceIte]
    cases desc with
    | none =>
      simp only [addRedirectDesc, emptied, Option.isSome_none, Bool.false_eq_true, and_false,
        iff_false]
      intro both
      cases both.1
    | some str =>
      have all : ∀ e p', entries e p' (front ++ p :: back) = (s.live e p').toList := by
        rw [← whole]
        exact described
      rw [← removed_iff all hit others, addRedirectDesc]
      simp only [Option.isSome_some, and_true]
      constructor
      · intro both e p' other
        have kept := both.2 e p' other
        rw [entries_new, if_neg other] at kept
        exact kept
      · intro kept
        constructor
        · rw [entries_new, if_pos ⟨rfl, rfl⟩, emptied]
          rfl
        · intro e p' other
          rw [entries_new, if_neg other]
          exact kept e p' other

/-- A call keeps the list right exactly if it reaches its entry. -/
theorem step_described_iff (backed : Backed s) (request : Request) (allowed : Allowed s request)
    (described : Described s) : Described (step s request) ↔ Reaches s request := by
  cases request with
  | add rhost eport iaddr iport proto desc timestamp =>
    exact iff_of_true (add_described described allowed rhost iaddr iport desc timestamp) trivial
  | delete passed eport proto => exact delete_described_iff described backed passed
  | update eport proto desc timestamp => exact update_described_iff described desc timestamp

theorem ruleMatches_key {ipn : IpNat} {eport' : UInt16} {proto' : Int}
    (hit : ruleMatches eport proto ipn = true) (also : ruleMatches eport' proto' ipn = true) :
    eport' = eport ∧ proto' = proto := by
  simp only [ruleMatches, decide_eq_true_eq] at hit also
  exact ⟨also.1.trans hit.1.symm, also.2.2.2.symm.trans hit.2.2.2⟩

theorem ruleMatches_added {iport : UInt16} {src : Option InAddr} {client : InAddr}
    (byte : isByte proto) :
    ruleMatches eport proto
      { inP := UInt8.ofInt proto, inPmin := eport, inPmax := eport, inPnext := iport
        inTag := groupName, inSrc := src, inIn := client } = true := by
  obtain ⟨low, high⟩ := byte
  have kept : ((UInt8.ofInt proto).toNat : Int) = proto := by
    simp only [UInt8.ofInt, UInt8.toNat_ofNat']
    omega
  simp [ruleMatches, kept]

theorem step_backed (backed : Backed s) (request : Request) : Backed (step s request) := by
  intro e p byte live
  cases request with
  | add rhost eport iaddr iport proto desc timestamp =>
    by_cases here : e = eport ∧ p = proto
    · obtain ⟨rfl, rfl⟩ := here
      exact ⟨_, List.mem_append_right _ List.mem_cons_self, ruleMatches_added byte⟩
    · simp only [step, setLive_other here] at live
      obtain ⟨ipn, member, found⟩ := backed e p byte live
      exact ⟨ipn, List.mem_append_left _ member, found⟩
  | delete passed eport proto =>
    by_cases here : e = eport ∧ p = proto
    · obtain ⟨rfl, rfl⟩ := here
      simp [step, setLive_self] at live
    · simp only [step, setLive_other here] at live ⊢
      obtain ⟨ipn, member, found⟩ := backed e p byte live
      refine ⟨ipn, ?_, found⟩
      rcases delete_cases passed eport proto s.ipf with ⟨gone, _, hit, rules, _⟩ | ⟨_, same⟩
      · rw [rules]
        apply (List.mem_erase_of_ne ?_).mpr member
        intro same
        exact here (ruleMatches_key hit (same ▸ found))
      · rw [same]
        exact member
  | update eport proto desc timestamp =>
    apply backed e p byte
    by_cases here : e = eport ∧ p = proto
    · obtain ⟨rfl, rfl⟩ := here
      simpa [step, renewed, setLive_self] using live
    · simpa only [step, renewed, setLive_other here] using live

end steps

/-- In a run whose calls add a mapping only where there is none, the list describes all live
    mappings after every call exactly if each call reaches its entry. -/
theorem descriptions_kept_iff (rules : List IpNat) (requests : List Request)
    (all : Admitted step Allowed (.start rules) requests) :
    Always step Described (.start rules) requests ↔
      Admitted step Reaches (.start rules) requests := by
  have backed : Backed (.start rules) := by
    intro eport proto _ live
    cases live
  have start : Described (.start rules) := fun _ _ => rfl
  apply allowed_always_iff Backed (fun s request side _ => step_backed side request) ?_ backed start
    all
  intro s request side allowed described
  exact step_described_iff side request allowed described

/-- The mapping that was added last is updated, and removed. -/
def newestFirst : List Request :=
  [.add none 8080 "192.168.1.2".toList 80 6 "web".toList 100,
    .add none 8081 "192.168.1.2".toList 81 6 "ssh".toList 100,
    .update 8081 6 (some "ssh".toList) 200, .delete 0 8081 6]

theorem newestFirst_kept : Always step Described (.start []) newestFirst := by
  refine (descriptions_kept_iff [] newestFirst ?_).mpr ?_
  · exact ⟨rfl, rfl, trivial, trivial, trivial⟩
  · refine ⟨trivial, trivial, ?_, ?_, trivial⟩
    · exact ⟨⟨_, rfl, rfl⟩, rfl⟩
    · intro _
      exact ⟨by decide, _, rfl, rfl⟩

/-- The mapping that was added first is removed. -/
def oldestFirst : List Request :=
  [.add none 8080 "192.168.1.2".toList 80 6 "web".toList 100,
    .add none 8081 "192.168.1.2".toList 81 6 "ssh".toList 100, .delete 0 8080 6]

theorem oldestFirst_lost :
    Admitted step Allowed (.start []) oldestFirst ∧
      ¬ Always step Described (.start []) oldestFirst := by
  refine ⟨⟨rfl, rfl, trivial, trivial⟩, ?_⟩
  intro run
  have last := always_last run 8081 6
  have gone : entries 8081 6 (oldestFirst.foldl step (.start [])).ipf.rdrDescList = [] := by
    decide
  rw [gone] at last
  cases last

end DescriptionList
