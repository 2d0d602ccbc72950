import MiniUPnPd.Lib.Runs
import MiniUPnPd.NetfilterNft.NftpinholeSpec
import MiniUPnPd.Pf.Obsdrdr
import MiniUPnPd.PinholeRequests

/-!
The uids of the pf and nftables backends are taken from a counter, and a cleaning is all that
keeps the counter away from uids in use. It looks at the least and the greatest uid that it comes
by, but the least is noted only when it does not come by as the greatest so far.
-/
namespace UidNumbering
open CText FirstMatch PinholeLabel PinholeRequests Runs
open PcpServer (In6Addr)

section window

/-- The least and the greatest uid so far. -/
def note (bounds : Int × Int) (uid : Int) : Int × Int :=
  if uid > bounds.2 then (bounds.1, uid)
  else if uid < bounds.1 then (uid, bounds.2)
  else bounds

def bounds (live : List Int) : Int × Int := live.foldl note (2 ^ 31 - 1, -1)

def renumber (bounds : Int × Int) (nextUid : Nat) : Nat :=
  if bounds.2 > 0 then
    let next :=
      if bounds.1 - 32000 ≤ nextUid ∧ (nextUid : Int) ≤ bounds.2 then (bounds.2 + 1).toNat
      else nextUid
    if next ≥ 65535 then 1 else next
  else nextUid

/-- A uid that is negative or comes behind one as large is near the counter or below. -/
def Near (nextUid : Nat) (live : List Int) : Prop :=
  ∃ (front : List Int) (uid : Int) (back : List Int), live = front ++ uid :: back ∧
    (uid < 0 ∨ ∃ v ∈ front, uid ≤ v) ∧ uid ≤ nextUid + 32000

/-- The counter does not come to one of the uids in use now. `live` are those that the cleaning
    has come by. -/
def Clear (nextUid : Nat) (live now : List Int) : Prop :=
  ((∃ v ∈ live, (nextUid : Int) ≤ v) ∧ Near nextUid live →
    ¬ ((∃ v ∈ live, 65534 ≤ v) ∧ 1 ∈ now)) ∧
  (¬ ((∃ v ∈ live, (nextUid : Int) ≤ v) ∧ Near nextUid live) → (nextUid : Int) ∉ now)

variable {live : List Int} {start : Int × Int}

theorem note_max (b : Int × Int) (uid : Int) : (note b uid).2 = max b.2 uid := by
  unfold note
  split
  · dsimp only
    omega
  · split
    · dsimp only
      omega
    · omega

/-- The greatest is one of these uids, and none is greater. -/
theorem bounds_max : (∀ v ∈ live, v ≤ (live.foldl note start).2) ∧
    start.2 ≤ (live.foldl note start).2 ∧
    ((live.foldl note start).2 = start.2 ∨ (live.foldl note start).2 ∈ live) := by
  induction live generalizing start with
  | nil => simp
  | cons u rest ih =>
    obtain ⟨above, atLeast, attained⟩ := @ih (note start u)
    rw [note_max] at atLeast
    rw [List.foldl_cons]
    refine ⟨?_, by omega, ?_⟩
    · intro v inside
      rcases List.mem_cons.mp inside with rfl | later
      · omega
      · exact above v later
    · rcases attained with same | later
      · rw [same, note_max]
        rcases Int.le_total start.2 u with new | old
        · rw [max_eq_right new]
          exact .inr List.mem_cons_self
        · exact .inl (max_eq_left old)
      · exact .inr (List.mem_cons_of_mem u later)

/-- The least is within a bound if it was from the start, or by a uid that is not above all that
    came before. -/
theorem bounds_min (limit : Int) : (live.foldl note start).1 ≤ limit ↔
    start.1 ≤ limit ∨ ∃ front uid back, live = front ++ uid :: back ∧
      (uid ≤ start.2 ∨ ∃ v ∈ front, uid ≤ v) ∧ uid ≤ limit := by
  induction live generalizing start with
  | nil => simp
  | cons u rest ih =>
    rw [List.foldl_cons, ih, note_max]
    constructor
    · intro found
      rcases found with first | ⟨front, uid, back, rfl, passed, small⟩
      · unfold note at first
        split at first
        · exact .inl first
        · split at first
          · exact .inr ⟨[], u, rest, rfl, .inl (by omega), first⟩
          · exact .inl first
      · refine .inr ⟨u :: front, uid, back, rfl, ?_, small⟩
        rcases passed with below | ⟨v, inside, below⟩
        · rcases Int.le_total start.2 u with new | old
          · exact .inr ⟨u, List.mem_cons_self, by omega⟩
          · exact .inl (by omega)
        · exact .inr ⟨v, List.mem_cons_of_mem u inside, below⟩
    · intro found
      rcases found with first | ⟨front, uid, back, split_, passed, small⟩
      · left
        unfold note
        split
        · exact first
        · split
          · dsimp only
            omega
          · exact first
      · cases front with
        | nil =>
          obtain ⟨rfl, rfl⟩ := List.cons.inj split_
          have below : u ≤ start.2 := by simpa using passed
          left
          unfold note
          rw [if_neg (by omega)]
          split
          · exact small
          · omega
        | cons first front =>
          obtain ⟨rfl, rfl⟩ := List.cons.inj split_
          refine .inr ⟨front, uid, back, rfl, ?_, small⟩
          rcases passed with below | ⟨v, inside, below⟩
          · exact .inl (by omega)
          · rcases List.mem_cons.mp inside with rfl | later
            · exact .inl (by omega)
            · exact .inr ⟨v, later, below⟩

theorem near_iff {nextUid : Nat} (bounded : nextUid < 65535) :
    (bounds live).1 - 32000 ≤ nextUid ↔ Near nextUid live := by
  have exact := @bounds_min live (2 ^ 31 - 1, -1) (nextUid + 32000)
  unfold bounds Near
  constructor
  · intro near
    rcases exact.mp (by omega) with far | ⟨front, uid, back, same, passed, small⟩
    · omega
    · refine ⟨front, uid, back, same, ?_, small⟩
      rcases passed with negative | behind
      · exact .inl (by omega)
      · exact .inr behind
  · intro near
    obtain ⟨front, uid, back, same, passed, small⟩ := near
    have behind : uid ≤ -1 ∨ ∃ v ∈ front, uid ≤ v := by
      rcases passed with negative | behind
      · exact .inl (by omega)
      · exact .inr behind
    have within := exact.mpr (.inr ⟨front, uid, back, same, behind, small⟩)
    omega

/-- The next uid after a cleaning is one in use exactly if the counter is not clear. -/
theorem renumber_mem_iff {nextUid : Nat} (positive : 0 < nextUid) (bounded : nextUid < 65535)
    {now : List Int} (inside : ∀ uid ∈ now, uid ∈ live) :
    (renumber (bounds live) nextUid : Int) ∉ now ↔ Clear nextUid live now := by
  obtain ⟨above, atLeast, attained⟩ := @bounds_max live (2 ^ 31 - 1, -1)
  have near := @near_iff live nextUid bounded
  have reaches : (∃ v ∈ live, (nextUid : Int) ≤ v) ↔ (nextUid : Int) ≤ (bounds live).2 := by
    constructor
    · intro one
      obtain ⟨v, listed, low⟩ := one
      exact Int.le_trans low (above v listed)
    · intro low
      rcases attained with start | listed
      · unfold bounds at low
        dsimp only at start
        omega
      · exact ⟨_, listed, low⟩
  unfold renumber Clear
  rw [← near, reaches, and_comm (a := (nextUid : Int) ≤ (bounds live).2)]
  by_cases window : (bounds live).1 - 32000 ≤ nextUid ∧ (nextUid : Int) ≤ (bounds live).2
  · rw [if_pos (by omega)]
    simp only [window, and_self, ↓reduceIte, true_imp_iff, not_true_eq_false, false_imp_iff,
      and_true]
    by_cases top : 65534 ≤ (bounds live).2
    · have high : ∃ v ∈ live, 65534 ≤ v := by
        rcases attained with start | listed
        · unfold bounds at top
          dsimp only at start
          omega
        · exact ⟨_, listed, top⟩
      rw [if_pos (by omega)]
      simp [high]
    · have low : ¬ ∃ v ∈ live, 65534 ≤ v := by
        intro one
        obtain ⟨v, listed, high⟩ := one
        have most := above v listed
        unfold bounds at top
        omega
      have value : (((bounds live).2 + 1).toNat : Int) = (bounds live).2 + 1 := by omega
      have fresh : (bounds live).2 + 1 ∉ now := by
        intro used
        have most := above _ (inside _ used)
        unfold bounds at most
        omega
      rw [if_neg (by omega), value]
      simp [fresh, low]
  · simp only [window, ↓reduceIte, false_imp_iff, not_false_eq_true, true_imp_iff, true_and]
    have low : ¬ nextUid ≥ 65535 := by omega
    rw [if_neg low, ite_self]

theorem renumber_range {nextUid : Nat} (positive : 0 < nextUid) (bounded : nextUid < 65535)
    (b : Int × Int) : 0 < renumber b nextUid ∧ renumber b nextUid < 65535 := by
  unfold renumber
  split
  · dsimp only
    split <;> split <;> omega
  · omega

end window

/-- The pinhole functions of a backend. The uids are those in the labels, in the order in which a
    cleaning comes by. -/
structure Backend where
  State : Type
  Addition : Type
  Deletion : Type
  clean : Nat → State → State
  add : Addition → State → State
  delete : Deletion → State → State
  nextUid : State → Nat
  uids : State → List Int

structure Backend.Lawful (b : Backend) : Prop where
  clean_uids : ∀ now s, (b.uids (b.clean now s)).Sublist (b.uids s)
  clean_nextUid : ∀ now s,
    b.nextUid (b.clean now s) = renumber (bounds (b.uids (b.clean now s))) (b.nextUid s)
  add_uids : ∀ a s, b.nextUid s < 65535 →
    b.uids (b.add a s) = (b.nextUid s : Int) :: b.uids s
  add_nextUid : ∀ a s, b.nextUid (b.add a s) = Nftpinhole.succUid (b.nextUid s)
  delete_uids : ∀ d s, (b.uids (b.delete d s)).Sublist (b.uids s)
  delete_nextUid : ∀ d s, b.nextUid (b.delete d s) = b.nextUid s

inductive Call (b : Backend) where
  | clean (now : Nat)
  | add (a : b.Addition)
  | delete (d : b.Deletion)

/-- With the counter and the uids that the last cleaning has found, until a pinhole is added. -/
structure Recalled (b : Backend) where
  state : b.State
  found : Option (Nat × List Int)

section runs
variable {b : Backend}

def step (r : Recalled b) : Call b → Recalled b
  | .clean now =>
      let s := b.clean now r.state
      { state := s, found := some (b.nextUid r.state, b.uids s) }
  | .add a => { state := b.add a r.state, found := none }
  | .delete d => { state := b.delete d r.state, found := r.found }

/-- A pinhole is added after a cleaning. -/
def CleanedBefore (r : Recalled b) : Call b → Prop
  | .add _ => r.found.isSome
  | _ => True

/-- The counter is clear when a pinhole is added. -/
def Meets (r : Recalled b) : Call b → Prop
  | .add _ => ∀ f ∈ r.found, Clear f.1 f.2 (b.uids r.state)
  | _ => True

def Distinct (r : Recalled b) : Prop := (b.uids r.state).Nodup

/-- What the last cleaning has found is what the counter was set from. -/
structure Known (r : Recalled b) : Prop where
  positive : 0 < b.nextUid r.state
  bounded : b.nextUid r.state < 65535
  range : ∀ f ∈ r.found, 0 < f.1 ∧ f.1 < 65535
  counter : ∀ f ∈ r.found, b.nextUid r.state = renumber (bounds f.2) f.1
  inside : ∀ f ∈ r.found, ∀ uid ∈ b.uids r.state, uid ∈ f.2

theorem succUid_range (uid : Nat) :
    0 < Nftpinhole.succUid uid ∧ Nftpinhole.succUid uid < 65535 := by
  unfold Nftpinhole.succUid
  split <;> omega

variable (lawful : b.Lawful)
include lawful

theorem step_known (r : Recalled b) (call : Call b) (known : Known r) : Known (step r call) := by
  cases call with
  | clean now =>
    have range := renumber_range known.positive known.bounded
      (bounds (b.uids (b.clean now r.state)))
    have counter := lawful.clean_nextUid now r.state
    rw [← counter] at range
    refine ⟨range.1, range.2, ?_, ?_, ?_⟩
    · intro f found
      obtain rfl := Option.some.inj found
      exact ⟨known.positive, known.bounded⟩
    · intro f found
      obtain rfl := Option.some.inj found
      exact counter
    · intro f found uid used
      obtain rfl := Option.some.inj found
      exact used
  | add a =>
    have range := succUid_range (b.nextUid r.state)
    rw [← lawful.add_nextUid a r.state] at range
    refine ⟨range.1, range.2, ?_, ?_, ?_⟩
    · intro f found
      simp [step] at found
    · intro f found
      simp [step] at found
    · intro f found
      simp [step] at found
  | delete d =>
    have counter := lawful.delete_nextUid d r.state
    refine ⟨?_, ?_, known.range, ?_, ?_⟩
    · exact counter ▸ known.positive
    · exact counter ▸ known.bounded
    · intro f found
      exact counter.trans (known.counter f found)
    · intro f found uid used
      exact known.inside f found uid ((lawful.delete_uids d r.state).subset used)

theorem step_distinct_iff (r : Recalled b) (call : Call b) (known : Known r)
    (allowed : CleanedBefore r call) (distinct : Distinct r) :
    Distinct (step r call) ↔ Meets r call := by
  cases call with
  | clean now => exact iff_of_true (distinct.sublist (lawful.clean_uids now r.state)) trivial
  | delete d => exact iff_of_true (distinct.sublist (lawful.delete_uids d r.state)) trivial
  | add a =>
    obtain ⟨f, found⟩ := Option.isSome_iff_exists.mp allowed
    have range := known.range f found
    have exact := renumber_mem_iff range.1 range.2 (known.inside f found)
    rw [← known.counter f found] at exact
    have fresh : Distinct (step r (.add a)) ↔ (b.nextUid r.state : Int) ∉ b.uids r.state := by
      unfold Distinct
      simp only [step]
      rw [lawful.add_uids a r.state known.bounded, List.nodup_cons]
      exact and_iff_left distinct
    rw [fresh, exact]
    constructor
    · intro clear g same
      obtain rfl := Option.some.inj (found.symm.trans same)
      exact clear
    · intro all
      exact all f found

/-- From pinholes with different uids and a counter at 1, the uids stay different exactly as long
    as the counter is clear at every addition. -/
theorem always_distinct_iff {start : b.State} (fresh : b.nextUid start = 1)
    (distinct : (b.uids start).Nodup) {calls : List (Call b)}
    (cleaned : Admitted step CleanedBefore { state := start, found := none } calls) :
    Always step Distinct { state := start, found := none } calls ↔
      Admitted step Meets { state := start, found := none } calls := by
  have known : Known ({ state := start, found := none } : Recalled b) := by
    refine ⟨?_, ?_, ?_, ?_, ?_⟩
    · dsimp only
      omega
    · dsimp only
      omega
    · intro f found
      simp at found
    · intro f found
      simp at found
    · intro f found
      simp at found
  exact allowed_always_iff Known (fun r call known _ => step_known lawful r call known)
    (fun r call known allowed distinct => step_distinct_iff lawful r call known allowed distinct)
    known distinct cleaned

end runs

/-- The uid in a label. -/
def labelUid (label : CString) : Option Int := (scanLabel label).map Prod.fst

/-- The label is not that of a pinhole that expires at this time. -/
def staysAt (now : Nat) (label : CString) : Bool := !NftpinholeSpec.expires now label

section pf
open Obsdrdr
variable {cfg : Config} {now : Nat}

abbrev passRules (cfg : Config) (s : Obsdrdr.State) : List Rule := s.rules (rulesetOf cfg .PF_PASS)

def ruleUids (rules : List Rule) : List Int := rules.filterMap fun r => labelUid r.label

theorem ruleUids_unseen {r : Rule} (unseen : labelUid r.label = none) (rules : List Rule) :
    ruleUids (r :: rules) = ruleUids rules := List.filterMap_cons_none unseen

theorem ruleUids_seen {r : Rule} {uid : Int} (seen : labelUid r.label = some uid)
    (rules : List Rule) : ruleUids (r :: rules) = uid :: ruleUids rules :=
  List.filterMap_cons_some seen

/-- The rules are read from the last one to the first. -/
def pfUids (cfg : Config) (s : Obsdrdr.State) : List Int := ruleUids (passRules cfg s).reverse

def pf (cfg : Config) : Backend where
  State := Obsdrdr.State
  Addition := Option CString × PinholeRequest
  Deletion := UInt16
  clean := fun now s => (cleanPinholeList cfg now s).2
  add := fun (ifname, req) s =>
    (addPinhole cfg ifname req.remHost req.remPort req.intClient req.intPort req.proto req.desc
      req.timestamp.toNat s).2
  delete := fun uid s => (deletePinhole cfg uid s).2
  nextUid := Obsdrdr.State.nextUid
  uids := pfUids cfg

theorem passRules_removed (s : Obsdrdr.State) (i : Nat) :
    passRules cfg (s.removeRule (rulesetOf cfg .PF_PASS) i) = (passRules cfg s).eraseIdx i :=
  Function.update_self ..

/-- The loop has the rules from `i` on behind it. -/
theorem pf_cleanLoop (i : Nat) (c : Obsdrdr.Cleaning) (s : Obsdrdr.State)
    (inside : i ≤ (passRules cfg s).length) :
    let out := cleanLoop cfg now i c s
    let left := ((passRules cfg s).take i).filter fun r => staysAt now r.label
    passRules cfg out.2 = left ++ (passRules cfg s).drop i ∧ out.2.nextUid = s.nextUid ∧
      (out.1.minUid, out.1.maxUid) =
        (ruleUids left.reverse).foldl note (c.minUid, c.maxUid) := by
  induction i generalizing c s with
  | zero => exact ⟨rfl, rfl, rfl⟩
  | succ i ih =>
    have here : i < (passRules cfg s).length := inside
    obtain ⟨r, at_⟩ : ∃ r, (passRules cfg s)[i]? = some r := ⟨_, List.getElem?_eq_getElem here⟩
    have tail : (passRules cfg s).drop i = r :: (passRules cfg s).drop (i + 1) := by
      rw [List.drop_eq_getElem_cons here]
      rw [List.getElem?_eq_getElem here] at at_
      rw [Option.some.inj at_]
    have head : (passRules cfg s).take (i + 1) = (passRules cfg s).take i ++ [r] := by
      rw [List.take_add_one, at_]
      rfl
    unfold cleanLoop
    rw [at_, Option.bind_some, head, List.filter_append]
    cases read : scanLabel r.label with
    | none =>
      have stays : staysAt now r.label = true := by
        simp [staysAt, NftpinholeSpec.expires, read]
      have unseen : labelUid r.label = none := by simp [labelUid, read]
      have kept : [r].filter (fun r => staysAt now r.label) = [r] := by simp [stays]
      obtain ⟨rules, counter, noted⟩ := ih c s (by omega)
      dsimp only
      rw [kept, List.reverse_append]
      refine ⟨?_, counter, ?_⟩
      · rw [rules, tail, List.append_assoc, List.singleton_append]
      · rw [noted, List.reverse_singleton, List.singleton_append, ruleUids_unseen unseen]
    | some number =>
      obtain ⟨uid, ts⟩ := number
      have expiry : NftpinholeSpec.expires now r.label = decide (ts ≤ now) :=
        NftpinholeSpec.expires_of_scanLabel read
      dsimp only
      by_cases old : ts ≤ now
      · have goes : staysAt now r.label = false := by simp [staysAt, expiry, old]
        have gone : [r].filter (fun r => staysAt now r.label) = [] := by simp [goes]
        have rest := ih { c with n := c.n + 1 } (s.removeRule (rulesetOf cfg .PF_PASS) i) (by
          rw [passRules_removed, List.length_eraseIdx, if_pos here]
          omega)
        rw [passRules_removed, List.eraseIdx_eq_take_drop_succ] at rest
        have front : ((passRules cfg s).take i ++ (passRules cfg s).drop (i + 1)).take i =
            (passRules cfg s).take i := by
          rw [List.take_append_of_le_length (by rw [List.length_take]; omega), List.take_take,
            Nat.min_self]
        have back : ((passRules cfg s).take i ++ (passRules cfg s).drop (i + 1)).drop i =
            (passRules cfg s).drop (i + 1) := List.drop_left' (by rw [List.length_take]; omega)
        rw [front, back] at rest
        rw [if_pos old, gone, List.append_nil]
        exact rest
      · have stays : staysAt now r.label = true := by simp [staysAt, expiry, old]
        have kept : [r].filter (fun r => staysAt now r.label) = [r] := by simp [stays]
        have seen : labelUid r.label = some uid := by simp [labelUid, read]
        rw [if_neg old, kept, List.reverse_append]
        generalize next : ({ (if uid > c.maxUid then { c with maxUid := uid }
          else if uid < c.minUid then { c with minUid := uid } else c : Obsdrdr.Cleaning) with
            minTs := _ } : Obsdrdr.Cleaning) = c'
        have both : (c'.minUid, c'.maxUid) = note (c.minUid, c.maxUid) uid := by
          rw [← next]
          unfold note
          dsimp only
          split
          · rfl
          · split <;> rfl
        obtain ⟨rules, counter, noted⟩ := ih c' s (by omega)
        refine ⟨?_, counter, ?_⟩
        · rw [rules, tail, List.append_assoc, List.singleton_append]
        · rw [noted, both, List.reverse_singleton, List.singleton_append, ruleUids_seen seen,
            List.foldl_cons]

section calls
variable (cfg : Config) (s : Obsdrdr.State)

theorem pf_cleaned (now : Nat) :
    passRules cfg (cleanPinholeList cfg now s).2 =
        (passRules cfg s).filter (fun r => staysAt (now % 2 ^ 32) r.label) ∧
      (cleanPinholeList cfg now s).2.nextUid =
        renumber (bounds (pfUids cfg (cleanPinholeList cfg now s).2)) s.nextUid := by
  obtain ⟨rules, counter, noted⟩ := @pf_cleanLoop cfg (now % 2 ^ 32) (passRules cfg s).length
    { minTs := UINT_MAX, minUid := INT_MAX, maxUid := -1, n := 0 } s (Nat.le_refl _)
  rw [List.drop_length, List.append_nil, List.take_length] at rules
  rw [List.take_length] at noted
  have left : passRules cfg (cleanPinholeList cfg now s).2 =
      (passRules cfg s).filter (fun r => staysAt (now % 2 ^ 32) r.label) := rules
  refine ⟨left, ?_⟩
  have start : ((2 ^ 31 - 1, -1) : Int × Int) = (INT_MAX, -1) := rfl
  unfold bounds pfUids
  rw [left, start, ← noted, ← counter]
  rfl

theorem pf_left (now : Nat) :
    (pfUids cfg (cleanPinholeList cfg now s).2).Sublist (pfUids cfg s) := by
  have sub : (passRules cfg (cleanPinholeList cfg now s).2).Sublist (passRules cfg s) := by
    rw [(pf_cleaned cfg s now).1]
    exact List.filter_sublist
  exact List.Sublist.filterMap _ (List.reverse_sublist.mpr sub)

theorem pf_added (ifname : Option CString) (req : PinholeRequest) (bounded : s.nextUid < 65535) :
    pfUids cfg (addPinhole cfg ifname req.remHost req.remPort req.intClient req.intPort req.proto
        req.desc req.timestamp.toNat s).2 = (s.nextUid : Int) :: pfUids cfg s := by
  have few : s.nextUid < 10 ^ 5 := Nat.lt_trans bounded (by decide)
  have room : 29 ≤ Pfpinhole.PF_RULE_LABEL_SIZE - 1 := by decide
  have read := scanLabel_cut req.desc few req.timestamp.toNat_lt room
  obtain ⟨r, label, rules⟩ : ∃ r : Rule, r.label = (pinholeLabel s.nextUid req.timestamp.toNat
      req.desc).take (Pfpinhole.PF_RULE_LABEL_SIZE - 1) ∧
      passRules cfg (addPinhole cfg ifname req.remHost req.remPort req.intClient req.intPort
        req.proto req.desc req.timestamp.toNat s).2 = passRules cfg s ++ [r] :=
    ⟨_, rfl, Function.update_self ..⟩
  have seen : labelUid r.label = some (s.nextUid : Int) := by rw [labelUid, label, read]; rfl
  unfold pfUids
  rw [rules, List.reverse_append, List.reverse_singleton, List.singleton_append,
    ruleUids_seen seen]

theorem pf_deleted (uid : UInt16) :
    (pfUids cfg (deletePinhole cfg uid s).2).Sublist (pfUids cfg s) ∧
      (deletePinhole cfg uid s).2.nextUid = s.nextUid := by
  unfold deletePinhole
  split
  · exact ⟨List.Sublist.refl _, rfl⟩
  · rename_i i r found
    have rules : (passRules cfg (s.removeRule (rulesetOf cfg .PF_PASS) i)).Sublist
        (passRules cfg s) := by
      rw [passRules_removed]
      exact List.eraseIdx_sublist _ _
    exact ⟨List.Sublist.filterMap _ (List.reverse_sublist.mpr rules), rfl⟩

end calls

theorem pf_lawful (cfg : Config) : (pf cfg).Lawful where
  clean_uids := fun now s => pf_left cfg s now
  clean_nextUid := fun now s => (pf_cleaned cfg s now).2
  add_uids := fun a s bounded => pf_added cfg s a.1 a.2 bounded
  add_nextUid := fun _ _ => rfl
  delete_uids := fun uid s => (pf_deleted cfg s uid).1
  delete_nextUid := fun uid s => (pf_deleted cfg s uid).2

end pf

section nft
open Nftnlrdr NftnlrdrMisc NftnlrdrMiscSpec Nftpinhole NftpinholeSpec

def cachedUids (ps : List RuleT) : List Int := ps.filterMap fun p => labelUid p.desc

theorem cachedUids_unseen {p : RuleT} (unseen : labelUid p.desc = none) (ps : List RuleT) :
    cachedUids (p :: ps) = cachedUids ps := List.filterMap_cons_none unseen

theorem cachedUids_seen {p : RuleT} {uid : Int} (seen : labelUid p.desc = some uid)
    (ps : List RuleT) : cachedUids (p :: ps) = uid :: cachedUids ps :=
  List.filterMap_cons_some seen

def nftUids (s : Pinholes) : List Int := cachedUids (labelled s)

def nft : Backend where
  State := Pinholes
  Addition := (In6Addr × In6Addr) × Option Nat × PinholeRequest
  Deletion := List Char × UInt16
  clean := fun now s => (Nftpinhole.cleanPinholeList now s).2
  add := fun (stack, ifIdx, req) s =>
    (Nftpinhole.addPinhole stack ifIdx req.remHost req.remPort req.intClient req.intPort
      req.proto req.desc req.timestamp.toNat s).2
  delete := fun (tmpLabel, uid) s => (Nftpinhole.deletePinhole tmpLabel uid s).2
  nextUid := Pinholes.nextUid
  uids := nftUids

/-- The cleaning leaves the rules that do not expire. -/
theorem nft_labelled (now : Nat) (s : Pinholes) :
    labelled (Nftpinhole.cleanPinholeList now s).2 =
      (labelled s).filter fun p => staysAt (now % 2 ^ 32) p.desc := by
  rw [labelled_eq, labelled_eq, clean_rules, List.filter_map, List.filter_filter,
    List.filter_filter]
  congr 1
  apply List.filter_congr
  intro rule _
  rw [Function.comp_apply, (tableCb_frame _ rule).2, staysAt]
  cases shown rule <;> simp

theorem nft_cleanLoop (now : Nat) (ps : List RuleT) (c : Nftpinhole.Cleaning) (s : Pinholes) :
    let out := Nftpinhole.cleanLoop now ps c s
    (out.1.minUid, out.1.maxUid) =
      (cachedUids (ps.filter fun p => staysAt now p.desc)).foldl note (c.minUid, c.maxUid) := by
  induction ps generalizing c s with
  | nil => rfl
  | cons p ps ih =>
    unfold Nftpinhole.cleanLoop
    cases read : scanLabel p.desc with
    | none =>
      have stays : staysAt now p.desc = true := by simp [staysAt, expires, read]
      have unseen : labelUid p.desc = none := by simp [labelUid, read]
      rw [List.filter_cons, if_pos stays, cachedUids_unseen unseen]
      exact ih c s
    | some number =>
      obtain ⟨uid, ts⟩ := number
      have expiry : expires now p.desc = decide (ts ≤ now) := expires_of_scanLabel read
      dsimp only
      by_cases old : ts ≤ now
      · have goes : ¬ staysAt now p.desc = true := by simp [staysAt, expiry, old]
        rw [if_pos old, List.filter_cons, if_neg goes]
        exact ih { c with n := c.n + 1 } _
      · have stays : staysAt now p.desc = true := by simp [staysAt, expiry, old]
        have seen : labelUid p.desc = some uid := by simp [labelUid, read]
        rw [if_neg old, List.filter_cons, if_pos stays, cachedUids_seen seen, List.foldl_cons]
        generalize next : ({ (if uid > c.maxUid then { c with maxUid := uid }
          else if uid < c.minUid then { c with minUid := uid } else c : Nftpinhole.Cleaning) with
            minTs := _ } : Nftpinhole.Cleaning) = c'
        have both : (c'.minUid, c'.maxUid) = note (c.minUid, c.maxUid) uid := by
          rw [← next]
          unfold note
          dsimp only
          split
          · rfl
          · split <;> rfl
        rw [← both]
        exact ih c' s

section calls
variable (s : Pinholes)

theorem nft_cleaned (now : Nat) :
    (Nftpinhole.cleanPinholeList now s).2.nextUid =
      renumber (bounds (nftUids (Nftpinhole.cleanPinholeList now s).2)) s.nextUid := by
  have noted := nft_cleanLoop (now % 2 ^ 32) (labelled s)
    { minTs := Nftpinhole.UINT_MAX, minUid := Nftpinhole.INT_MAX, maxUid := -1, n := 0 } s
  have counter := cleanLoop_nextUid (now % 2 ^ 32) (labelled s)
    { minTs := Nftpinhole.UINT_MAX, minUid := Nftpinhole.INT_MAX, maxUid := -1, n := 0 } s
  have start : ((2 ^ 31 - 1, -1) : Int × Int) = (Nftpinhole.INT_MAX, -1) := rfl
  unfold bounds nftUids
  rw [nft_labelled, start, ← noted, ← counter]
  rfl

theorem nft_left (now : Nat) :
    (nftUids (Nftpinhole.cleanPinholeList now s).2).Sublist (nftUids s) := by
  have sub : (labelled (Nftpinhole.cleanPinholeList now s).2).Sublist (labelled s) := by
    rw [nft_labelled]
    exact List.filter_sublist
  exact List.Sublist.filterMap _ sub

theorem nft_added (stack : In6Addr × In6Addr) (ifIdx : Option Nat) (req : PinholeRequest) :
    nftUids (Nftpinhole.addPinhole stack ifIdx req.remHost req.remPort req.intClient req.intPort
        req.proto req.desc req.timestamp.toNat s).2 = (s.nextUid : Int) :: nftUids s := by
  have small : s.nextUid < 65536 := Nat.lt_trans s.bounded (by decide)
  have read := writtenLabel_read small req.timestamp.toNat_lt req.desc
  have reads := readsPinhole s.nft.forward.nextHandle
    (writtenLabel s.nextUid req.timestamp.toNat req.desc) ifIdx req.proto
    ((remoteGiven req.remHost).map fun text => (Inet.inetPton6 text).getD stack.1)
    ((Inet.inetPton6 req.intClient).getD stack.2) req.intPort req.remPort
  have list := labelled_newRule s (scanLabel_nonempty read) _ reads.type
  have seen : labelUid (writtenLabel s.nextUid req.timestamp.toNat req.desc) =
      some (s.nextUid : Int) := by rw [labelUid, read]; rfl
  rw [← reads.desc] at seen
  exact (congrArg cachedUids list).trans (List.filterMap_cons_some seen)

theorem nft_deleted (tmpLabel : List Char) (uid : UInt16) :
    (nftUids (Nftpinhole.deletePinhole tmpLabel uid s).2).Sublist (nftUids s) ∧
      (Nftpinhole.deletePinhole tmpLabel uid s).2.nextUid = s.nextUid := by
  unfold Nftpinhole.deletePinhole
  split
  · rename_i p _
    have rules : (labelled (s.delRule p.handle)).Sublist (labelled s) := by
      rw [labelled_eq, labelled_eq, delRule_rules]
      exact (List.filter_sublist.filter shown).map _
    exact ⟨List.Sublist.filterMap _ rules, rfl⟩
  · exact ⟨List.Sublist.refl _, rfl⟩

end calls

theorem nft_lawful : nft.Lawful where
  clean_uids := fun now s => nft_left s now
  clean_nextUid := fun now s => nft_cleaned s now
  add_uids := fun a s _ => nft_added s a.1 a.2.1 a.2.2
  add_nextUid := fun _ _ => rfl
  delete_uids := fun d s => (nft_deleted s d.1 d.2).1
  delete_nextUid := fun d s => (nft_deleted s d.1 d.2).2

end nft

/-- The backends, pf in each of its configurations. -/
inductive Build where
  | pf (cfg : Obsdrdr.Config)
  | nft

def Build.backend : Build → Backend
  | .pf cfg => UidNumbering.pf cfg
  | .nft => UidNumbering.nft

theorem backend_lawful (build : Build) : build.backend.Lawful := by
  cases build with
  | pf cfg => exact pf_lawful cfg
  | nft => exact nft_lawful

/-- In both backends, for any pinholes at the start, the uids are always different exactly if they
    are at the start and the counter is clear at every addition. -/
theorem uids_distinct_iff (build : Build) (start : build.backend.State)
    (fresh : build.backend.nextUid start = 1) (calls : List (Call build.backend))
    (cleaned : Admitted step CleanedBefore { state := start, found := none } calls) :
    Always step Distinct { state := start, found := none } calls ↔
      (build.backend.uids start).Nodup ∧
        Admitted step Meets { state := start, found := none } calls := by
  have exact := fun distinct =>
    always_distinct_iff (backend_lawful build) fresh distinct cleaned
  constructor
  · intro run
    have first : Distinct { state := start, found := none } := always_start run
    have distinct : (build.backend.uids start).Nodup := first
    exact ⟨distinct, (exact distinct).mp run⟩
  · intro both
    exact (exact both.1).mpr both.2

section examples

def oldStyle : Obsdrdr.Config :=
  { newstyle := false
    enableFilterRules := true
    portTriggering := false
    useIfnameInRules := false
    setDstAddr := none }

def web : PinholeRequest :=
  { remHost := none
    remPort := 0
    intClient := "2001:db8::2".toList
    intPort := 80
    proto := 6
    desc := "web".toList
    timestamp := 300 }

def restarted : Obsdrdr.State :=
  (Obsdrdr.addPinhole oldStyle none none 0 "2001:db8::3".toList 22 6 "ssh".toList 300
    Obsdrdr.State.start).2

theorem uids_distinct_web :
    Always step Distinct ({ state := Obsdrdr.State.start, found := none } :
        Recalled (Build.pf oldStyle).backend) [.clean 100, .add (none, web), .delete (1 : UInt16)] ↔
      ((Build.pf oldStyle).backend.uids Obsdrdr.State.start).Nodup ∧
        Admitted step Meets ({ state := Obsdrdr.State.start, found := none } :
          Recalled (Build.pf oldStyle).backend)
          [.clean 100, .add (none, web), .delete (1 : UInt16)] :=
  uids_distinct_iff (.pf oldStyle) Obsdrdr.State.start rfl
    [.clean 100, .add (none, web), .delete (1 : UInt16)] ⟨trivial, rfl, trivial, trivial⟩

/-- The pinhole of an earlier daemon is the only one that the cleaning comes by. -/
theorem uid_taken :
    ((Build.pf oldStyle).backend.uids { restarted with nextUid := 1 }).Nodup ∧
      Admitted step CleanedBefore ({ state := { restarted with nextUid := 1 }, found := none } :
        Recalled (Build.pf oldStyle).backend) [.clean 100, .add (none, web)] ∧
      ¬ Always step Distinct ({ state := { restarted with nextUid := 1 }, found := none } :
        Recalled (Build.pf oldStyle).backend) [.clean 100, .add (none, web)] := by
  refine ⟨by decide +kernel, ⟨trivial, rfl, trivial⟩, ?_⟩
  intro run
  have last : (pfUids oldStyle (Obsdrdr.addPinhole oldStyle none none 0 "2001:db8::2".toList 80 6
      "web".toList 300 (Obsdrdr.cleanPinholeList oldStyle 100
        { restarted with nextUid := 1 }).2).2).Nodup := run.2.2
  exact absurd last (by decide +kernel)

end examples

end UidNumbering
