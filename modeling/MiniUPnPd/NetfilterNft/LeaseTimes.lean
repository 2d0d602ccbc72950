import MiniUPnPd.Lib.Runs
import MiniUPnPd.NetfilterNft.Nftnlrdr
import MiniUPnPd.NetfilterNft.NftnlrdrMiscSpec

/-!
The expiry times of the nftables backend. The newest entry for a mapping always has its latest
expiry time, but entries are left behind when a mapping is removed or replaced, and added where
there is no mapping.
-/
namespace LeaseTimes
open FirstMatch Nftnlrdr NftnlrdrMiscSpec Runs

inductive Request where
  | addRedirect (ifIdx : Option Nat) (rhost : Option CString) (eport : UInt16) (iaddr : CString)
      (iport : UInt16) (proto : UInt8) (desc : Option CString) (timestamp : Nat)
  | delete (eport : UInt16) (proto : UInt8)
  | update (ifIdx : Option Nat) (buffers : Buffers) (eport : UInt16) (proto : UInt8)
      (iport : UInt16) (desc : Option CString) (timestamp : Nat)
  | updateDescTimestamp (eport : UInt16) (proto : UInt8) (timestamp : Nat)

/-- With the expiry times that the calls so far have given to the live mappings. -/
structure State where
  nft : Nft
  live : UInt16 → UInt8 → Option Nat

def State.start : State := { nft := Nft.empty, live := fun _ _ => none }

def setLive (eport : UInt16) (proto : UInt8) (expiry : Option Nat)
    (live : UInt16 → UInt8 → Option Nat) : UInt16 → UInt8 → Option Nat :=
  fun e p => if e = eport ∧ p = proto then expiry else live e p

/-- A new expiry time for a mapping that is live. -/
def renewed (eport : UInt16) (proto : UInt8) (timestamp : Nat)
    (live : UInt16 → UInt8 → Option Nat) : UInt16 → UInt8 → Option Nat :=
  setLive eport proto ((live eport proto).map fun _ => timestamp) live

/-- An update gives an expiry time if it reports success. -/
def step (s : State) : Request → State
  | .addRedirect ifIdx rhost eport iaddr iport proto desc timestamp =>
      { nft := (addRedirectRule2 ifIdx rhost eport iaddr iport proto.toNat desc timestamp s.nft).2
        live := setLive eport proto (some timestamp) s.live }
  | .delete eport proto =>
      { nft := (deleteRedirectAndFilterRules eport proto.toNat s.nft).2
        live := setLive eport proto none s.live }
  | .update ifIdx buffers eport proto iport desc timestamp =>
      let updated := updatePortmapping ifIdx buffers eport proto.toNat iport desc timestamp s.nft
      { nft := updated.2
        live := if updated.1 = 0 then renewed eport proto timestamp s.live else s.live }
  | .updateDescTimestamp eport proto timestamp =>
      { nft := (updatePortmappingDescTimestamp eport proto.toNat timestamp s.nft).2
        live := renewed eport proto timestamp s.live }

/-- No second mapping for an external port and a protocol. -/
def Allowed (s : State) : Request → Prop
  | .addRedirect _ _ eport _ _ proto _ _ => s.live eport proto = none
  | _ => True

/-- One entry for a live mapping, with its expiry time, and none for one that is not. -/
def LeaseKept (expiry : Option Nat) (eport : UInt16) (proto : UInt8) (n : Nft) : Prop :=
  n.timestampList.countP (entryMatches eport proto.toNat) = expiry.toList.length ∧
    ∀ timestamp ∈ expiry, getTimestamp eport proto.toNat n = timestamp

def Kept (s : State) : Prop :=
  (∀ eport proto, LeaseKept (s.live eport proto) eport proto s.nft) ∧
    ∀ e ∈ s.nft.timestampList, ∃ eport proto, (s.live eport proto).isSome ∧
      entryMatches eport proto.toNat e = true

/-- No live mapping is removed, none is replaced, and the expiry times that are set are those of
    live mappings. -/
def Listed (s : State) : Request → Prop
  | .addRedirect .. => True
  | .delete eport proto => s.live eport proto = none
  | .update _ _ eport proto _ _ _ => getNatRedirectRule eport proto.toNat s.nft = none
  | .updateDescTimestamp eport proto _ => (s.live eport proto).isSome

section entries

theorem getTimestamp_eq (eport : UInt16) (proto : Int) (n : Nft) :
    getTimestamp eport proto n =
      ((n.timestampList.find? (entryMatches eport proto)).map TimestampEntry.timestamp).getD 0 := by
  unfold getTimestamp
  cases n.timestampList.find? (entryMatches eport proto) <;> rfl

theorem protocol_injective {p q : UInt8} (same : Int16.ofInt p.toNat = Int16.ofInt q.toNat) :
    p = q := by
  have smallP := p.toNat_lt
  have smallQ := q.toNat_lt
  have numbers := congrArg Int16.toInt same
  rw [Int16.toInt_ofInt_of_le (by omega) (by omega), Int16.toInt_ofInt_of_le (by omega) (by omega)]
    at numbers
  exact (proto_eq_iff p q).mp numbers

/-- An entry is for one external port and protocol. -/
theorem entry_key {e : TimestampEntry} {eport eport' : UInt16} {proto proto' : UInt8}
    (one : entryMatches eport proto.toNat e = true)
    (two : entryMatches eport' proto'.toNat e = true) : eport = eport' ∧ proto = proto' := by
  simp only [entryMatches, decide_eq_true_eq] at one two
  exact ⟨one.1.symm.trans two.1, protocol_injective (one.2.symm.trans two.2)⟩

theorem entry_other {e : UInt16} {p : UInt8} {eport : UInt16} {proto : UInt8}
    (other : ¬ (e = eport ∧ p = proto)) (a : TimestampEntry)
    (hit : entryMatches e p.toNat a = true) : entryMatches eport proto.toNat a = false := by
  by_contra again
  obtain ⟨rfl, rfl⟩ := entry_key hit (by simpa using again)
  exact other ⟨rfl, rfl⟩

theorem entry_new (eport : UInt16) (proto : UInt8) (timestamp : Nat) :
    entryMatches eport proto.toNat
      { timestamp, eport, protocol := Int16.ofInt proto.toNat } = true := by
  simp [entryMatches]

theorem delForwardOf_timestamps (p : Option NftnlrdrMisc.RuleT) (n : Nft) :
    (delForwardOf p n).timestampList = n.timestampList := by
  unfold delForwardOf delForward
  repeat' first | rfl | split

theorem delete_timestamps (eport : UInt16) (proto : Int) (n : Nft) :
    (deleteRedirectAndFilterRules eport proto n).2.timestampList = n.timestampList := by
  unfold deleteRedirectAndFilterRules
  dsimp only
  rw [delForwardOf_timestamps]
  have first : ∀ m : Nft, m.timestampList = n.timestampList →
      (delForwardOf ((headRedirect n).find? (natMatches .NFT_NAT_DNAT eport proto)) m).timestampList =
        n.timestampList := by
    intro m same
    rw [delForwardOf_timestamps, same]
  split
  · exact first _ (by split <;> rfl)
  · exact first _ (by split <;> rfl)

/-- An update that finds a rule adds an entry, and leaves the others. -/
theorem update_timestamps (ifIdx : Option Nat) (buffers : Buffers) (eport : UInt16) (proto : Int)
    (iport : UInt16) (desc : Option CString) (timestamp : Nat) (n : Nft) :
    let updated := updatePortmapping ifIdx buffers eport proto iport desc timestamp n
    getNatRedirectRule eport proto n = none ∧ updated = (-1, n) ∨
      (getNatRedirectRule eport proto n).isSome ∧ updated.1 = 0 ∧ updated.2.timestampList =
        { timestamp, eport, protocol := Int16.ofInt proto } :: n.timestampList := by
  unfold updatePortmapping
  cases getNatRedirectRule eport proto n with
  | none => exact .inl ⟨rfl, rfl⟩
  | some p =>
    refine .inr ⟨rfl, rfl, ?_⟩
    simp only [addFilterRule2, addRedirectRule2, addTimestampEntry, delete_timestamps]

end entries

section steps
variable {s : State} {eport : UInt16} {proto : UInt8}

@[simp] theorem setLive_same (expiry : Option Nat) (live : UInt16 → UInt8 → Option Nat) :
    setLive eport proto expiry live eport proto = expiry := by
  simp [setLive]

theorem setLive_other (expiry : Option Nat) (live : UInt16 → UInt8 → Option Nat) {e : UInt16}
    {p : UInt8} (other : ¬ (e = eport ∧ p = proto)) :
    setLive eport proto expiry live e p = live e p := by
  simp [setLive, other]

/-- The entries for other mappings, in a list that differs in those for this mapping alone. -/
theorem entries_other {list list' : List TimestampEntry} {expiry : Option Nat}
    {e : UInt16} {p : UInt8} {n n' : Nft} (listed : n.timestampList = list)
    (listed' : n'.timestampList = list')
    (count : list'.countP (entryMatches e p.toNat) = list.countP (entryMatches e p.toNat))
    (first : list'.find? (entryMatches e p.toNat) = list.find? (entryMatches e p.toNat))
    (kept : LeaseKept expiry e p n) : LeaseKept expiry e p n' := by
  unfold LeaseKept at kept ⊢
  rw [getTimestamp_eq, listed] at kept
  rw [getTimestamp_eq, listed', count, first]
  exact kept

/-- A new entry where there was none for the mapping, or where the only one has been removed. -/
theorem kept_cons (kept : Kept s) {n : Nft} {timestamp : Nat}
    (listed : n.timestampList = { timestamp, eport, protocol := Int16.ofInt proto.toNat } ::
      s.nft.timestampList.eraseP (entryMatches eport proto.toNat)) :
    Kept { nft := n, live := setLive eport proto (some timestamp) s.live } := by
  obtain ⟨leases, known⟩ := kept
  have new := entry_new eport proto timestamp
  have none_left : (s.nft.timestampList.eraseP (entryMatches eport proto.toNat)).countP
      (entryMatches eport proto.toNat) = 0 := by
    have count := (leases eport proto).1
    cases first : s.nft.timestampList.find? (entryMatches eport proto.toNat) with
    | none =>
      rw [eraseP_of_find?_none first, List.countP_eq_zero]
      exact List.find?_eq_none.mp first
    | some a =>
      have one := countP_eraseP first
      have few : (s.live eport proto).toList.length ≤ 1 := by
        cases s.live eport proto <;> simp
      omega
  constructor
  · intro e p
    dsimp only
    by_cases same : e = eport ∧ p = proto
    · obtain ⟨rfl, rfl⟩ := same
      rw [setLive_same]
      constructor
      · rw [listed, List.countP_cons_of_pos new, none_left]
        rfl
      · intro t given
        rw [getTimestamp_eq, listed, List.find?_cons_of_pos new]
        exact Option.some.inj given
    · have miss := entry_other (fun here => same ⟨here.1.symm, here.2.symm⟩) _ new
      rw [setLive_other _ _ same]
      refine entries_other rfl listed ?_ ?_ (leases e p)
      · rw [List.countP_cons_of_neg (by simp [miss]), countP_eraseP_other (entry_other same)]
      · rw [List.find?_cons_of_neg (by simp [miss]), find?_eraseP_other (entry_other same)]
  · intro a member
    rw [listed, List.mem_cons] at member
    rcases member with rfl | old
    · exact ⟨eport, proto, by simp, new⟩
    · obtain ⟨e, p, live, hit⟩ := known a (List.mem_of_mem_eraseP old)
      refine ⟨e, p, ?_, hit⟩
      by_cases same : e = eport ∧ p = proto
      · obtain ⟨rfl, rfl⟩ := same
        simp
      · dsimp only
        rw [setLive_other _ _ same]
        exact live

/-- With a second entry, or one for a mapping that is not live, the list is wrong. -/
theorem not_kept_cons (kept : Kept s) {n : Nft} {timestamp : Nat}
    {live : UInt16 → UInt8 → Option Nat}
    (same : (live eport proto).isSome → (s.live eport proto).isSome)
    (listed : n.timestampList =
      { timestamp, eport, protocol := Int16.ofInt proto.toNat } :: s.nft.timestampList) :
    ¬ Kept { nft := n, live } := by
  intro again
  have before := (kept.1 eport proto).1
  have after := (again.1 eport proto).1
  rw [listed, List.countP_cons_of_pos (entry_new eport proto timestamp), before] at after
  dsimp only at after
  cases old : s.live eport proto with
  | none =>
    rw [old] at same after
    cases new : live eport proto with
    | none => simp [new] at after
    | some t => simp [new] at same
  | some t =>
    rw [old] at after
    cases new : live eport proto <;> simp [new] at after

theorem renewed_isSome (timestamp : Nat) (live : UInt16 → UInt8 → Option Nat) :
    (renewed eport proto timestamp live eport proto).isSome = (live eport proto).isSome := by
  simp [renewed]

theorem eraseP_absent (kept : Kept s) (free : s.live eport proto = none) :
    s.nft.timestampList.eraseP (entryMatches eport proto.toNat) = s.nft.timestampList := by
  have count := (kept.1 eport proto).1
  rw [free] at count
  exact List.eraseP_of_forall_not (List.countP_eq_zero.mp count)

theorem setLive_none (live : UInt16 → UInt8 → Option Nat) (free : live eport proto = none) :
    setLive eport proto none live = live := by
  funext e p
  by_cases same : e = eport ∧ p = proto
  · obtain ⟨rfl, rfl⟩ := same
    simp [free]
  · exact setLive_other _ _ same

theorem step_exact {request : Request} (allowed : Allowed s request) (kept : Kept s) :
    Kept (step s request) ↔ Listed s request := by
  cases request with
  | addRedirect ifIdx rhost eport iaddr iport proto desc timestamp =>
    refine iff_of_true (kept_cons kept ?_) trivial
    rw [eraseP_absent kept allowed]
    rfl
  | delete eport proto =>
    have list := delete_timestamps eport proto.toNat s.nft
    constructor
    · intro after
      have one := (kept.1 eport proto).1
      have none_left := (after.1 eport proto).1
      simp only [step, list, setLive_same] at none_left
      cases live : s.live eport proto with
      | none => exact live
      | some t =>
        rw [none_left, live] at one
        simp at one
    · intro free
      simp only [step, setLive_none s.live free]
      refine ⟨fun e p => ?_, fun a member => kept.2 a (list ▸ member)⟩
      exact entries_other rfl list rfl rfl (kept.1 e p)
  | update ifIdx buffers eport proto iport desc timestamp =>
    rcases update_timestamps ifIdx buffers eport proto.toNat iport desc timestamp s.nft with
      ⟨missing, same⟩ | ⟨found, done, listed⟩
    · refine iff_of_true ?_ missing
      simp only [step, same]
      exact kept
    · refine iff_of_false ?_ ?_
      · simp only [step, done, ↓reduceIte]
        refine not_kept_cons kept ?_ listed
        rw [renewed_isSome]
        exact id
      · intro missing
        rw [Listed] at missing
        simp [missing] at found
  | updateDescTimestamp eport proto timestamp =>
    have listed : (updatePortmappingDescTimestamp eport proto.toNat timestamp s.nft).2.timestampList =
        { timestamp, eport, protocol := Int16.ofInt proto.toNat } ::
          s.nft.timestampList.eraseP (entryMatches eport proto.toNat) := rfl
    cases live : s.live eport proto with
    | none =>
      rw [eraseP_absent kept live] at listed
      refine iff_of_false (not_kept_cons kept ?_ listed) (by simp [Listed, live])
      rw [renewed_isSome]
      exact id
    | some old =>
      have new := kept_cons kept listed
      refine iff_of_true ?_ (by simp [Listed, live])
      simpa [step, renewed, live] using new

end steps

/-- After every call, the list has exactly one entry for each live mapping, with its latest expiry
    time, and none for another, exactly if no call removes a live mapping, replaces one, or sets
    the expiry time of one that is not live. -/
theorem timestamps_kept_iff (requests : List Request)
    (all : Admitted step Allowed .start requests) :
    Always step Kept .start requests ↔ Admitted step Listed .start requests := by
  have start : Kept .start := by
    constructor
    · intro eport proto
      exact ⟨rfl, fun t given => absurd given (by simp [State.start])⟩
    · intro e member
      exact absurd member List.not_mem_nil
  refine allowed_always_iff (fun _ => True) (fun _ _ _ _ => trivial) ?_ trivial start all
  intro s request _ allowed kept
  exact step_exact allowed kept

/-- Two mappings, one of them with a new expiry time. -/
def twoLeases : List Request :=
  let add := fun eport =>
    Request.addRedirect none none eport "192.168.1.2".toList 80 6 (some "web".toList) 100
  [add 8080, add 8081, .updateDescTimestamp 8080 6 200]

theorem twoLeases_kept : Always step Kept .start twoLeases := by
  refine (timestamps_kept_iff twoLeases ?_).mpr ?_
  · exact ⟨rfl, rfl, trivial, trivial⟩
  · exact ⟨trivial, trivial, rfl, trivial⟩

/-- A mapping that is removed. -/
def removedLease : List Request :=
  [.addRedirect none none 8080 "192.168.1.2".toList 80 6 (some "web".toList) 100, .delete 8080 6]

theorem removedLease_left :
    Admitted step Allowed .start removedLease ∧
      (let s := removedLease.foldl step .start
       s.live 8080 6 = none ∧ getTimestamp 8080 6 s.nft = 100) ∧
      ¬ Always step Kept .start removedLease := by
  have entry : (removedLease.foldl step .start).nft.timestampList.countP (entryMatches 8080 6) = 1 := by
    decide +kernel
  refine ⟨⟨rfl, trivial, trivial⟩, by decide +kernel, ?_⟩
  intro run
  have last := ((always_last run).1 8080 6).1
  exact absurd (entry.symm.trans last) (by decide)

section latest

/-- A lookup for a live mapping gives its latest expiry time, whatever older entries there are. -/
def Latest (s : State) : Prop :=
  ∀ eport proto, ∀ timestamp ∈ s.live eport proto, getTimestamp eport proto.toNat s.nft = timestamp

theorem latest_cons {s : State} (latest : Latest s) {eport : UInt16} {proto : UInt8}
    {timestamp : Nat} {n : Nft} {list : List TimestampEntry} {expiry : Option Nat}
    (listed : n.timestampList = { timestamp, eport, protocol := Int16.ofInt proto.toNat } :: list)
    (others : ∀ {e p}, ¬ (e = eport ∧ p = proto) →
      list.find? (entryMatches e p.toNat) = s.nft.timestampList.find? (entryMatches e p.toNat))
    (given : ∀ t ∈ expiry, t = timestamp) :
    Latest { nft := n, live := setLive eport proto expiry s.live } := by
  have new := entry_new eport proto timestamp
  intro e p t live
  rw [getTimestamp_eq, listed]
  dsimp only at live
  by_cases same : e = eport ∧ p = proto
  · obtain ⟨rfl, rfl⟩ := same
    rw [setLive_same] at live
    rw [List.find?_cons_of_pos new]
    exact (given t live).symm
  · have miss := entry_other (fun here => same ⟨here.1.symm, here.2.symm⟩) _ new
    rw [setLive_other _ _ same] at live
    rw [List.find?_cons_of_neg (by simp [miss]), others same, ← getTimestamp_eq]
    exact latest e p t live

theorem given_renewed {timestamp : Nat} (old : Option Nat) :
    ∀ t ∈ old.map fun _ => timestamp, t = timestamp := by
  cases old <;> simp

theorem step_latest (s : State) (request : Request) (latest : Latest s) :
    Latest (step s request) := by
  cases request with
  | addRedirect ifIdx rhost eport iaddr iport proto desc timestamp =>
    exact latest_cons latest rfl (fun _ => rfl) (by simp)
  | delete eport proto =>
    intro e p t live
    rw [getTimestamp_eq, step, delete_timestamps, ← getTimestamp_eq]
    by_cases same : e = eport ∧ p = proto
    · obtain ⟨rfl, rfl⟩ := same
      simp [step] at live
    · simp only [step, setLive_other _ _ same] at live
      exact latest e p t live
  | update ifIdx buffers eport proto iport desc timestamp =>
    rcases update_timestamps ifIdx buffers eport proto.toNat iport desc timestamp s.nft with
      ⟨_, same⟩ | ⟨_, done, listed⟩
    · simp only [step, same]
      exact latest
    · simp only [step, done, ↓reduceIte]
      exact latest_cons latest listed (fun _ => rfl) (given_renewed _)
  | updateDescTimestamp eport proto timestamp =>
    exact latest_cons latest rfl (fun other => find?_eraseP_other (entry_other other))
      (given_renewed _)

theorem run_latest (requests : List Request) : Always step Latest .start requests :=
  have start : Latest .start := fun _ _ _ given => absurd given (by simp [State.start])
  always_of_step step_latest start requests

end latest

end LeaseTimes
