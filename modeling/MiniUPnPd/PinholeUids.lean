import MiniUPnPd.Lib.CyclicCounter
import MiniUPnPd.PinholeChain

/-!
The uids of the pinholes in the ip6tables backend. The search for one goes once around the
counter at most, and there is a free one as long as fewer than 65535 pinholes are in the list.
-/
namespace PinholeUids
open CyclicCounter Iptpinhole PinholeChain

/-- The states that calls lead to while there are fewer than 65535 pinholes. Any calls of
    libip6tc may fail. -/
inductive Reached (inetPton6 : CString → Option (BitVec 128)) : Firewall → Prop where
  | start (ip6tcResults : List Bool) :
      Reached inetPton6 { Firewall.empty with ip6tcResults }
  | called {fw fw' : Firewall} (op : Op) (before : Reached inetPton6 fw)
      (returned : step inetPton6 fw op = some fw') (few : fw'.pinholeList.length < 65535) :
      Reached inetPton6 fw'

section search
variable {taken : List UInt16} {fuel next uid : Nat}

theorem succUid_next : succUid = CyclicCounter.next 65535 := rfl

theorem freeUid_find (taken : List UInt16) (fuel next : Nat) :
    freeUid taken fuel next =
      (List.iterate succUid next fuel).find? fun uid => UInt16.ofNat uid ∉ taken := by
  induction fuel generalizing next with
  | zero => rfl
  | succ fuel ih =>
    unfold freeUid
    rw [List.iterate, List.find?_cons]
    by_cases used : UInt16.ofNat next ∈ taken
    · simp [used, ih]
    · simp [used]

/-- One round of the counter is enough. -/
theorem freeUid_found {uids : List UInt16} (few : uids.length < 65535) (low : 1 ≤ next)
    (high : next ≤ 65535) : ∃ uid, freeUid (0 :: uids) 65535 next = some uid := by
  have few' : (uids.map UInt16.toNat).length < 65535 := by simpa using few
  obtain ⟨y, turn, free⟩ := exists_free few' high
  have range := (mem_round low high).mp turn
  have value : (UInt16.ofNat y).toNat = y := by
    rw [UInt16.toNat_ofNat']
    omega
  have fresh : UInt16.ofNat y ∉ 0 :: uids := by
    intro used
    rcases List.mem_cons.mp used with zero | inside
    · rw [zero] at value
      have zero' : (0 : UInt16).toNat = 0 := rfl
      omega
    · apply free
      rw [← value]
      exact List.mem_map_of_mem inside
  rw [freeUid_find]
  apply Option.isSome_iff_exists.mp
  rw [List.find?_isSome]
  exact ⟨y, turn, decide_eq_true fresh⟩

theorem freeUid_range (low : 1 ≤ next) (high : next ≤ 65535)
    (found : freeUid taken 65535 next = some uid) : 1 ≤ uid ∧ uid ≤ 65535 := by
  rw [freeUid_find] at found
  exact (mem_round low high).mp (List.mem_of_find?_eq_some found)

end search

/-- The counter and the uids in use are in the range of the counter. -/
structure Numbered (fw : Firewall) : Prop where
  low : 1 ≤ fw.nextUid
  high : fw.nextUid ≤ 65535
  uids : ∀ uid ∈ fw.pinholeList.map PinholeT.uid, 1 ≤ uid.toNat

section calls
variable {fw fw' : Firewall}

/-- No pinhole is new. -/
structure Shrinks (fw fw' : Firewall) : Prop where
  counter : fw'.nextUid = fw.nextUid
  uids : (fw'.pinholeList.map PinholeT.uid).Sublist (fw.pinholeList.map PinholeT.uid)

theorem numbered_shrinks (numbered : Numbered fw) (shrinks : Shrinks fw fw') : Numbered fw' := by
  obtain ⟨low, high, uids⟩ := numbered
  obtain ⟨counter, kept⟩ := shrinks
  refine ⟨by omega, by omega, ?_⟩
  intro uid inside
  exact uids uid (kept.subset inside)

theorem shrinks_trans {fw'' : Firewall} (first : Shrinks fw fw') (second : Shrinks fw' fw'') :
    Shrinks fw fw'' :=
  ⟨second.counter.trans first.counter, second.uids.trans first.uids⟩

theorem shrinks_refl (fw : Firewall) : Shrinks fw fw := ⟨rfl, List.Sublist.refl _⟩

theorem forget_shrinks (uid : UInt16) (fw : Firewall) : Shrinks fw (fw.forget uid) :=
  ⟨rfl, List.Sublist.map _ List.eraseP_sublist⟩

theorem deletePinhole_shrinks (uid : UInt16) (fw : Firewall) :
    Shrinks fw (deletePinhole uid fw).2 := by
  have refused : ∀ n, Shrinks fw (fw.called n).2 := fun n => ⟨rfl, List.Sublist.refl _⟩
  have gone : ∀ n, Shrinks fw ((fw.called n).2.forget uid) := by
    intro n
    exact shrinks_trans (refused n) (forget_shrinks uid _)
  unfold deletePinhole
  split
  · exact shrinks_refl fw
  · dsimp only
    split
    · split
      · exact gone 2
      · split
        · exact shrinks_trans (gone 2) ⟨rfl, List.Sublist.refl _⟩
        · exact shrinks_trans (refused 2) ⟨rfl, List.Sublist.refl _⟩
    · exact refused 2

theorem updatePinhole_shrinks (uid : UInt16) (timestamp : Nat) (fw : Firewall) :
    Shrinks fw (updatePinhole uid timestamp fw).2 := by
  unfold updatePinhole
  split
  · exact shrinks_refl fw
  · have same : (fw.pinholeList.map (withTimestamp uid timestamp)).map PinholeT.uid =
        fw.pinholeList.map PinholeT.uid := by
      rw [List.map_map]
      exact List.map_congr_left fun p _ => withTimestamp_uid uid timestamp p
    refine ⟨rfl, ?_⟩
    dsimp only
    rw [same]

theorem cleanLoop_shrinks (now : Nat) (list : List PinholeT) (n minTs : Nat) (fw : Firewall) :
    Shrinks fw (cleanLoop now list n minTs fw).2 := by
  induction list generalizing n minTs fw with
  | nil => exact shrinks_refl fw
  | cons p rest ih =>
    have removed := deletePinhole_shrinks p.uid fw
    unfold cleanLoop
    split
    · dsimp only
      split
      · exact shrinks_trans removed (ih (n + 1) minTs _)
      · exact removed
    · exact ih n (min p.timestamp minTs) fw

theorem addToPinholeList_numbers {saddr daddr : BitVec 128} {sport dport uid : UInt16}
    {proto : UInt8} {desc : CString} {timestamp : Nat}
    (added : addToPinholeList saddr sport daddr dport proto desc timestamp fw = some (uid, fw')) :
    ∃ next, freeUid (0 :: fw.pinholeList.map PinholeT.uid) 65535 fw.nextUid = some next ∧
      uid = UInt16.ofNat next ∧ fw'.nextUid = succUid next := by
  unfold addToPinholeList at added
  split at added
  · simp at added
  · rename_i next found
    obtain ⟨rfl, rfl⟩ := Prod.mk.inj (Option.some.inj added)
    exact ⟨next, found, rfl, rfl⟩

theorem addToPinholeList_numbered {saddr daddr : BitVec 128} {sport dport uid : UInt16}
    {proto : UInt8} {desc : CString} {timestamp : Nat} (numbered : Numbered fw)
    (added : addToPinholeList saddr sport daddr dport proto desc timestamp fw = some (uid, fw')) :
    Numbered fw' := by
  obtain ⟨next, found, same, counter⟩ := addToPinholeList_numbers added
  have range := freeUid_range numbered.low numbered.high found
  have after := @next_range 65535 next (by decide)
  rw [← succUid_next, ← counter] at after
  refine ⟨after.1, after.2, ?_⟩
  rw [addToPinholeList_some added]
  intro uid' inside
  rcases List.mem_cons.mp inside with new | old
  · rw [new, same, UInt16.toNat_ofNat']
    omega
  · exact numbered.uids uid' old

theorem addToPinholeList_returns {saddr daddr : BitVec 128} {sport dport : UInt16}
    {proto : UInt8} {desc : CString} {timestamp : Nat} (numbered : Numbered fw)
    (few : fw.pinholeList.length < 65535) :
    (addToPinholeList saddr sport daddr dport proto desc timestamp fw).isSome := by
  have few' : (fw.pinholeList.map PinholeT.uid).length < 65535 := by simpa using few
  obtain ⟨next, found⟩ := freeUid_found few' numbered.low numbered.high
  unfold addToPinholeList
  split
  · rename_i missing
    rw [found] at missing
    simp at missing
  · rfl

theorem addPinhole_numbered {inetPton6 : CString → Option (BitVec 128)}
    {ifname remHost : Option CString} {remPort intPort : UInt16} {intClient desc : CString}
    {proto : UInt8} {timestamp : Nat} {r : Int} (numbered : Numbered fw)
    (added : addPinhole inetPton6 ifname remHost remPort intClient intPort proto desc timestamp fw =
      some (r, fw')) : Numbered fw' := by
  unfold addPinhole at added
  dsimp only at added
  split at added
  · obtain ⟨⟨uid, after⟩, listed, same⟩ := Option.map_eq_some_iff.mp added
    obtain ⟨_, rfl⟩ := Prod.mk.inj same
    apply addToPinholeList_numbered _ listed
    exact ⟨numbered.low, numbered.high, numbered.uids⟩
  · obtain ⟨_, rfl⟩ := Prod.mk.inj (Option.some.inj added)
    exact ⟨numbered.low, numbered.high, numbered.uids⟩

theorem addPinhole_returns {inetPton6 : CString → Option (BitVec 128)}
    {ifname remHost : Option CString} {remPort intPort : UInt16} {intClient desc : CString}
    {proto : UInt8} {timestamp : Nat} (numbered : Numbered fw)
    (few : fw.pinholeList.length < 65535) :
    (addPinhole inetPton6 ifname remHost remPort intClient intPort proto desc timestamp
      fw).isSome := by
  unfold addPinhole
  dsimp only
  split
  · rw [Option.isSome_map]
    exact addToPinholeList_returns ⟨numbered.low, numbered.high, numbered.uids⟩ few
  · rfl

end calls

section runs
variable {inetPton6 : CString → Option (BitVec 128)} {fw fw' : Firewall}

theorem step_numbered (op : Op) (numbered : Numbered fw)
    (returned : step inetPton6 fw op = some fw') : Numbered fw' := by
  cases op with
  | addPinhole ifname remHost remPort intClient intPort proto desc timestamp =>
    obtain ⟨⟨r, after⟩, added, rfl⟩ := Option.map_eq_some_iff.mp returned
    exact addPinhole_numbered numbered added
  | updatePinhole uid timestamp =>
    obtain rfl := Option.some.inj returned
    exact numbered_shrinks numbered (updatePinhole_shrinks uid timestamp fw)
  | deletePinhole uid =>
    obtain rfl := Option.some.inj returned
    exact numbered_shrinks numbered (deletePinhole_shrinks uid fw)
  | cleanPinholeList now =>
    obtain rfl := Option.some.inj returned
    exact numbered_shrinks numbered (cleanLoop_shrinks _ _ _ _ fw)

theorem step_returns (op : Op) (numbered : Numbered fw) (few : fw.pinholeList.length < 65535) :
    (step inetPton6 fw op).isSome := by
  cases op with
  | addPinhole ifname remHost remPort intClient intPort proto desc timestamp =>
    rw [step, Option.isSome_map]
    exact addPinhole_returns numbered few
  | updatePinhole uid timestamp => rfl
  | deletePinhole uid => rfl
  | cleanPinholeList now => rfl

theorem reached_numbered (reached : Reached inetPton6 fw) :
    Numbered fw ∧ fw.pinholeList.length < 65535 := by
  induction reached with
  | start ip6tcResults =>
    have one : (1 : Nat) ≤ 65535 := by decide
    have none_listed : (0 : Nat) < 65535 := by decide
    have no_uids : ∀ uid ∈ ([] : List UInt16), 1 ≤ uid.toNat := by
      intro uid inside
      exact absurd inside List.not_mem_nil
    exact ⟨⟨Nat.le_refl 1, one, no_uids⟩, none_listed⟩
  | called op _ returned few ih => exact ⟨step_numbered op ih.1 returned, few⟩

end runs

def webPinhole : Op := .addPinhole none none 0 "2001:db8::2".toList 80 6 "web".toList 100

def oneListed : Firewall := (step (fun _ => some 2) .empty webPinhole).getD .empty

end PinholeUids
