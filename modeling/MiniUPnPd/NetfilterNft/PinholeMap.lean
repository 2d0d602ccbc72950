import Mathlib.Data.List.Forall2
import Mathlib.Logic.Function.Basic
import MiniUPnPd.Lib.Runs
import MiniUPnPd.NetfilterNft.NftpinholeSpec
import MiniUPnPd.PinholeRequests

/-!
The pinholes of the nftables backend as a finite map from uids, in a chain that they share with
the rules of port mappings. What a rule was added for is kept beside the chain.
-/
namespace PinholeMap
open CText Inet Iptcrdr Nftnlrdr NftnlrdrMisc NftnlrdrMiscSpec Nftpinhole NftpinholeSpec
  PinholeLabel PinholeRequests Runs
open PcpServer (In6Addr)

structure Entry where
  proto : UInt8
  remHost : Option In6Addr
  remPort : UInt16
  intClient : In6Addr
  intPort : UInt16
  expiry : UInt32

inductive Item where
  | pinhole (uid : UInt16) (entry : Entry)
  | other (desc : CString) (exprs : List NftnlExpr)

/-- A buffer of the caller may hold any text for a label, and a call is given what the buffers on
    its stack hold. -/
inductive Call where
  | add (stack : In6Addr × In6Addr) (ifIdx : Option Nat) (req : PinholeRequest)
  | update (tmpLabel : List Char) (reindexed : Nat → Nat) (uid : UInt16) (timestamp : UInt32)
  | delete (tmpLabel : List Char) (uid : UInt16)
  | get (tmpLabel : List Char) (uid : UInt16) (out : PinholeInfo)
  | clean (now : Nat)
  | addFilterRule (ifIdx : Option Nat) (rhost : Option CString) (iaddr : CString)
      (iport : UInt16) (proto : Int) (desc : Option CString)

structure Answer where
  result : Int
  info : Option PinholeInfo

def respond (s : Pinholes) : Call → Answer × Pinholes
  | .add stack ifIdx req =>
      let (uid, s) := addPinhole stack ifIdx req.remHost req.remPort req.intClient req.intPort
        req.proto req.desc req.timestamp.toNat s
      ({ result := uid, info := none }, s)
  | .update tmpLabel reindexed uid timestamp =>
      let (result, s) := updatePinhole tmpLabel reindexed uid timestamp.toNat s
      ({ result, info := none }, s)
  | .delete tmpLabel uid =>
      let (result, s) := deletePinhole tmpLabel uid s
      ({ result, info := none }, s)
  | .get tmpLabel uid out =>
      let (result, info) := getPinholeInfo tmpLabel uid out s
      ({ result, info := some info }, s)
  | .clean now =>
      let ((n, _), s) := cleanPinholeList now s
      ({ result := n, info := none }, s)
  | .addFilterRule ifIdx rhost iaddr iport proto desc =>
      let (result, nft) := addFilterRule2 ifIdx rhost iaddr iport proto desc s.nft
      ({ result, info := none }, { s with nft })

section map

/-- What is asked for of an entry. Any remote host is written as the address zero. -/
def Entry.info (e : Entry) (out : PinholeInfo) : PinholeInfo :=
  { remHost := out.remHost.map fun _ => inetNtop6 (e.remHost.getD 0)
    remPort := out.remPort.map fun _ => e.remPort
    intClient := out.intClient.map fun _ => inetNtop6 e.intClient
    intPort := out.intPort.map fun _ => e.intPort
    proto := out.proto.map fun _ => e.proto
    desc := none
    timestamp := out.timestamp.map fun _ => e.expiry.toNat }

/-- A text that is no address leaves what the stack holds. -/
def entryOf (stack : In6Addr × In6Addr) (req : PinholeRequest) : Entry :=
  { proto := req.proto
    remHost := (remoteGiven req.remHost).map fun text => (inetPton6 text).getD stack.1
    remPort := req.remPort
    intClient := (inetPton6 req.intClient).getD stack.2
    intPort := req.intPort
    expiry := req.timestamp }

def numberOf (answer : Answer) : UInt16 := UInt16.ofInt answer.result

/-- What the finite map answers. The description is not part of it. -/
def Expected (map : UInt16 → Option Entry) : Call → Answer → Prop
  | .add .., answer => answer.result = (numberOf answer).toNat ∧ map (numberOf answer) = none
  | .update _ _ uid _, answer => answer.result = if (map uid).isSome then 0 else -2
  | .delete _ uid, answer => answer.result = if (map uid).isSome then 0 else -2
  | .get _ uid out, answer =>
      match map uid with
      | some e => answer.result = 0 ∧
          (answer.info.map fun info => { info with desc := none }) = some (e.info out)
      | none => answer.result = -2
  | .clean _, _ => True
  | .addFilterRule .., _ => True

def Entry.alive (now : Nat) (e : Entry) : Bool := now < e.expiry.toNat

def mapAfter (map : UInt16 → Option Entry) (answer : Answer) : Call → UInt16 → Option Entry
  | .add stack _ req => Function.update map (numberOf answer) (some (entryOf stack req))
  | .update _ _ uid timestamp =>
      Function.update map uid ((map uid).map fun e => { e with expiry := timestamp })
  | .delete _ uid => Function.update map uid none
  | .clean now => fun uid => (map uid).filter (Entry.alive now)
  | .get .. | .addFilterRule .. => map

end map

section items

def Item.uid? : Item → Option UInt16
  | .pinhole uid _ => some uid
  | .other .. => none

def Item.entryFor (uid : UInt16) : Item → Option Entry
  | .pinhole uid' e => if uid' = uid then some e else none
  | .other .. => none

def lookup (uid : UInt16) (items : List Item) : Option Entry := items.findSome? (Item.entryFor uid)

def Item.isPinhole (uid : UInt16) (item : Item) : Bool := item.uid? = some uid

def without (uid : UInt16) (items : List Item) : List Item :=
  items.filter fun item => !item.isPinhole uid

def Item.alive (now : Nat) : Item → Bool
  | .pinhole _ e => e.alive now
  | .other .. => true

/-- Only pinholes are removed. -/
def itemsAfter (items : List Item) (answer : Answer) : Call → List Item
  | .add stack _ req => .pinhole (numberOf answer) (entryOf stack req) :: items
  | .update _ _ uid timestamp =>
      match lookup uid items with
      | some e => .pinhole uid { e with expiry := timestamp } :: without uid items
      | none => items
  | .delete _ uid => without uid items
  | .get .. => items
  | .clean now => items.filter (Item.alive now)
  | .addFilterRule ifIdx rhost iaddr iport proto desc =>
      .other (desc.getD []) (ruleSetFilter ifIdx (UInt8.ofInt proto) ((hostGiven rhost).getD 0)
        (inetAddr iaddr) iport 0) :: items

end items

/-- With the map, and whether it has given all answers so far. -/
structure State where
  pinholes : Pinholes
  items : List Item
  map : UInt16 → Option Entry
  adds : Nat
  agreed : Prop

def State.start : State :=
  { pinholes := { nft := .empty, nextUid := 1, bounded := by decide }
    items := [], map := fun _ => none, adds := 0, agreed := True }

def Call.isAdd : Call → Bool
  | .add .. => true
  | _ => false

def step (s : State) (call : Call) : State :=
  let answer := (respond s.pinholes call).1
  { pinholes := (respond s.pinholes call).2
    items := itemsAfter s.items answer call
    map := mapAfter s.map answer call
    adds := if call.isAdd then s.adds + 1 else s.adds
    agreed := s.agreed ∧ Expected s.map call answer }

/-- The rule of the chain for an item. -/
def Holds (rule : NftnlRule) : Item → Prop
  | .pinhole uid e =>
      (∃ desc, rule.userdata = writtenLabel uid.toNat e.expiry.toNat desc) ∧
        ∃ ifIdx, rule.exprs =
          ruleSetFilter6 ifIdx e.proto e.remHost e.intClient e.intPort e.remPort
  | .other desc exprs => rule.userdata = desc ∧ rule.exprs = exprs

/-- The answers so far were those of the map, and the chain has a rule for each of its entries,
    and the other rules. -/
structure Refines (s : State) : Prop where
  agreed : s.agreed
  entries : ∀ uid, lookup uid s.items = s.map uid
  rules : List.Forall₂ Holds s.pinholes.nft.forward.rules s.items

section conditions

/-- A rule that a search for this pinhole takes for it. -/
def Item.Mistaken (uid : UInt16) (also : CString → Bool) : Item → Prop
  | .pinhole .. => False
  | .other desc _ => TakenFor uid desc ∧ also desc

/-- The rules that a search comes to before the pinhole. -/
def Unmistaken (uid : UInt16) (also : CString → Bool) (items : List Item) : Prop :=
  ∀ item ∈ items.takeWhile (fun item => !item.isPinhole uid), ¬ item.Mistaken uid also

/-- The lookup needs to read the expiry time only if it is asked for. -/
def readable (out : PinholeInfo) (desc : CString) : Bool :=
  out.timestamp.isNone || (scanLabel desc).isSome

/-- An entry that is read back from the rule as it is. -/
def Entry.Rewritten (e : Entry) : Prop :=
  e.remPort = 0 ∧ (Ported e.proto ∨ e.intPort = 0) ∧ e.remHost ≠ some 0

def Entry.Shown (out : PinholeInfo) (e : Entry) : Prop :=
  (out.remPort.isSome → e.remPort = 0) ∧
    (out.intPort.isSome → Ported e.proto ∨ e.intPort = 0) ∧ out.remHost ≠ some []

/-- The time is compared in 32 bits. A rule with a label that can be read takes part. -/
def Item.Cleaned (now nextUid : Nat) : Item → Prop
  | .pinhole _ e => e.expiry.toNat ≤ now % 2 ^ 32 ↔ e.expiry.toNat ≤ now
  | .other desc _ => ∀ r ∈ scanLabel desc, now % 2 ^ 32 < r.2 ∧ r.1 < nextUid

/-- Fewer than 65534 pinholes are added. No IPv4 rule has a label that the call takes for that of
    a pinhole, no lookup is for a pinhole that is absent, and a pinhole is looked up or updated
    only if its rule is read back as it is. -/
def Meets (s : State) : Call → Prop
  | .add .. => s.adds + 1 < 65534
  | .update _ _ uid _ => Unmistaken uid (fun _ => true) s.items ∧ ∀ e ∈ s.map uid, e.Rewritten
  | .delete _ uid => Unmistaken uid (fun _ => true) s.items
  | .get _ uid out =>
      Unmistaken uid (readable out) s.items ∧ (s.map uid).isSome ∧ ∀ e ∈ s.map uid, e.Shown out
  | .clean now => ∀ item ∈ s.items, item.Cleaned now s.pinholes.nextUid
  | .addFilterRule .. => True

instance (uid : UInt16) (also : CString → Bool) :
    (item : Item) → Decidable (item.Mistaken uid also)
  | .pinhole .. => inferInstanceAs (Decidable False)
  | .other desc _ => inferInstanceAs (Decidable (TakenFor uid desc ∧ also desc))

instance (uid : UInt16) (also : CString → Bool) (items : List Item) :
    Decidable (Unmistaken uid also items) :=
  inferInstanceAs (Decidable (∀ item ∈ _, ¬ Item.Mistaken uid also item))

instance (e : Entry) : Decidable e.Rewritten :=
  inferInstanceAs (Decidable (_ ∧ _ ∧ _))

instance (out : PinholeInfo) (e : Entry) : Decidable (e.Shown out) :=
  inferInstanceAs (Decidable ((_ → _) ∧ (_ → _) ∧ _))

instance (now nextUid : Nat) : (item : Item) → Decidable (item.Cleaned now nextUid)
  | .pinhole .. => inferInstanceAs (Decidable (_ ↔ _))
  | .other desc _ => inferInstanceAs (Decidable (∀ r ∈ scanLabel desc, _))

instance (s : State) : (call : Call) → Decidable (Meets s call)
  | .add .. => inferInstanceAs (Decidable (_ < _))
  | .update .. => inferInstanceAs (Decidable (_ ∧ ∀ e ∈ _, _))
  | .delete .. => inferInstanceAs (Decidable (Unmistaken _ _ _))
  | .get .. => inferInstanceAs (Decidable (_ ∧ _ ∧ ∀ e ∈ _, _))
  | .clean .. => inferInstanceAs (Decidable (∀ item ∈ _, _))
  | .addFilterRule .. => inferInstanceAs (Decidable True)

end conditions

section lookups
variable {uid : UInt16} {items : List Item}

theorem lookup_pinhole (u : UInt16) (e : Entry) :
    lookup u (.pinhole uid e :: items) = if uid = u then some e else lookup u items := by
  unfold lookup
  rw [List.findSome?_cons, Item.entryFor]
  by_cases same : uid = u
  · rw [if_pos same, if_pos same]
  · rw [if_neg same, if_neg same]

theorem lookup_other (u : UInt16) (desc : CString) (exprs : List NftnlExpr) :
    lookup u (.other desc exprs :: items) = lookup u items := rfl

theorem isPinhole_iff (uid' : UInt16) (e : Entry) :
    (Item.pinhole uid' e).isPinhole uid = true ↔ uid' = uid := by
  simp [Item.isPinhole, Item.uid?]

theorem without_gone {item : Item} (here : item.isPinhole uid = true) :
    without uid (item :: items) = without uid items :=
  List.filter_cons_of_neg (by simp [here])

theorem without_stays {item : Item} (other : ¬ item.isPinhole uid = true) :
    without uid (item :: items) = item :: without uid items :=
  List.filter_cons_of_pos (by simp [other])

theorem lookup_without (u : UInt16) :
    lookup u (without uid items) = if uid = u then none else lookup u items := by
  induction items with
  | nil => simp [lookup, without]
  | cons item items ih =>
    by_cases here : item.isPinhole uid = true
    · cases item with
      | other desc exprs => simp [Item.isPinhole, Item.uid?] at here
      | pinhole uid' e =>
        obtain rfl := (isPinhole_iff uid' e).mp here
        rw [without_gone here, ih, lookup_pinhole]
        split <;> rfl
    · rw [without_stays here]
      cases item with
      | other desc exprs => rw [lookup_other, lookup_other, ih]
      | pinhole uid' e =>
        have differs : uid' ≠ uid := fun same => here ((isPinhole_iff uid' e).mpr same)
        rw [lookup_pinhole, lookup_pinhole, ih]
        by_cases same : uid = u
        · rw [if_pos same, if_neg (same ▸ differs), if_pos same]
        · rw [if_neg same, if_neg same]

/-- An item that is not for the pinhole does not change what is looked up. -/
theorem lookup_skips {item : Item} (other : ¬ item.isPinhole uid = true) :
    lookup uid (item :: items) = lookup uid items := by
  cases item with
  | other desc exprs => rfl
  | pinhole uid' e =>
    have differs : uid' ≠ uid := fun same => other ((isPinhole_iff uid' e).mpr same)
    rw [lookup_pinhole, if_neg differs]

def uids (items : List Item) : List UInt16 := items.filterMap Item.uid?

theorem uids_pinhole (e : Entry) : uids (.pinhole uid e :: items) = uid :: uids items := rfl

theorem uids_other (desc : CString) (exprs : List NftnlExpr) :
    uids (.other desc exprs :: items) = uids items := rfl

theorem lookup_none_iff : lookup uid items = none ↔ uid ∉ uids items := by
  induction items with
  | nil => simp [lookup, uids]
  | cons item items ih =>
    cases item with
    | other desc exprs =>
      rw [lookup_other, ih, uids_other]
    | pinhole uid' e =>
      rw [lookup_pinhole, uids_pinhole, List.mem_cons, not_or]
      by_cases same : uid' = uid
      · simp [same]
      · rw [if_neg same, ih]
        simp [Ne.symm same]

theorem uids_without :
    (uids (without uid items)).Sublist (uids items) :=
  List.Sublist.filterMap _ List.filter_sublist

theorem not_mem_without : uid ∉ uids (without uid items) := by
  apply lookup_none_iff.mp
  rw [lookup_without, if_pos rfl]

theorem lookup_alive (once : (uids items).Nodup) (now : Nat) :
    lookup uid (items.filter (Item.alive now)) = (lookup uid items).filter (Entry.alive now) := by
  induction items with
  | nil => rfl
  | cons item items ih =>
    cases item with
    | other desc exprs =>
      rw [List.filter_cons_of_pos rfl, lookup_other, lookup_other]
      exact ih once
    | pinhole uid' e =>
      rw [uids_pinhole, List.nodup_cons] at once
      have rest := ih once.2
      by_cases live : (Item.pinhole uid' e).alive now = true
      · rw [List.filter_cons_of_pos live, lookup_pinhole, lookup_pinhole, rest]
        have kept : (some e).filter (Entry.alive now) = some e := Option.filter_some_pos live
        split
        · exact kept.symm
        · rfl
      · rw [List.filter_cons_of_neg live, lookup_pinhole, rest]
        split
        · rename_i same
          subst same
          have gone : (some e).filter (Entry.alive now) = none := 
            Option.filter_some_eq_none.mpr live
          rw [lookup_none_iff.mpr once.1, gone]
          rfl
        · rfl

end lookups

end PinholeMap
