import Mathlib.Data.List.Nodup
import MiniUPnPd.Netfilter.Iptc

/-!
The pinholes of the IPv6 firewall: ACCEPT rules in the chain MINIUPNPD of the ip6tables
filter table, and the daemon's own list, which gives each pinhole its uid, its description
and its expiry time. A libip6tc call that fails changes nothing. Allocations succeed.
-/
namespace Iptpinhole

/-- The destination mask and the target are the same in all rules. -/
structure Ip6tEntry where
  iniface : Option CString
  proto : UInt8
  src : BitVec 128
  smsk : BitVec 128
  dst : BitVec 128
  spts : UInt16 × UInt16
  dpts : UInt16 × UInt16
  deriving DecidableEq

/-- `struct pinhole_t` -/
structure PinholeT where
  saddr : BitVec 128
  daddr : BitVec 128
  timestamp : Nat
  sport : UInt16
  dport : UInt16
  uid : UInt16
  proto : UInt8
  desc : CString
  deriving DecidableEq

structure Firewall where
  chain : List Ip6tEntry
  pinholeList : List PinholeT
  nextUid : Nat
  ip6tcResults : List Bool
  distinct : (pinholeList.map PinholeT.uid).Nodup

def Firewall.empty : Firewall :=
  { chain := [], pinholeList := [], nextUid := 1, ip6tcResults := [], distinct := List.nodup_nil }

/-- Calls made one after the other, up to the first that fails. -/
def ip6tcCalls : Nat → List Bool → Bool × List Bool
  | 0, results => (true, results)
  | _ + 1, [] => (true, [])
  | n + 1, done :: results => if done then ip6tcCalls n results else (false, results)

def Firewall.called (n : Nat) (fw : Firewall) : Bool × Firewall :=
  let (done, ip6tcResults) := ip6tcCalls n fw.ip6tcResults
  (done, { fw with ip6tcResults })

def getPinhole (uid : UInt16) (fw : Firewall) : Option PinholeT :=
  fw.pinholeList.find? fun p => p.uid = uid

def succUid (uid : Nat) : Nat := if uid + 1 > 65535 then 1 else uid + 1

/-- The first uid from `next` on that is not taken. -/
def freeUid (taken : List UInt16) : (fuel : Nat) → (next : Nat) → Option Nat
  | 0, _ => none
  | fuel + 1, next =>
      if UInt16.ofNat next ∈ taken then freeUid taken fuel (succUid next) else some next

theorem freeUid_fresh {taken : List UInt16} {fuel next uid : Nat}
    (found : freeUid taken fuel next = some uid) : UInt16.ofNat uid ∉ taken := by
  induction fuel generalizing next with
  | zero => simp [freeUid] at found
  | succ fuel ih =>
    unfold freeUid at found
    split at found
    · exact ih found
    · obtain rfl := Option.some.inj found
      assumption

/-- The new entry is in the list, with uid 0, while a uid is searched for. When all are
    taken the search never ends. -/
def addToPinholeList (saddr : BitVec 128) (sport : UInt16) (daddr : BitVec 128)
    (dport : UInt16) (proto : UInt8) (desc : CString) (timestamp : Nat) (fw : Firewall) :
    Option (UInt16 × Firewall) :=
  match found : freeUid (0 :: fw.pinholeList.map PinholeT.uid) 65535 fw.nextUid with
  | none => none
  | some next =>
      let uid := UInt16.ofNat next
      let p : PinholeT := { saddr, daddr, timestamp, sport, dport, uid, proto, desc }
      have distinct : ((p :: fw.pinholeList).map PinholeT.uid).Nodup :=
        List.nodup_cons.mpr
          ⟨fun inside => freeUid_fresh found (List.mem_cons_of_mem _ inside), fw.distinct⟩
      some (uid, { fw with pinholeList := p :: fw.pinholeList, nextUid := succUid next, distinct })

/-- Port 0 stands for all source ports. -/
def sourceRange (port : UInt16) : UInt16 × UInt16 := if port = 0 then (0, 0xFFFF) else (port, port)

section
variable (inetPton6 : CString → Option (BitVec 128))

/-- The remote host, if one is given. -/
def remoteAddr (remHost : Option CString) : BitVec 128 :=
  match remHost with
  | none => 0
  | some s => if s = [] then 0 else (inetPton6 s).getD 0

/-- The source mask; a text that is no address gets one too. -/
def remoteMask (remHost : Option CString) : BitVec 128 :=
  match remHost with
  | none => 0
  | some s => if s = [] then 0 else BitVec.allOnes 128

/-- The result is negative when libip6tc fails. -/
def addPinhole (ifname remHost : Option CString) (remPort : UInt16) (intClient : CString)
    (intPort : UInt16) (proto : UInt8) (desc : CString) (timestamp : Nat) (fw : Firewall) :
    Option (Int × Firewall) :=
  let src := remoteAddr inetPton6 remHost
  let dst := (inetPton6 intClient).getD 0
  let (done, fw) := fw.called 4
  if done then
    let e : Ip6tEntry :=
      { iniface := ifname, proto, src, smsk := remoteMask remHost, dst
        spts := sourceRange remPort, dpts := (intPort, intPort) }
    (addToPinholeList src remPort dst intPort proto desc timestamp
      { fw with chain := fw.chain ++ [e] }).map fun (uid, fw) => (uid.toNat, fw)
  else some (-1, fw)

def pinholeMatches (saddr : BitVec 128) (sport : UInt16) (daddr : BitVec 128) (dport : UInt16)
    (proto : UInt8) (p : PinholeT) : Bool :=
  proto = p.proto ∧ sport = p.sport ∧ saddr = p.saddr ∧ dport = p.dport ∧ daddr = p.daddr

/-- The remote host that is searched for. A text that is no address leaves what was in the
    buffer. -/
def soughtAddr (stack : BitVec 128) (remHost : Option CString) : BitVec 128 :=
  match remHost with
  | none => 0
  | some s => if s = [] then 0 else (inetPton6 s).getD stack

/-- The uid of the first pinhole for these hosts and ports. `stack` is what the two address
    buffers held before. -/
def findPinhole (stack : BitVec 128 × BitVec 128) (remHost : Option CString) (remPort : UInt16)
    (intClient : CString) (intPort : UInt16) (proto : UInt8) (fw : Firewall) : Option UInt16 :=
  (fw.pinholeList.find?
    (pinholeMatches (soughtAddr inetPton6 stack.1 remHost) remPort
      ((inetPton6 intClient).getD stack.2) intPort proto)).map (·.uid)

end

def ruleMatches (p : PinholeT) (e : Ip6tEntry) : Bool :=
  e.proto = p.proto ∧ e.src = p.saddr ∧ e.dst = p.daddr ∧ e.spts.1 = p.sport ∧ e.dpts.1 = p.dport

/-- Out of the list only. -/
def Firewall.forget (uid : UInt16) (fw : Firewall) : Firewall :=
  { fw with
    pinholeList := fw.pinholeList.eraseP fun p => p.uid = uid
    distinct := fw.distinct.sublist (List.Sublist.map _ List.eraseP_sublist) }

/-- A pinhole without its rule goes too, with an error. -/
def deletePinhole (uid : UInt16) (fw : Firewall) : Int × Firewall :=
  match getPinhole uid fw with
  | none => (-2, fw)
  | some p =>
      let (opened, fw) := fw.called 2
      if opened then
        match FirstMatch.findFirst (ruleMatches p) fw.chain with
        | none => (-2, fw.forget uid)
        | some (index, _) =>
            let (deleted, fw) := fw.called 2
            if deleted then (0, { fw with chain := fw.chain.eraseIdx index }.forget uid)
            else (-1, fw)
      else (-1, fw)

def withTimestamp (uid : UInt16) (timestamp : Nat) (p : PinholeT) : PinholeT :=
  if p.uid = uid then { p with timestamp } else p

theorem withTimestamp_uid (uid : UInt16) (timestamp : Nat) (p : PinholeT) :
    (withTimestamp uid timestamp p).uid = p.uid := by
  unfold withTimestamp
  split <;> rfl

def updatePinhole (uid : UInt16) (timestamp : Nat) (fw : Firewall) : Int × Firewall :=
  match getPinhole uid fw with
  | none => (-2, fw)
  | some _ =>
      have same : (fw.pinholeList.map (withTimestamp uid timestamp)).map PinholeT.uid =
          fw.pinholeList.map PinholeT.uid := by
        rw [List.map_map]
        exact List.map_congr_left fun p _ => withTimestamp_uid uid timestamp p
      (0, { fw with
            pinholeList := fw.pinholeList.map (withTimestamp uid timestamp)
            distinct := same ▸ fw.distinct })

def UINT_MAX : Nat := 2 ^ 32 - 1

/-- The loop of `clean_pinhole_list`, with the number of pinholes removed and the earliest
    expiry time of those passed over. A removal that fails ends it. -/
def cleanLoop (now : Nat) : List PinholeT → (n minTs : Nat) → Firewall → (Nat × Nat) × Firewall
  | [], n, minTs, fw => ((n, minTs), fw)
  | p :: rest, n, minTs, fw =>
      if p.timestamp ≤ now then
        let (r, fw) := deletePinhole p.uid fw
        if r = 0 then cleanLoop now rest (n + 1) minTs fw else ((n, minTs), fw)
      else cleanLoop now rest n (min p.timestamp minTs) fw

/-- The next expiry time is written unless no pinhole is left that has one. -/
def cleanPinholeList (now : Nat) (fw : Firewall) : (Nat × Option Nat) × Firewall :=
  let ((n, minTs), fw) := cleanLoop (now % 2 ^ 32) fw.pinholeList 0 UINT_MAX fw
  ((n, if minTs = UINT_MAX then none else some minTs), fw)

section entries
variable {fw fw' : Firewall} {p : PinholeT}

/-- Each entry is found by its uid. -/
theorem getPinhole_of_mem (member : p ∈ fw.pinholeList) : getPinhole p.uid fw = some p := by
  have hit : ((fw.pinholeList.find? fun q => q.uid = p.uid)).isSome := by
    rw [List.find?_isSome]
    exact ⟨p, member, by simp⟩
  obtain ⟨q, found⟩ := Option.isSome_iff_exists.mp hit
  have same : q.uid = p.uid := by simpa using List.find?_some found
  have inside := List.mem_of_find?_eq_some found
  rw [getPinhole, found, List.inj_on_of_nodup_map fw.distinct inside member same]

theorem updatePinhole_of_mem (member : p ∈ fw.pinholeList) (timestamp : Nat) :
    (updatePinhole p.uid timestamp fw).1 = 0 ∧
      (updatePinhole p.uid timestamp fw).2.pinholeList =
        fw.pinholeList.map (withTimestamp p.uid timestamp) := by
  have found := getPinhole_of_mem member
  unfold updatePinhole
  split
  · rename_i missing
    simp [found] at missing
  · exact ⟨rfl, rfl⟩

theorem addToPinholeList_some {saddr daddr : BitVec 128} {sport dport uid : UInt16}
    {proto : UInt8} {desc : CString} {timestamp : Nat}
    (added : addToPinholeList saddr sport daddr dport proto desc timestamp fw = some (uid, fw')) :
    fw'.pinholeList =
      { saddr, daddr, timestamp, sport, dport, uid, proto, desc } :: fw.pinholeList := by
  unfold addToPinholeList at added
  split at added
  · simp at added
  · obtain ⟨rfl, rfl⟩ := Prod.mk.inj (Option.some.inj added)
    rfl

/-- Either libip6tc has failed, or the new pinhole is at the head of the list. -/
theorem addPinhole_some {inetPton6 : CString → Option (BitVec 128)} {ifname remHost : Option CString}
    {remPort intPort : UInt16} {intClient desc : CString} {proto : UInt8} {timestamp : Nat} {r : Int}
    (added : addPinhole inetPton6 ifname remHost remPort intClient intPort proto desc timestamp fw =
      some (r, fw')) :
    r = -1 ∧ fw'.pinholeList = fw.pinholeList ∨
      0 ≤ r ∧ ∃ uid, fw'.pinholeList =
        { saddr := remoteAddr inetPton6 remHost, daddr := (inetPton6 intClient).getD 0, timestamp
          sport := remPort, dport := intPort, uid, proto, desc } :: fw.pinholeList := by
  unfold addPinhole at added
  dsimp only at added
  split at added
  · obtain ⟨⟨uid, next⟩, listed, same⟩ := Option.map_eq_some_iff.mp added
    obtain ⟨rfl, rfl⟩ := Prod.mk.inj same
    have head := addToPinholeList_some listed
    exact .inr ⟨Int.natCast_nonneg _, uid, head⟩
  · obtain ⟨rfl, rfl⟩ := Prod.mk.inj (Option.some.inj added)
    exact .inl ⟨rfl, rfl⟩

theorem updatePinhole_chain (uid : UInt16) (timestamp : Nat) (fw : Firewall) :
    (updatePinhole uid timestamp fw).2.chain = fw.chain := by
  unfold updatePinhole
  split <;> rfl

theorem addToPinholeList_chain {saddr daddr : BitVec 128} {sport dport uid : UInt16}
    {proto : UInt8} {desc : CString} {timestamp : Nat}
    (added : addToPinholeList saddr sport daddr dport proto desc timestamp fw = some (uid, fw')) :
    fw'.chain = fw.chain := by
  unfold addToPinholeList at added
  split at added
  · simp at added
  · obtain ⟨_, rfl⟩ := Prod.mk.inj (Option.some.inj added)
    rfl

/-- A rule to the internal client is all that the chain gets. -/
theorem addPinhole_chain {inetPton6 : CString → Option (BitVec 128)} {ifname remHost : Option CString}
    {remPort intPort : UInt16} {intClient desc : CString} {proto : UInt8} {timestamp : Nat} {r : Int}
    (added : addPinhole inetPton6 ifname remHost remPort intClient intPort proto desc timestamp fw =
      some (r, fw')) :
    fw'.chain = fw.chain ∨
      ∃ e : Ip6tEntry, e.dst = (inetPton6 intClient).getD 0 ∧ fw'.chain = fw.chain ++ [e] := by
  unfold addPinhole at added
  dsimp only at added
  split at added
  · obtain ⟨⟨uid, next⟩, listed, same⟩ := Option.map_eq_some_iff.mp added
    obtain ⟨_, rfl⟩ := Prod.mk.inj same
    refine .inr ⟨_, ?_, addToPinholeList_chain listed⟩
    rfl
  · obtain ⟨_, rfl⟩ := Prod.mk.inj (Option.some.inj added)
    exact .inl rfl

theorem deletePinhole_list (member : p ∈ fw.pinholeList) :
    (deletePinhole p.uid fw).2.pinholeList = fw.pinholeList ∨
      (deletePinhole p.uid fw).2.pinholeList = fw.pinholeList.eraseP fun q => q.uid = p.uid := by
  unfold deletePinhole
  rw [getPinhole_of_mem member]
  dsimp only
  split
  · split
    · exact .inr rfl
    · split
      · exact .inr rfl
      · exact .inl rfl
  · exact .inl rfl

/-- A rule of the pinhole is all that the chain loses. -/
theorem deletePinhole_chain (member : p ∈ fw.pinholeList) :
    (deletePinhole p.uid fw).2.chain = fw.chain ∨
      ∃ e, fw.chain.find? (ruleMatches p) = some e ∧
        (deletePinhole p.uid fw).2.chain = fw.chain.eraseP (ruleMatches p) := by
  unfold deletePinhole
  rw [getPinhole_of_mem member]
  dsimp only
  split
  · split
    · exact .inl rfl
    · rename_i index e found
      split
      · have first : fw.chain.find? (ruleMatches p) = some e := FirstMatch.find?_of_findFirst found
        have erased : fw.chain.eraseIdx index = fw.chain.eraseP (ruleMatches p) :=
          FirstMatch.eraseIdx_of_findFirst found
        exact .inr ⟨e, first, erased⟩
      · exact .inl rfl
  · exact .inl rfl

end entries

end Iptpinhole
