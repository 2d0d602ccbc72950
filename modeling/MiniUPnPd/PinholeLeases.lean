import MiniUPnPd.PcpPinholes

/-!
The lease of a pinhole. Requests give a duration and the list keeps the time when it ends. A
request for a pinhole that is there hands that time on where a duration is expected.
-/
namespace PinholeLeases
open CText Iptpinhole PcpPinholes PcpServer

/-- Source, source port, client, port and protocol. -/
abbrev Flow := BitVec 128 × UInt16 × BitVec 128 × UInt16 × UInt8

def flowOf (p : PinholeT) : Flow := (p.saddr, p.sport, p.daddr, p.dport, p.proto)

section functions
variable (env : PinholeEnv)

/-- `upnp_add_inboundpinhole` with the uid that it hands back, or none when it writes none. -/
def addInboundpinhole (raddr : Option CString) (rport : UInt16) (iaddr : CString)
    (iport : UInt16) (proto : UInt8) (desc : CString) (leasetime : Nat) (fw : Firewall) :
    Option (Int × Option Int × Firewall) :=
  match env.inetPton6 iaddr with
  | none => some (-4, none, fw)
  | some _ =>
    let timestamp := pinholeExpiry env leasetime
    match upnpFindInboundpinhole env raddr rport iaddr iport proto fw with
    | some uid =>
        let (r, fw) := upnpUpdateInboundpinhole env uid timestamp fw
        some (if r ≥ 0 then 1 else r, some uid.toNat, fw)
    | none =>
        (addPinhole env.inetPton6 env.extIfName6 raddr rport iaddr iport proto desc timestamp
          fw).map fun (uid, fw) => (if uid ≥ 0 then 1 else -1, some uid, fw)

theorem addInboundpinhole_result (raddr : Option CString) (rport : UInt16) (iaddr : CString)
    (iport : UInt16) (proto : UInt8) (desc : CString) (leasetime : Nat) (fw : Firewall) :
    upnpAddInboundpinhole env raddr rport iaddr iport proto desc leasetime fw =
      (addInboundpinhole env raddr rport iaddr iport proto desc leasetime fw).map
        fun (r, _, fw) => (r, fw) := by
  unfold upnpAddInboundpinhole addInboundpinhole
  cases env.inetPton6 iaddr with
  | none => rfl
  | some address =>
    dsimp only
    cases upnpFindInboundpinhole env raddr rport iaddr iport proto fw with
    | some uid => rfl
    | none =>
      dsimp only
      rw [Option.map_map]
      rfl

/-- Zero once the time has come. -/
def leaseLeft (timestamp : Nat) : Nat :=
  if timestamp > env.clock.upnpTime % 2 ^ 32 then
    (((timestamp : Int) - env.clock.upnpTime) % 2 ^ 32).toNat
  else 0

/-- `upnp_get_pinhole_info` for the lease, or none when there is no such pinhole. -/
def getPinholeLease (uid : UInt16) (fw : Firewall) : Option Nat :=
  (getPinhole uid fw).map fun p => leaseLeft env p.timestamp

/-- The remote address that is asked for, zero for any. A text has to be an address. -/
def sourceAsked (raddr : Option CString) : Option (BitVec 128) :=
  match raddr with
  | none => some 0
  | some s => if s = [] then some 0 else env.inetPton6 s

def flowAsked (raddr : Option CString) (rport : UInt16) (iaddr : CString) (iport : UInt16)
    (proto : UInt8) : Option Flow := do
  let source ← sourceAsked env raddr
  let client ← env.inetPton6 iaddr
  pure (source, rport, client, iport, proto)

/-- The pinhole with this uid is for the flow that was asked for, and its lease is as asked. -/
def Leased (raddr : Option CString) (rport : UInt16) (iaddr : CString) (iport : UInt16)
    (proto : UInt8) (leasetime : Nat) (uid : Int) (fw : Firewall) : Prop :=
  (∃ p ∈ fw.pinholeList, (p.uid.toNat : Int) = uid ∧
      flowAsked env raddr rport iaddr iport proto = some (flowOf p) ∧
      p.timestamp = env.clock.upnpTime + leasetime) ∧
    getPinholeLease env (UInt16.ofInt uid) fw = some leasetime

/-- A pinhole for the flow is in the list. -/
def AlreadyThere (raddr : Option CString) (rport : UInt16) (iaddr : CString) (iport : UInt16)
    (proto : UInt8) (fw : Firewall) : Prop :=
  ∃ p ∈ fw.pinholeList, flowAsked env raddr rport iaddr iport proto = some (flowOf p)

end functions

section lease
variable {env : PinholeEnv} {raddr : Option CString} {rport iport : UInt16} {iaddr : CString}
  {proto : UInt8} {leasetime : Nat} {fw fw' : Firewall} {uid : Int}

theorem leaseLeft_granted (small : env.clock.upnpTime + leasetime < 2 ^ 32) :
    leaseLeft env (env.clock.upnpTime + leasetime) = leasetime := by
  unfold leaseLeft
  split <;> omega

/-- With the right expiry time the lease that is read back is right too. -/
theorem leased_iff (small : env.clock.upnpTime + leasetime < 2 ^ 32) {p : PinholeT}
    (member : p ∈ fw.pinholeList) :
    Leased env raddr rport iaddr iport proto leasetime p.uid.toNat fw ↔
      flowAsked env raddr rport iaddr iport proto = some (flowOf p) ∧
        p.timestamp = env.clock.upnpTime + leasetime := by
  have number := ofInt_toNat p.uid
  constructor
  · intro leased
    obtain ⟨q, inside, same, flow, time⟩ := leased.1
    have uids : q.uid = p.uid := UInt16.toNat_inj.mp (Int.ofNat_inj.mp same)
    obtain rfl := List.inj_on_of_nodup_map fw.distinct inside member uids
    exact ⟨flow, time⟩
  · intro both
    refine ⟨⟨p, member, rfl, both.1, both.2⟩, ?_⟩
    rw [getPinholeLease, number, getPinhole_of_mem member, Option.map_some, both.2,
      leaseLeft_granted small]

/-- An address that is asked for is what is looked for and what a new pinhole is for. -/
theorem source_asked {source : BitVec 128} (asked : sourceAsked env raddr = some source) :
    soughtAddr env.inetPton6 env.stack.1 raddr = source ∧
      remoteAddr env.inetPton6 raddr = source := by
  cases raddr with
  | none => exact ⟨Option.some.inj asked, Option.some.inj asked⟩
  | some text =>
    by_cases empty : text = []
    · subst empty
      exact ⟨Option.some.inj asked, Option.some.inj asked⟩
    · simp only [sourceAsked, empty, ↓reduceIte] at asked
      simp [soughtAddr, remoteAddr, empty, asked]

/-- The pinhole that the search finds is for the flow, when the remote host is an address. -/
theorem found_flow {q : PinholeT} {source client : BitVec 128}
    (asked : sourceAsked env raddr = some source) (inner : env.inetPton6 iaddr = some client) :
    pinholeMatches (soughtAddr env.inetPton6 env.stack.1 raddr) rport
        ((env.inetPton6 iaddr).getD env.stack.2) iport proto q = true ↔
      flowAsked env raddr rport iaddr iport proto = some (flowOf q) := by
  have sought := (source_asked asked).1
  simp only [pinholeMatches, sought, inner, Option.getD_some, flowAsked, asked, flowOf,
    Option.bind_eq_bind, Option.bind_some, Option.pure_def, Option.some.injEq, Prod.mk.injEq,
    decide_eq_true_eq]
  constructor
  · intro same
    obtain ⟨protocol, sport, saddr, dport, daddr⟩ := same
    exact ⟨saddr, sport, daddr, dport, protocol⟩
  · intro same
    obtain ⟨saddr, sport, daddr, dport, protocol⟩ := same
    exact ⟨protocol, sport, saddr, dport, daddr⟩

/-- A new pinhole ends when its lease does. -/
theorem added_lease {desc : CString} {source client : BitVec 128}
    (small : env.clock.upnpTime + leasetime < 2 ^ 32)
    (asked : sourceAsked env raddr = some source) (inner : env.inetPton6 iaddr = some client)
    (added : addPinhole env.inetPton6 env.extIfName6 raddr rport iaddr iport proto desc
      (pinholeExpiry env leasetime) fw = some (uid, fw')) (success : 0 ≤ uid) :
    Leased env raddr rport iaddr iport proto leasetime uid fw' := by
  unfold addPinhole at added
  dsimp only at added
  split at added
  · obtain ⟨⟨number, after⟩, listed, same⟩ := Option.map_eq_some_iff.mp added
    obtain ⟨rfl, rfl⟩ := Prod.mk.inj same
    have list := addToPinholeList_some listed
    obtain ⟨p, new, list⟩ : ∃ p : PinholeT,
        p = { saddr := remoteAddr env.inetPton6 raddr, daddr := (env.inetPton6 iaddr).getD 0
              timestamp := pinholeExpiry env leasetime, sport := rport, dport := iport
              uid := number, proto, desc } ∧
          after.pinholeList = p :: fw.pinholeList := ⟨_, rfl, list⟩
    have member : p ∈ after.pinholeList := by
      rw [list]
      exact List.mem_cons_self
    have uids : number = p.uid := by rw [new]
    dsimp only
    rw [uids]
    apply (leased_iff small member).mpr
    have remote := (source_asked asked).2
    have time : p.timestamp = pinholeExpiry env leasetime := by rw [new]
    refine ⟨?_, time.trans (Nat.mod_eq_of_lt small)⟩
    simp [flowAsked, asked, inner, flowOf, new, remote]
  · obtain ⟨rfl, _⟩ := Prod.mk.inj (Option.some.inj added)
    omega

/-- One that was there gets the time of the request in addition. -/
theorem renewed_lease {p : PinholeT} (small : env.clock.upnpTime + leasetime < 2 ^ 32)
    (member : p ∈ fw.pinholeList)
    (flow : flowAsked env raddr rport iaddr iport proto = some (flowOf p)) :
    Leased env raddr rport iaddr iport proto leasetime p.uid.toNat
        (upnpUpdateInboundpinhole env p.uid (pinholeExpiry env leasetime) fw).2 ↔
      env.clock.upnpTime = 0 := by
  have list := (updatePinhole_of_mem member
    (pinholeExpiry env (pinholeExpiry env leasetime))).2
  let q : PinholeT := { p with timestamp := pinholeExpiry env (pinholeExpiry env leasetime) }
  have here : q ∈ (upnpUpdateInboundpinhole env p.uid (pinholeExpiry env leasetime)
      fw).2.pinholeList := by
    unfold upnpUpdateInboundpinhole
    rw [list]
    refine List.mem_map.mpr ⟨p, member, ?_⟩
    rw [withTimestamp, if_pos rfl]
  have exact := @leased_iff env raddr rport iport iaddr proto leasetime _ small q here
  have flow' : flowOf q = flowOf p := rfl
  have number : q.uid = p.uid := rfl
  have time : q.timestamp = (env.clock.upnpTime + (env.clock.upnpTime + leasetime) % 2 ^ 32) %
      2 ^ 32 := rfl
  rw [number, flow', time] at exact
  rw [exact]
  simp only [flow, true_and]
  omega

end lease

/-- After a request that is answered with 1, the pinhole is as asked for exactly if the remote host
    is an address or any, and the pinhole is new; or the clock stands at zero. -/
theorem leased_right_iff (env : PinholeEnv) (raddr : Option CString) (rport : UInt16)
    (iaddr : CString) (iport : UInt16) (proto : UInt8) (desc : CString) (leasetime : Nat)
    (fw fw' : Firewall) (uid : Int) (small : env.clock.upnpTime + leasetime < 2 ^ 32)
    (success : addInboundpinhole env raddr rport iaddr iport proto desc leasetime fw =
      some (1, some uid, fw')) :
    Leased env raddr rport iaddr iport proto leasetime uid fw' ↔
      (sourceAsked env raddr).isSome ∧
        (AlreadyThere env raddr rport iaddr iport proto fw → env.clock.upnpTime = 0) := by
  cases asked : sourceAsked env raddr with
  | none =>
    constructor
    · intro leased
      obtain ⟨p, _, _, flow, _⟩ := leased.1
      simp [flowAsked, asked] at flow
    · intro both
      simp at both
  | some source =>
    unfold addInboundpinhole at success
    split at success
    · simp at success
    · rename_i client inner
      have flow := fun q => @found_flow env raddr rport iport iaddr proto q source client asked inner
      dsimp only at success
      unfold upnpFindInboundpinhole findPinhole at success
      split at success
      · rename_i number found
        obtain ⟨p, first, rfl⟩ := Option.map_eq_some_iff.mp found
        obtain ⟨_, same⟩ := Prod.mk.inj (Option.some.inj success)
        obtain ⟨number, rfl⟩ := Prod.mk.inj same
        obtain rfl := Option.some.inj number
        have member := List.mem_of_find?_eq_some first
        have hit := (flow p).mp (List.find?_some first)
        have there : AlreadyThere env raddr rport iaddr iport proto fw := ⟨p, member, hit⟩
        rw [renewed_lease small member hit]
        simp [there]
      · rename_i missing
        obtain ⟨⟨number, after⟩, added, same⟩ := Option.map_eq_some_iff.mp success
        obtain ⟨result, same⟩ := Prod.mk.inj same
        obtain ⟨written, rfl⟩ := Prod.mk.inj same
        obtain rfl := Option.some.inj written
        have absent : ¬ AlreadyThere env raddr rport iaddr iport proto fw := by
          intro there
          obtain ⟨p, member, hit⟩ := there
          have none_found := List.find?_eq_none.mp (Option.map_eq_none_iff.mp missing) p member
          exact none_found ((flow p).mpr hit)
        have positive : 0 ≤ number := by
          by_contra negative
          rw [if_neg negative] at result
          omega
        have leased := added_lease small asked inner added positive
        simp [leased, absent]

/-- A request for port 80 of a host, for an hour. -/
def hourRequest (now : Nat) (fw : Firewall) : Option (Int × Option Int × Firewall) :=
  addInboundpinhole (plainPinholes now) none 0 "2001:db8::2".toList 80 6 "web".toList 3600 fw

def hourOpened : Firewall := ((hourRequest 1000 .empty).map fun r => r.2.2).getD .empty

theorem leased_right_new :
    Leased (plainPinholes 1000) none 0 "2001:db8::2".toList 80 6 3600 1 hourOpened ↔
      (sourceAsked (plainPinholes 1000) none).isSome ∧
        (AlreadyThere (plainPinholes 1000) none 0 "2001:db8::2".toList 80 6 .empty →
          (plainPinholes 1000).clock.upnpTime = 0) :=
  have success : addInboundpinhole (plainPinholes 1000) none 0 "2001:db8::2".toList 80 6
      "web".toList 3600 .empty = some (1, some 1, hourOpened) := rfl
  leased_right_iff (plainPinholes 1000) none 0 "2001:db8::2".toList 80 6 "web".toList 3600 .empty
    hourOpened 1 (by decide) success

def hourRenewed : Firewall := ((hourRequest 1000 hourOpened).map fun r => r.2.2).getD .empty

/-- The same request again at the same time is answered with 1 and the uid, and the lease is longer
    by the time of the request. -/
theorem renewed_longer :
    hourRequest 1000 hourOpened = some (1, some 1, hourRenewed) ∧
      ¬ Leased (plainPinholes 1000) none 0 "2001:db8::2".toList 80 6 3600 1 hourRenewed := by
  refine ⟨rfl, ?_⟩
  intro leased
  have left : getPinholeLease (plainPinholes 1000) (UInt16.ofInt 1) hourRenewed = some 4600 := by
    decide
  rw [leased.2] at left
  simp at left

end PinholeLeases
