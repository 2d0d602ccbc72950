import MiniUPnPd.FirewallControl
import MiniUPnPd.PcpThirdParty

/-!
Whose pinholes a control point reaches. All actions leave the pinholes of other hosts as they
are. A client that writes its own address in another way than the daemon does, or gives its
host name, is refused.
-/
namespace PinholeOwners
open CText FirewallControl Inet Iptpinhole NetBytes PcpPinholes PcpServer PcpThirdParty Runs

/-- The address that a text stands for, in any of its forms, or as a host name. -/
def Denotes (env : FirewallEnv) (intIp : CString) (a : In6Addr) : Prop :=
  match inetPton6 intIp with
  | some b => b = a
  | none => (firstInet6 (env.getaddrinfo intIp none .AF_UNSPEC)).map AddrInfo.addr = some a

/-- The entry that is found for a host name begins with the bytes of the address, and these
    have a text of less than 16 characters. -/
def EntryReads (p : AddrInfo) (a : In6Addr) : Prop := p.head = a ∧ (inetNtop6 a).length < 16

/-- The address is in the form that the daemon writes, if it is that of the client. -/
def CheckMeets (env : FirewallEnv) (a : In6Addr) (intIp : CString) (intPort : UInt16) : Prop :=
  1024 ≤ intPort →
    match inetPton6 intIp with
    | some b => b = a → intIp = inetNtop6 a
    | none => ∀ p, firstInet6 (env.getaddrinfo intIp none .AF_UNSPEC) = some p →
        (p.addr = a ↔ EntryReads p a)

inductive Op where
  | addPinhole (env : FirewallEnv) (args : Args)
  | updatePinhole (env : FirewallEnv) (args : Args)
  | deletePinhole (env : FirewallEnv) (args : Args)

/-- The reply and the state after a request of the client `a`, if there is one. -/
def serve (a : In6Addr) (fw : Firewall) : Op → Option (Reply × Firewall)
  | .addPinhole env args => FirewallControl.addPinhole env a args fw
  | .updatePinhole env args => some (FirewallControl.updatePinhole env a args fw)
  | .deletePinhole env args => some (FirewallControl.deletePinhole env a args fw)

/-- None once the daemon searches for a uid without end. -/
def step (a : In6Addr) (fw : Option Firewall) (op : Op) : Option Firewall :=
  fw.bind fun fw => (serve a fw op).map (·.2)

/-- A request for the own address, with a port that clients may ask for. -/
def AsksOwn (a : In6Addr) (fw : Firewall) : Op → Prop
  | .addPinhole env args => ∃ intIp, getValueFromNameValueList args "InternalClient" = some intIp ∧
      Denotes env intIp a ∧ 1024 ≤ portArgument args "InternalPort"
  | .updatePinhole _ args | .deletePinhole _ args =>
      ∃ p ∈ fw.pinholeList, (p.uid.toNat : Int) = intArgument args "UniqueID" ∧ p.daddr = a ∧
        1024 ≤ p.dport

def Passes (a : In6Addr) (fw : Option Firewall) (op : Op) : Prop :=
  ∀ s reply, fw = some s → AsksOwn a s op → (serve a s op).map (·.1) = some reply →
    reply ≠ notAuthorized

/-- A request that gets as far as the check of the client gives it in the form that passes. -/
def Spelt (a : In6Addr) (fw : Option Firewall) : Op → Prop
  | .addPinhole env args => ∀ s req, fw = some s → checkStatus env = none →
      addArguments env args = .ok req → 1024 ≤ req.iport →
      match inetPton6 req.intIp with
      | some b => b = a → req.intIp = inetNtop6 a
      | none => ∀ p, firstInet6 (env.getaddrinfo req.intIp none .AF_UNSPEC) = some p →
          p.addr = a → EntryReads p a
  | .updatePinhole _ _ | .deletePinhole _ _ => True

section check
variable {env : FirewallEnv} {a : In6Addr} {intIp : CString} {intPort : UInt16}

/-- The texts agree: what the check looks at. -/
def Shown (env : FirewallEnv) (a : In6Addr) (intIp : CString) : Prop :=
  match inetPton6 intIp with
  | some _ => intIp = inetNtop6 a
  | none => ∃ p, firstInet6 (env.getaddrinfo intIp none .AF_UNSPEC) = some p ∧ EntryReads p a

theorem converted_iff : convertedClient env intIp = some (inetNtop6 a) ↔ Shown env a intIp := by
  unfold convertedClient Shown
  cases read : inetPton6 intIp with
  | some b => simp
  | none =>
    have other : intIp ≠ inetNtop6 a := by
      rintro rfl
      simp [inetPton6_inetNtop6] at read
    simp only [Option.map_eq_some_iff, EntryReads]
    constructor
    · rintro ⟨p, first, text⟩
      split at text
      · rename_i short
        have same := inetNtop6_injective text
        exact ⟨p, first, same, same ▸ short⟩
      · exact absurd text other
    · rintro ⟨p, first, same, short⟩
      exact ⟨p, first, by simp [same, short]⟩

theorem verification_one_iff :
    (pinholeVerification env a intIp intPort).1 = 1 ↔ Shown env a intIp ∧ 1024 ≤ intPort := by
  rw [← converted_iff]
  unfold pinholeVerification
  cases convertedClient env intIp with
  | none => simp
  | some text =>
    dsimp only
    split
    · rename_i differ
      simp [Ne.symm differ]
    · rename_i agree
      rw [not_not.mp agree]
      split
      · rename_i low
        simp [low]
      · rename_i high
        simpa using high

theorem verification_cases (env : FirewallEnv) (a : In6Addr) (intIp : CString) (intPort : UInt16) :
    let verified := pinholeVerification env a intIp intPort
    verified.1 = -1 ∧ convertedClient env intIp = none ∨
      verified.1 = 0 ∧ ¬ (Shown env a intIp ∧ 1024 ≤ intPort) ∨
      verified = (1, inetNtop6 a) ∧ Shown env a intIp ∧ 1024 ≤ intPort := by
  have one := @verification_one_iff env a intIp intPort
  rw [← one]
  unfold pinholeVerification
  cases convertedClient env intIp with
  | none => simp
  | some text =>
    dsimp only
    split
    · simp
    · rename_i agree
      rw [not_not.mp agree]
      split
      · simp
      · simp

theorem shown_address (env : FirewallEnv) (a b : In6Addr) :
    Shown env a (inetNtop6 b) ↔ b = a := by
  simp only [Shown, inetPton6_inetNtop6]
  exact ⟨inetNtop6_injective, congrArg inetNtop6⟩

theorem shown_denotes_iff :
    (Shown env a intIp ↔ Denotes env intIp a) ↔
      match inetPton6 intIp with
      | some b => b = a → intIp = inetNtop6 a
      | none => ∀ p, firstInet6 (env.getaddrinfo intIp none .AF_UNSPEC) = some p →
          (p.addr = a ↔ EntryReads p a) := by
  unfold Shown Denotes
  cases read : inetPton6 intIp with
  | some b =>
    have written : intIp = inetNtop6 a → b = a := by
      rintro rfl
      rw [inetPton6_inetNtop6] at read
      exact (Option.some.inj read).symm
    exact ⟨fun same => same.mpr, fun canonical => ⟨written, canonical⟩⟩
  | none =>
    cases firstInet6 (env.getaddrinfo intIp none .AF_UNSPEC) with
    | none => simp
    | some p =>
      simp only [Option.some.injEq, exists_eq_left', Option.map_some, forall_eq']
      exact iff_comm

theorem check_right_iff (env : FirewallEnv) (a : In6Addr) (intIp : CString) (intPort : UInt16) :
    ((pinholeVerification env a intIp intPort).1 = 1 ↔ Denotes env intIp a ∧ 1024 ≤ intPort) ↔
      CheckMeets env a intIp intPort := by
  rw [verification_one_iff, CheckMeets, ← shown_denotes_iff]
  constructor
  · intro same high
    simpa [high] using same
  · intro same
    by_cases high : 1024 ≤ intPort
    · simp [high, same high]
    · simp [high]

end check

section actions
variable {env : FirewallEnv} {a : In6Addr} {args : Args} {fw fw' : Firewall} {reply : Reply}

theorem addInbound_kept {env : PinholeEnv} {remHost : Option CString} {rport iport : UInt16}
    {intIp desc : CString} {proto : UInt8} {ltime : Nat} {r : Int}
    (address : env.inetPton6 intIp = some a)
    (added : upnpAddInboundpinhole env remHost rport intIp iport proto desc ltime fw =
      some (r, fw')) : PinholesKept a fw fw' := by
  unfold upnpAddInboundpinhole at added
  simp only [address] at added
  cases found : upnpFindInboundpinhole env remHost rport intIp iport proto fw with
  | some uid =>
    rw [found] at added
    obtain ⟨_, rfl⟩ := Prod.mk.inj (Option.some.inj added)
    unfold upnpFindInboundpinhole findPinhole at found
    obtain ⟨q, first, rfl⟩ := Option.map_eq_some_iff.mp found
    have hit := List.find?_some first
    simp only [pinholeMatches, address, Option.getD_some, decide_eq_true_eq] at hit
    exact updatePinhole_kept (List.mem_of_find?_eq_some first) hit.2.2.2.2.symm _
  | none =>
    rw [found] at added
    obtain ⟨⟨uid, final⟩, listed, same⟩ := Option.map_eq_some_iff.mp added
    obtain ⟨_, rfl⟩ := Prod.mk.inj same
    exact addPinhole_kept address listed

theorem libc_inetPton6 (env : FirewallEnv) (s : CString) :
    env.libc.inetPton6 s = inetPton6 s := by
  simp only [FirewallEnv.libc]

theorem libc_inetNtop6 (env : FirewallEnv) (a : In6Addr) :
    env.libc.inetNtop6 a = inetNtop6 a := by
  simp only [FirewallEnv.libc]

theorem add_kept (served : FirewallControl.addPinhole env a args fw = some (reply, fw')) :
    PinholesKept a fw fw' := by
  unfold FirewallControl.addPinhole at served
  split at served
  · obtain ⟨_, rfl⟩ := Prod.mk.inj (Option.some.inj served)
    exact ⟨rfl, rfl⟩
  · split at served
    · obtain ⟨_, rfl⟩ := Prod.mk.inj (Option.some.inj served)
      exact ⟨rfl, rfl⟩
    · rename_i req _
      dsimp only at served
      split at served
      · obtain ⟨_, rfl⟩ := Prod.mk.inj (Option.some.inj served)
        exact ⟨rfl, rfl⟩
      · rename_i positive
        obtain ⟨⟨r, final⟩, added, same⟩ := Option.map_eq_some_iff.mp served
        obtain ⟨_, rfl⟩ := Prod.mk.inj same
        rcases verification_cases env a req.intIp req.iport with ⟨minus, _⟩ | ⟨zero, _⟩ | ⟨one, _⟩
        · exact absurd (by omega) positive
        · exact absurd (by omega) positive
        · rw [one] at added
          dsimp only at added ⊢
          have address : env.libc.inetPton6 (inetNtop6 a) = some a := by
            rw [libc_inetPton6, inetPton6_inetNtop6]
          exact addInbound_kept address added

/-- A pinhole that is looked up is in the table, and the text is that of its client. -/
theorem info_some {uid : UInt16} {info : Pinhole}
    (found : upnpGetPinholeInfo env.libc uid fw = some info) :
    ∃ q ∈ fw.pinholeList, q.uid = uid ∧ info.iaddr = inetNtop6 q.daddr ∧ info.iport = q.dport := by
  unfold upnpGetPinholeInfo getPinhole at found
  obtain ⟨q, first, rfl⟩ := Option.map_eq_some_iff.mp found
  have same : q.uid = uid := by simpa using List.find?_some first
  refine ⟨q, List.mem_of_find?_eq_some first, same, ?_, rfl⟩
  dsimp only
  rw [libc_inetNtop6]

/-- A pinhole that passes the check for a client is one of its own. -/
theorem info_own {uid : UInt16} {info : Pinhole}
    (found : upnpGetPinholeInfo env.libc uid fw = some info)
    (positive : ¬ (pinholeVerification env a info.iaddr info.iport).1 ≤ 0) :
    ∃ q ∈ fw.pinholeList, q.uid = uid ∧ q.daddr = a := by
  obtain ⟨q, inside, uid, iaddr, _⟩ := info_some found
  rw [iaddr] at positive
  rcases verification_cases env a (inetNtop6 q.daddr) info.iport with
    ⟨minus, _⟩ | ⟨zero, _⟩ | ⟨_, shown, _⟩
  · exact absurd (by omega) positive
  · exact absurd (by omega) positive
  · rw [shown_address] at shown
    exact ⟨q, inside, uid, shown⟩

theorem update_kept (env : FirewallEnv) (a : In6Addr) (args : Args) (fw : Firewall) :
    PinholesKept a fw (FirewallControl.updatePinhole env a args fw).2 := by
  unfold FirewallControl.updatePinhole
  split
  · exact ⟨rfl, rfl⟩
  · dsimp only
    split
    · exact ⟨rfl, rfl⟩
    · split
      · exact ⟨rfl, rfl⟩
      · rename_i info found
        split
        · exact ⟨rfl, rfl⟩
        · rename_i positive
          obtain ⟨q, inside, uid, own⟩ := info_own found positive
          rw [← uid]
          exact updatePinhole_kept inside own _

theorem delete_kept (env : FirewallEnv) (a : In6Addr) (args : Args) (fw : Firewall) :
    PinholesKept a fw (FirewallControl.deletePinhole env a args fw).2 := by
  unfold FirewallControl.deletePinhole
  split
  · exact ⟨rfl, rfl⟩
  · dsimp only
    split
    · exact ⟨rfl, rfl⟩
    · split
      · exact ⟨rfl, rfl⟩
      · rename_i info found
        split
        · exact ⟨rfl, rfl⟩
        · rename_i positive
          obtain ⟨q, inside, uid, own⟩ := info_own found positive
          rw [← uid]
          exact deletePinhole_kept inside own

theorem checkStatus_other {env : FirewallEnv} (closed : checkStatus env = some reply) :
    reply ≠ notAuthorized := by
  unfold checkStatus at closed
  split at closed
  · obtain rfl := Option.some.inj closed
    decide
  · split at closed
    · obtain rfl := Option.some.inj closed
      decide
    · simp at closed

theorem addArguments_error {env : FirewallEnv} (wrong : addArguments env args = .error reply) :
    reply ≠ notAuthorized := by
  unfold addArguments at wrong
  dsimp only at wrong
  repeat' split at wrong
  all_goals first
    | cases wrong
      decide
    | simp at wrong

theorem addArguments_ok {env : FirewallEnv} {req : PinholeRequest}
    (given : addArguments env args = .ok req) :
    getValueFromNameValueList args "InternalClient" = some req.intIp ∧
      req.iport = portArgument args "InternalPort" := by
  unfold addArguments at given
  dsimp only at given
  split at given
  · simp at given
  · split at given
    · simp at given
    · split at given
      · simp at given
      · rename_i intIp value
        repeat' split at given
        all_goals try simp at given
        rw [← given, value]
        exact ⟨rfl, rfl⟩

theorem addReply_other (r uid : Int) : addReply r uid ≠ notAuthorized := by
  unfold addReply
  split
  · simp [notAuthorized]
  · split
    · decide
    · decide

theorem add_refused_iff (env : FirewallEnv) (a : In6Addr) (args : Args) (fw : Firewall) :
    (FirewallControl.addPinhole env a args fw).map (·.1) = some notAuthorized ↔
      checkStatus env = none ∧ ∃ req, addArguments env args = .ok req ∧
        (pinholeVerification env a req.intIp req.iport).1 = 0 := by
  unfold FirewallControl.addPinhole
  cases closed : checkStatus env with
  | some reply => simp [checkStatus_other closed]
  | none =>
    cases given : addArguments env args with
    | error reply => simp [addArguments_error given]
    | ok req =>
      simp only [true_and, Except.ok.injEq, exists_eq_left']
      rcases verification_cases env a req.intIp req.iport with
        ⟨minus, _⟩ | ⟨zero, _⟩ | ⟨one, _⟩
      · simp [minus, verificationError, notAuthorized, FirewallControl.invalidArgs]
      · simp [zero, verificationError]
      · simp [one, addReply_other, Function.comp_def]

theorem denotes_shown_iff (env : FirewallEnv) (a : In6Addr) (intIp : CString) :
    (Denotes env intIp a → Shown env a intIp) ↔
      match inetPton6 intIp with
      | some b => b = a → intIp = inetNtop6 a
      | none => ∀ p, firstInet6 (env.getaddrinfo intIp none .AF_UNSPEC) = some p →
          p.addr = a → EntryReads p a := by
  unfold Denotes Shown
  cases inetPton6 intIp with
  | some b => exact Iff.rfl
  | none =>
    cases firstInet6 (env.getaddrinfo intIp none .AF_UNSPEC) with
    | none => simp
    | some p => simp

theorem denotes_converted {env : FirewallEnv} {intIp : CString} (own : Denotes env intIp a) :
    convertedClient env intIp ≠ none := by
  unfold Denotes at own
  unfold convertedClient
  cases read : inetPton6 intIp with
  | some b => simp
  | none =>
    rw [read] at own
    obtain ⟨p, first, _⟩ := Option.map_eq_some_iff.mp own
    simp [first]

theorem add_passes_iff (a : In6Addr) (fw : Option Firewall) (env : FirewallEnv) (args : Args) :
    Passes a fw (.addPinhole env args) ↔ Spelt a fw (.addPinhole env args) := by
  unfold Passes Spelt
  constructor
  · intro passes s req here opened given high
    rw [← denotes_shown_iff]
    intro own
    by_contra hidden
    obtain ⟨value, port⟩ := addArguments_ok given
    have refused : (serve a s (.addPinhole env args)).map (·.1) = some notAuthorized := by
      refine (add_refused_iff env a args s).mpr ⟨opened, req, given, ?_⟩
      rcases verification_cases env a req.intIp req.iport with
        ⟨_, missing⟩ | ⟨zero, _⟩ | ⟨_, shown, _⟩
      · exact absurd missing (denotes_converted own)
      · exact zero
      · exact absurd shown hidden
    exact passes s notAuthorized here ⟨req.intIp, value, own, port ▸ high⟩ refused rfl
  · intro spelt s reply here asks answered
    rintro rfl
    obtain ⟨intIp, value, own, high⟩ := asks
    obtain ⟨opened, req, given, zero⟩ := (add_refused_iff env a args s).mp answered
    obtain ⟨client, port⟩ := addArguments_ok given
    rw [value] at client
    obtain rfl := Option.some.inj client
    rw [← port] at high
    have shown := (denotes_shown_iff env a _).mpr (spelt s req here opened given high) own
    rw [verification_one_iff.mpr ⟨shown, high⟩] at zero
    exact absurd zero (by decide)

/-- The check of a pinhole of the client itself. -/
theorem own_verified (env : FirewallEnv) {q : PinholeT} (inside : q ∈ fw.pinholeList)
    (own : q.daddr = a) (high : 1024 ≤ q.dport) :
    ∃ info, upnpGetPinholeInfo env.libc q.uid fw = some info ∧
      (pinholeVerification env a info.iaddr info.iport).1 = 1 := by
  have found : upnpGetPinholeInfo env.libc q.uid fw =
      some { uid := q.uid, iaddr := inetNtop6 q.daddr, iport := q.dport, proto := q.proto.toNat
             desc := q.desc } := by
    rw [upnpGetPinholeInfo, getPinhole_of_mem inside, Option.map_some, libc_inetNtop6]
  have shown : Shown env a (inetNtop6 q.daddr) := by
    rw [shown_address]
    exact own
  generalize inetNtop6 q.daddr = text at found shown
  exact ⟨_, found, verification_one_iff.mpr ⟨shown, high⟩⟩

theorem update_passes (a : In6Addr) (fw : Option Firewall) (env : FirewallEnv) (args : Args) :
    Passes a fw (.updatePinhole env args) := by
  intro s reply here asks answered
  obtain ⟨q, inside, uid, own, high⟩ := asks
  obtain ⟨info, found, one⟩ := own_verified env inside own high
  obtain rfl := Option.some.inj answered
  unfold FirewallControl.updatePinhole
  dsimp only
  split
  · rename_i closed
    exact checkStatus_other closed
  · rw [← uid, ofInt_toNat, found]
    split
    · simp [FirewallControl.invalidArgs, notAuthorized]
    · simp only [one, Int.reduceLE, ↓reduceIte]
      split
      · decide
      · split
        · decide
        · decide

theorem delete_passes (a : In6Addr) (fw : Option Firewall) (env : FirewallEnv) (args : Args) :
    Passes a fw (.deletePinhole env args) := by
  intro s reply here asks answered
  obtain ⟨q, inside, uid, own, high⟩ := asks
  obtain ⟨info, found, one⟩ := own_verified env inside own high
  obtain rfl := Option.some.inj answered
  unfold FirewallControl.deletePinhole
  dsimp only
  split
  · rename_i closed
    exact checkStatus_other closed
  · rw [← uid, ofInt_toNat, found]
    split
    · simp [FirewallControl.invalidArgs, notAuthorized]
    · simp only [one, Int.reduceLE, ↓reduceIte]
      split
      · decide
      · decide

end actions

section runs

theorem passes_iff (a : In6Addr) (fw : Option Firewall) (op : Op) : Passes a fw op ↔ Spelt a fw op := by
  cases op with
  | addPinhole env args => exact add_passes_iff a fw env args
  | updatePinhole env args => exact iff_of_true (update_passes a fw env args) trivial
  | deletePinhole env args => exact iff_of_true (delete_passes a fw env args) trivial

theorem step_kept (a : In6Addr) {fw fw' : Firewall} {op : Op} (next : step a (some fw) op = some fw') :
    PinholesKept a fw fw' := by
  obtain ⟨⟨reply, final⟩, served, rfl⟩ := Option.map_eq_some_iff.mp next
  cases op with
  | addPinhole env args => exact add_kept served
  | updatePinhole env args =>
    have kept := update_kept env a args fw
    rwa [Option.some.inj served] at kept
  | deletePinhole env args =>
    have kept := delete_kept env a args fw
    rwa [Option.some.inj served] at kept

theorem pinholesKept_trans {a : In6Addr} {fw fw' fw'' : Firewall} (first : PinholesKept a fw fw')
    (next : PinholesKept a fw' fw'') : PinholesKept a fw fw'' :=
  ⟨next.1.trans first.1, next.2.trans first.2⟩

theorem run_none (a : In6Addr) (ops : List Op) : ops.foldl (step a) none = none := by
  induction ops with
  | nil => rfl
  | cons op ops ih => exact ih

theorem run_kept (a : In6Addr) (ops : List Op) {fw fw' : Firewall}
    (run : ops.foldl (step a) (some fw) = some fw') : PinholesKept a fw fw' := by
  induction ops generalizing fw with
  | nil =>
    obtain rfl := Option.some.inj run
    exact ⟨rfl, rfl⟩
  | cons op ops ih =>
    rw [List.foldl_cons] at run
    cases next : step a (some fw) op with
    | none =>
      rw [next, run_none] at run
      simp at run
    | some mid =>
      rw [next] at run
      exact pinholesKept_trans (step_kept a next) (ih run)

end runs

/-- The check of a client, and what the requests of one client do to a table in which anyone
    may have pinholes. -/
theorem ownership_iff (a : In6Addr) :
    (∀ env intIp intPort,
      ((pinholeVerification env a intIp intPort).1 = 1 ↔ Denotes env intIp a ∧ 1024 ≤ intPort) ↔
        CheckMeets env a intIp intPort) ∧
    ∀ fw ops,
      (∀ fw', ops.foldl (step a) (some fw) = some fw' → PinholesKept a fw fw') ∧
      (Admitted (step a) (Passes a) (some fw) ops ↔ Admitted (step a) (Spelt a) (some fw) ops) := by
  refine ⟨fun env => check_right_iff env a, ?_⟩
  intro fw ops
  refine ⟨?_, admitted_congr (passes_iff a) (some fw) ops⟩
  intro fw' run
  exact run_kept a ops run

/-- No feature is turned off, and there are no host names. -/
def plainFirewall : FirewallEnv :=
  { plainPinholes 0 with
    ipv6fcFwDisabled := false
    ipv6fcInboundDisallowed := false
    getaddrinfo := fun _ _ _ => none }

def upperCase : Args :=
  [("InternalClient".toList, "2001:DB8::2".toList), ("InternalPort".toList, "8080".toList),
    ("Protocol".toList, "6".toList), ("LeaseTime".toList, "600".toList)]

theorem upperCase_read : inetPton6 "2001:DB8::2".toList = some plainHost := by decide

theorem plainHost_written : inetNtop6 plainHost = "2001:db8::2".toList := by decide

theorem upperCase_refused :
    ¬ ((pinholeVerification plainFirewall plainHost "2001:DB8::2".toList 8080).1 = 1 ↔
        Denotes plainFirewall "2001:DB8::2".toList plainHost ∧ (1024 : UInt16) ≤ 8080) ∧
      ¬ Admitted (step plainHost) (Passes plainHost) (some Firewall.empty)
          [.addPinhole plainFirewall upperCase] := by
  have other : "2001:DB8::2".toList ≠ inetNtop6 plainHost := by
    rw [plainHost_written]
    decide
  constructor
  · intro right
    have meets := (check_right_iff _ _ _ _).mp right (by decide)
    rw [upperCase_read] at meets
    exact other (meets rfl)
  · intro run
    have spelt := (passes_iff _ _ _).mp run.1
    have given : ∃ req, addArguments plainFirewall upperCase = .ok req ∧
        req.intIp = "2001:DB8::2".toList ∧ req.iport = 8080 :=
      ⟨{ remHost := none, rport := 0, intIp := "2001:DB8::2".toList, iport := 8080, proto := 6
         ltime := 600 }, by rfl, rfl, rfl⟩
    obtain ⟨req, ok, text, port⟩ := given
    have canonical := spelt Firewall.empty req rfl rfl ok (by rw [port]; decide)
    rw [text, upperCase_read] at canonical
    exact other (canonical rfl)

end PinholeOwners
