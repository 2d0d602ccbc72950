import MiniUPnPd.PortSearch
import MiniUPnPd.UpnpRedirectSpec
import MiniUPnPd.UpnpSoapAuth

/-!
What a token grants. A redirection is authorised by a token that covers its internal
address and its external port. The port that was asked for is checked, but not the ports
that AddAnyPortMapping goes on to, nor the port it takes for a wildcard; and the address
that is checked is read from a copy without an end.
-/
namespace TokenRanges
open CText Inet Iptc Iptcrdr JwtAuth JwtAuthUtils LeaseFile PortSearch UpnpPermissions
open UpnpRedirect UpnpRedirectSpec UpnpSoap UpnpSoapAuth

/-- The host in the text of an address, with or without a port. -/
def hostOf (iaddr : CString) : Option InAddr := inetPton (iaddr.takeWhile (· ≠ ':'))

def CoversAddress (perm : Permission) (address : InAddr) : Prop :=
  ∃ range ∈ perm.intIpRange, SamePrefix range.address range.mask address

def CoversPort (perm : Permission) (eport : UInt16) : Prop :=
  ∃ range ∈ perm.pubPortRange, range.start ≤ eport ∧ eport ≤ range.stop

/-- The request has a token that is verified and covers both ends of the redirection. -/
def Granted (env : JwtEnv) (h : JwtRequest) (eport : UInt16) (iaddr : CString) : Prop :=
  ∃ perm address, requestPermission env h = .ok (1, perm) ∧ hostOf iaddr = some address ∧
    CoversAddress perm address ∧ CoversPort perm eport

def Authorised (env : JwtEnv) (h : JwtRequest) : Call → Prop
  | .upnpRedirect _ eport iaddr _ _ _ _ => Granted env h eport iaddr
  | _ => True

inductive Request where
  | addPortMapping (h : JwtRequest)
  | addAnyPortMapping (h : JwtRequest)

def Request.http : Request → JwtRequest
  | .addPortMapping h => h
  | .addAnyPortMapping h => h

def act (env : JwtEnv) (d : Daemon) : Request → Daemon
  | .addPortMapping h => (addPortMapping env h d).2
  | .addAnyPortMapping h => (addAnyPortMapping env h d).2

section search
variable (env : Env) (rhost : Option CString) (iaddr : CString) (address : InAddr)
  (iport : UInt16) (proto : Int)

/-- The port is not permitted, has a redirection for another host or remote host, or is in
    use on the gateway. The lookup may use up results of libiptc. -/
def taken (eport : UInt16) (nf : Netfilter) : Bool × Netfilter :=
  if checkUpnpRuleAgainstPermissions env.upnppermlist eport address iport then
    let (old, nf) := getRedirectRule eport proto nf
    (match old with
      | some old => !decide (iaddr = old.iaddr ∧ sameRhost rhost old.rhost)
      | none => env.checkPortinuse && env.portInUse eport proto iaddr iport,
      nf)
  else (true, nf)

/-- All these ports are taken, when they are looked up one after the other. -/
def AllTaken : List UInt16 → Netfilter → Prop
  | [], _ => True
  | eport :: ports, nf =>
      (taken env rhost iaddr address iport proto eport nf).1 = true ∧
        AllTaken ports (taken env rhost iaddr address iport proto eport nf).2

/-- The ports up to the first one that is not taken. -/
def reached : List UInt16 → Netfilter → List UInt16
  | [], _ => []
  | eport :: ports, nf =>
      eport :: (if (taken env rhost iaddr address iport proto eport nf).1 then
        reached ports (taken env rhost iaddr address iport proto eport nf).2 else [])

theorem mem_reached {ports : List UInt16} {nf : Netfilter} {eport : UInt16} :
    eport ∈ reached env rhost iaddr address iport proto ports nf ↔
      ∃ before, before ++ [eport] <+: ports ∧
        AllTaken env rhost iaddr address iport proto before nf := by
  induction ports generalizing nf with
  | nil => simp [reached]
  | cons first ports ih =>
    rw [reached, List.mem_cons]
    constructor
    · rintro (rfl | later)
      · exact ⟨[], List.prefix_cons_inj _ |>.mpr List.nil_prefix, trivial⟩
      · split at later
        · rename_i occupied
          obtain ⟨before, inside, all⟩ := ih.mp later
          exact ⟨first :: before, (List.prefix_cons_inj _).mpr inside, occupied, all⟩
        · simp at later
    · rintro ⟨before, inside, all⟩
      cases before with
      | nil =>
        left
        exact List.head_eq_of_cons_eq (List.prefix_iff_eq_append.mp inside)
      | cons head before =>
        rw [List.cons_append, List.cons_prefix_cons] at inside
        obtain ⟨rfl, inside⟩ := inside
        right
        rw [if_pos all.1]
        exact ih.mpr ⟨before, inside, all.2⟩

end search

def asked (calls : List Call) : List (UInt16 × CString) :=
  calls.filterMap fun
    | .upnpRedirect _ eport iaddr _ _ _ _ => some (eport, iaddr)
    | _ => none

theorem asked_append (calls new : List Call) : asked (calls ++ new) = asked calls ++ asked new :=
  List.filterMap_append ..

section redirect
variable {env : Env} {rhost : Option CString} {eport iport : UInt16} {iaddr : CString}

theorem internal_asked (proto : Int) (desc : CString) (timestamp : Nat) (d : Daemon) :
    asked (upnpRedirectInternal env rhost eport iaddr iport proto desc timestamp d).2.calls =
      asked d.calls := by
  rw [upnpRedirectInternal_calls, asked_append]
  split
  · simp [asked]
  · simp [asked]

theorem redirect_asked (protocol : CString) (desc : Option CString) (leaseduration : Nat)
    (d : Daemon) :
    asked (upnpRedirect env rhost eport iaddr iport protocol desc leaseduration d).2.calls =
      asked d.calls ++ [(eport, iaddr)] := by
  have recorded : asked (d.record
      (.upnpRedirect rhost eport iaddr iport protocol desc leaseduration)).calls =
      asked d.calls ++ [(eport, iaddr)] := by
    simp [asked]
  unfold upnpRedirect Daemon.lookup
  dsimp only
  split
  · exact recorded
  · split
    · split
      · rw [renew_calls]
        exact recorded
      · split
        · exact recorded
        · rw [internal_asked]
          exact recorded
    · exact recorded

theorem update_result (c : Chain) (index : Nat) (e : IptEntry) (nf : Netfilter) :
    (updateRuleAndCommit c index e nf).1 = 0 ∨ (updateRuleAndCommit c index e nf).1 = -1 := by
  obtain ⟨results, updated | failed⟩ := update_cases c index e nf
  · simp [updated]
  · simp [failed]

theorem updateFilter_result (proto : Int) (oldIport : UInt16) (address : InAddr) (nf : Netfilter) :
    (updateFilter proto oldIport address iport nf).1 = 0 ∨
      (updateFilter proto oldIport address iport nf).1 = -1 := by
  unfold updateFilter
  dsimp only
  split
  · split
    · exact .inr rfl
    · exact update_result ..
  · exact .inr rfl

theorem updateExisting_result (proto : Int) (iportOld : UInt16) (desc : CString) (timestamp : Nat)
    (nf : Netfilter) :
    (updateExisting env eport proto iport iportOld desc timestamp nf).1 = 0 ∨
      (updateExisting env eport proto iport iportOld desc timestamp nf).1 = -1 := by
  unfold updateExisting updatePortmapping
  dsimp only
  split
  · split
    · split
      · exact .inr rfl
      · split
        · exact update_result ..
        · split
          · exact updateFilter_result ..
          · exact .inl rfl
    · exact .inr rfl
  · exact .inl rfl

theorem renew_same {old : RedirectRule} (same : iaddr = old.iaddr ∧ sameRhost rhost old.rhost = true)
    (proto : Int) (desc : CString) (leaseduration : Nat) (d : Daemon) :
    (renew env rhost eport iaddr iport proto desc leaseduration old d).1 = 0 ∨
      (renew env rhost eport iaddr iport proto desc leaseduration old d).1 = -1 := by
  unfold renew
  rw [if_pos same]
  dsimp only
  split
  · rename_i done
    exact .inl done
  · exact updateExisting_result ..

theorem renew_other {old : RedirectRule}
    (other : ¬ (iaddr = old.iaddr ∧ sameRhost rhost old.rhost = true)) (proto : Int)
    (desc : CString) (leaseduration : Nat) (d : Daemon) :
    renew env rhost eport iaddr iport proto desc leaseduration old d = (-2, d) := by
  rw [renew, if_neg other]

theorem internal_result (proto : Int) (desc : CString) (timestamp : Nat) (d : Daemon) :
    (upnpRedirectInternal env rhost eport iaddr iport proto desc timestamp d).1 = 0 ∨
      (upnpRedirectInternal env rhost eport iaddr iport proto desc timestamp d).1 = -1 := by
  unfold upnpRedirectInternal
  dsimp only
  split
  · exact .inr rfl
  · split
    · exact .inr rfl
    · split
      · exact .inr rfl
      · exact .inl rfl

variable {address : InAddr}

/-- A port that is taken is left as it is, and any other ends the search. -/
theorem redirect_taken (parsed : inetAton iaddr = some address) (protocol : CString)
    (desc : Option CString) (leaseduration : Nat) (d : Daemon) :
    let made := upnpRedirect env rhost eport iaddr iport protocol desc leaseduration d
    let port := taken env rhost iaddr address iport (protoAtoi protocol) eport d.nf
    (port.1 = true ∧ ¬ (made.1 = 0 ∨ made.1 = -1) ∧ made.2.nf = port.2) ∨
      (port.1 = false ∧ (made.1 = 0 ∨ made.1 = -1)) := by
  dsimp only
  unfold upnpRedirect taken Daemon.lookup
  simp only [parsed, record_nf]
  by_cases permitted : checkUpnpRuleAgainstPermissions env.upnppermlist eport address iport = true
  · rw [if_pos permitted, if_pos permitted]
    cases found : (getRedirectRule eport (protoAtoi protocol) d.nf).1 with
    | some old =>
      dsimp only
      by_cases same : iaddr = old.iaddr ∧ sameRhost rhost old.rhost = true
      · exact .inr ⟨by simp [same], renew_same same ..⟩
      · rw [renew_other same]
        exact .inl ⟨by simp [same], by simp, rfl⟩
    | none =>
      dsimp only
      by_cases inUse : env.checkPortinuse = true ∧
          env.portInUse eport (protoAtoi protocol) iaddr iport = true
      · rw [if_pos inUse]
        exact .inl ⟨by simp [inUse], by simp, rfl⟩
      · rw [if_neg inUse]
        exact .inr ⟨by simpa using inUse, internal_result ..⟩
  · rw [if_neg permitted, if_neg permitted]
    exact .inl ⟨rfl, by simp, rfl⟩

theorem tryPorts_asked (parsed : inetAton iaddr = some address) (protocol : CString)
    (desc : Option CString) (leaseduration : Nat) (ports : List UInt16) (d : Daemon) :
    asked (tryPorts (fun eport d =>
        upnpRedirect env rhost eport iaddr iport protocol desc leaseduration d) ports d).2.calls =
      asked d.calls ++ (reached env rhost iaddr address iport (protoAtoi protocol) ports d.nf).map
        fun eport => (eport, iaddr) := by
  induction ports generalizing d with
  | nil => simp [tryPorts, reached]
  | cons eport ports ih =>
    have step := @redirect_taken env rhost eport iport iaddr address parsed protocol desc
      leaseduration d
    rw [tryPorts, reached]
    dsimp only at step ⊢
    obtain ⟨occupied, goes, after⟩ | ⟨free, stops⟩ := step
    · rw [if_neg goes, ih, redirect_asked, after, if_pos occupied]
      simp
    · rw [if_pos stops, redirect_asked, free]
      simp

end redirect

section checks
variable {env : JwtEnv} {h : JwtRequest} {perm : Permission} {intIp : CString}
  {address read : InAddr} {eport : UInt16}

theorem containsIp_iff : containsIp perm address = true ↔ CoversAddress perm address := by
  simp only [containsIp, CoversAddress, List.any_eq_true, decide_eq_true_eq, containIp_iff]

theorem containsPort_iff : containsPort perm eport = true ↔ CoversPort perm eport := by
  simp only [containsPort, CoversPort, List.any_eq_true, decide_eq_true_eq, ge_iff_le]

theorem veridyAddPortMappingAuth_iff :
    veridyAddPortMappingAuth perm read eport = 1 ↔
      CoversAddress perm read ∧ CoversPort perm eport := by
  rw [← containsIp_iff, ← containsPort_iff]
  unfold veridyAddPortMappingAuth
  cases containsIp perm read <;> cases containsPort perm eport <;> simp

theorem veridyAddAnyPortMappingAuth_iff :
    veridyAddAnyPortMappingAuth perm read eport = 1 ↔
      CoversAddress perm read ∧ (eport = 0 ∧ perm.pubPortRange ≠ [] ∨ CoversPort perm eport) := by
  rw [← containsIp_iff, ← containsPort_iff]
  unfold veridyAddAnyPortMappingAuth
  by_cases wildcard : eport = 0 ∧ perm.pubPortRange ≠ []
  · cases containsIp perm read <;> simp [wildcard]
  · cases containsIp perm read <;> cases containsPort perm eport <;> simp [wildcard]

theorem authorize_iff {veridy : Permission → InAddr → Int} :
    authorize env h intIp veridy = .ok perm ↔
      ∃ read, requestPermission env h = .ok (1, perm) ∧
        parseIpAddress env.heapTail intIp = some read ∧ veridy perm read = 1 := by
  unfold authorize
  cases token : requestPermission env h with
  | error fault => simp
  | ok result =>
    obtain ⟨r, perm'⟩ := result
    dsimp only
    rcases verifyAndExtractAuthToken_result token with rfl | rfl
    · rw [if_neg (by decide)]
      cases parseIpAddress env.heapTail intIp with
      | none => simp
      | some read =>
        dsimp only
        constructor
        · intro passed
          split at passed
          · simp at passed
          · rename_i granted
            obtain rfl := Except.ok.inj passed
            exact ⟨read, rfl, rfl, not_not.mp granted⟩
        · rintro ⟨read', same, parsed, granted⟩
          obtain ⟨_, rfl⟩ := Prod.mk.inj (Except.ok.inj same)
          obtain rfl := Option.some.inj parsed
          simp [granted]
    · simp

theorem colon_not_mem_inetNtoa (address : InAddr) : ':' ∉ inetNtoa address := by
  have digits : ∀ n, ':' ∉ utoa n := by
    intro n member
    exact absurd (utoa_digits n ':' member) (by decide)
  simp [inetNtoa, digits]

theorem hostOf_text {port : CString}
    (text : intIp = inetNtoa address ∨ intIp = inetNtoa address ++ ':' :: port) :
    hostOf intIp = some address := by
  have absent := colon_not_mem_inetNtoa address
  have bare : intIp.takeWhile (· ≠ ':') = inetNtoa address := by
    rcases text with rfl | rfl
    · rw [← List.append_nil (inetNtoa address), takeWhile_ne_append absent, List.takeWhile_nil]
    · rw [takeWhile_ne_append absent]
      simp
  rw [hostOf, bare, inetPton_iff]

/-- The copy is read as the address that is asked for, or that one is covered too. -/
def AddressHeld (env : JwtEnv) (perm : Permission) (intIp : CString) (address : InAddr) : Prop :=
  parseIpAddress env.heapTail intIp = some address ∨ CoversAddress perm address

theorem addressHeld_iff {veridy : Permission → InAddr → Int}
    (checks : ∀ read, veridy perm read = 1 → CoversAddress perm read)
    (passed : authorize env h intIp veridy = .ok perm) :
    AddressHeld env perm intIp address ↔ CoversAddress perm address := by
  obtain ⟨read, _, parsed, granted⟩ := authorize_iff.mp passed
  constructor
  · rintro (same | covered)
    · rw [parsed, Option.some.injEq] at same
      exact same ▸ checks read granted
    · exact covered
  · exact .inr

theorem granted_iff {veridy : Permission → InAddr → Int} {port : CString}
    (passed : authorize env h intIp veridy = .ok perm)
    (text : intIp = inetNtoa address ∨ intIp = inetNtoa address ++ ':' :: port) :
    Granted env h eport intIp ↔ CoversAddress perm address ∧ CoversPort perm eport := by
  obtain ⟨read, token, _⟩ := authorize_iff.mp passed
  unfold Granted
  rw [token, hostOf_text text]
  constructor
  · rintro ⟨perm', address', same, host, covered⟩
    obtain ⟨_, rfl⟩ := Prod.mk.inj (Except.ok.inj same)
    obtain rfl := Option.some.inj host
    exact covered
  · intro covered
    exact ⟨perm, address, rfl, rfl, covered⟩

theorem authorised_iff {calls : List Call} :
    (∀ call ∈ calls, Authorised env h call) ↔ ∀ x ∈ asked calls, Granted env h x.1 x.2 := by
  constructor
  · intro all x member
    obtain ⟨call, inside, same⟩ := List.mem_filterMap.mp member
    have good := all call inside
    cases call with
    | upnpRedirect rhost eport iaddr iport protocol desc leaseduration =>
      obtain rfl := Option.some.inj same
      exact good
    | upnpRedirectInternal => simp at same
    | upnpEventVarChangeNotify => simp at same
  · intro all call inside
    cases call with
    | upnpRedirect rhost eport iaddr iport protocol desc leaseduration =>
      exact all (eport, iaddr) (List.mem_filterMap.mpr ⟨_, inside, rfl⟩)
    | upnpRedirectInternal => trivial
    | upnpEventVarChangeNotify => trivial

end checks

/-- The ports of AddAnyPortMapping in the order in which it tries them. -/
def searchOrder (env : Env) (address : InAddr) (iport eport : UInt16) : List UInt16 :=
  eport :: (outward eport).filter fun port =>
    checkUpnpRuleAgainstPermissions env.upnppermlist port address iport

/-- For a request that passes all checks: the address is held, and if AddAnyPortMapping
    is asked, so is every port that follows on taken ports only. -/
def Admits (env : JwtEnv) (d : Daemon) : Request → Prop
  | .addPortMapping h =>
      ∀ intIp address args perm,
        internalClient env.toSoapEnv h.toUpnphttp = .ok (intIp, address) →
        portArguments env.toSoapEnv h.toUpnphttp = .ok args →
        authorize env h intIp (fun perm read => veridyAddPortMappingAuth perm read args.eport) =
          .ok perm →
        AddressHeld env perm intIp address
  | .addAnyPortMapping h =>
      ∀ given intIp address args perm,
        anyPortArguments h.toUpnphttp = .ok (given, args) →
        remotehostRefused env.toSoapEnv
          (getValueFromNameValueList h.toUpnphttp "NewRemoteHost") = false →
        resolveClient env.toSoapEnv given = .ok (intIp, address) →
        authorize env h intIp (fun perm read => veridyAddAnyPortMappingAuth perm read args.eport) =
          .ok perm →
        AddressHeld env perm intIp address ∧
          ∀ before eport,
            before ++ [eport] <+:
              searchOrder env.toEnv address args.iport (chosenPort perm args.eport) →
            AllTaken env.toEnv (getValueFromNameValueList h.toUpnphttp "NewRemoteHost") intIp
              address args.iport (protoAtoi args.protocol) before d.nf →
            CoversPort perm eport

theorem addPortMapping_authorised_iff (env : JwtEnv) (d : Daemon) (h : JwtRequest) :
    (∀ call ∈ (UpnpSoapAuth.addPortMapping env h d.fresh).2.calls, Authorised env h call) ↔
      Admits env d (.addPortMapping h) := by
  unfold UpnpSoapAuth.addPortMapping
  dsimp only [Admits]
  cases client : internalClient env.toSoapEnv h.toUpnphttp with
  | error reply => simp [Daemon.fresh]
  | ok resolved =>
    obtain ⟨intIp, address⟩ := resolved
    cases ports : portArguments env.toSoapEnv h.toUpnphttp with
    | error reply => simp [Daemon.fresh]
    | ok args =>
      dsimp only
      cases passed : authorize env h intIp fun perm read =>
          veridyAddPortMappingAuth perm read args.eport with
      | error reply =>
        dsimp only
        constructor
        · rintro _ intIp' address' args' perm same sameArgs granted
          obtain ⟨rfl, rfl⟩ := Prod.mk.inj (Except.ok.inj same)
          obtain rfl := Except.ok.inj sameArgs
          rw [passed] at granted
          simp at granted
        · intro _
          simp [Daemon.fresh]
      | ok perm =>
        have text : intIp = inetNtoa address ∨
            intIp = inetNtoa address ++ ':' :: utoa h.clientport.toNat :=
          internalClient_text client
        obtain ⟨read, _, _, granted⟩ := authorize_iff.mp passed
        have covered : CoversPort perm args.eport :=
          (veridyAddPortMappingAuth_iff.mp granted).2
        have held : AddressHeld env perm intIp address ↔ CoversAddress perm address :=
          addressHeld_iff (fun read granted => (veridyAddPortMappingAuth_iff.mp granted).1) passed
        dsimp only
        rw [authorised_iff, redirectRequest, redirect_asked]
        have start : asked d.fresh.calls = [] := rfl
        rw [start, List.nil_append]
        constructor
        · rintro all intIp' address' args' perm' same sameArgs again
          obtain ⟨rfl, rfl⟩ := Prod.mk.inj (Except.ok.inj same)
          obtain rfl := Except.ok.inj sameArgs
          rw [passed] at again
          obtain rfl := Except.ok.inj again
          exact held.mpr ((granted_iff passed text).mp (all _ (List.mem_singleton_self _))).1
        · intro admitted x member
          rw [List.mem_singleton.mp member]
          have inside := held.mp (admitted intIp address args perm rfl rfl passed)
          exact (granted_iff passed text).mpr ⟨inside, covered⟩

theorem search_asked (env : JwtEnv) (h : JwtRequest) {intIp : CString} {address : InAddr}
    (text : intIp = inetNtoa address) (args : PortArguments) (eport : UInt16) (d : Daemon) :
    asked (redirectAny env.toSoapEnv intIp args.iport eport
        (fun eport d => redirectRequest env.toSoapEnv h.toUpnphttp eport intIp args.iport
          args.protocol args.leaseduration d) d).2.calls =
      asked d.calls ++
        (reached env.toEnv (getValueFromNameValueList h.toUpnphttp "NewRemoteHost") intIp address
          args.iport (protoAtoi args.protocol) (searchOrder env.toEnv address args.iport eport)
          d.nf).map fun eport => (eport, intIp) := by
  have parsed : inetAton intIp = some address := by rw [text, inetAton_inetNtoa]
  have tries := redirectAny_tries env.toSoapEnv parsed args.iport eport
    (fun eport d => redirectRequest env.toSoapEnv h.toUpnphttp eport intIp args.iport
      args.protocol args.leaseduration d) d
  have after := congrArg Prod.snd tries
  dsimp only at after
  rw [after]
  exact tryPorts_asked parsed args.protocol _ args.leaseduration _ d

theorem addAnyPortMapping_authorised_iff (env : JwtEnv) (d : Daemon) (h : JwtRequest) :
    (∀ call ∈ (UpnpSoapAuth.addAnyPortMapping env h d.fresh).2.calls, Authorised env h call) ↔
      Admits env d (.addAnyPortMapping h) := by
  unfold UpnpSoapAuth.addAnyPortMapping
  dsimp only [Admits]
  cases ports : anyPortArguments h.toUpnphttp with
  | error reply => simp [Daemon.fresh]
  | ok parsed =>
    obtain ⟨given, args⟩ := parsed
    dsimp only
    by_cases refused : remotehostRefused env.toSoapEnv
        (getValueFromNameValueList h.toUpnphttp "NewRemoteHost") = true
    · simp [Daemon.fresh, refused]
    · have open' : remotehostRefused env.toSoapEnv
          (getValueFromNameValueList h.toUpnphttp "NewRemoteHost") = false := by
        simpa using refused
      rw [if_neg refused]
      cases client : resolveClient env.toSoapEnv given with
      | error reply =>
        dsimp only
        constructor
        · rintro _ given' intIp address args' perm same _ resolved
          obtain ⟨rfl, rfl⟩ := Prod.mk.inj (Except.ok.inj same)
          rw [client] at resolved
          simp at resolved
        · intro _
          simp [Daemon.fresh]
      | ok resolved =>
        obtain ⟨intIp, address⟩ := resolved
        dsimp only
        cases passed : authorize env h intIp fun perm read =>
            veridyAddAnyPortMappingAuth perm read args.eport with
        | error reply =>
          dsimp only
          constructor
          · rintro _ given' intIp' address' args' perm same _ found granted
            obtain ⟨rfl, rfl⟩ := Prod.mk.inj (Except.ok.inj same)
            rw [client] at found
            obtain ⟨rfl, rfl⟩ := Prod.mk.inj (Except.ok.inj found)
            rw [passed] at granted
            simp at granted
          · intro _
            simp [Daemon.fresh]
        | ok perm =>
          have text := resolveClient_text client
          have textOrPort : intIp = inetNtoa address ∨ intIp = inetNtoa address ++ ':' :: [] :=
            .inl text
          have held : AddressHeld env perm intIp address ↔ CoversAddress perm address :=
            addressHeld_iff (fun read granted => (veridyAddAnyPortMappingAuth_iff.mp granted).1)
              passed
          dsimp only
          rw [authorised_iff, search_asked env h text]
          have start : asked d.fresh.calls = [] := rfl
          have same : d.fresh.nf = d.nf := rfl
          rw [start, same, List.nil_append]
          constructor
          · rintro all given' intIp' address' args' perm' here _ found again
            obtain ⟨rfl, rfl⟩ := Prod.mk.inj (Except.ok.inj here)
            rw [client] at found
            obtain ⟨rfl, rfl⟩ := Prod.mk.inj (Except.ok.inj found)
            rw [passed] at again
            obtain rfl := Except.ok.inj again
            have granted : ∀ before eport, before ++ [eport] <+:
                searchOrder env.toEnv address args.iport (chosenPort perm args.eport) →
                AllTaken env.toEnv (getValueFromNameValueList h.toUpnphttp "NewRemoteHost") intIp
                  address args.iport (protoAtoi args.protocol) before d.nf →
                CoversAddress perm address ∧ CoversPort perm eport := by
              intro before eport inside taken
              have member := (mem_reached ..).mpr ⟨before, inside, taken⟩
              have good := all (eport, intIp) (List.mem_map_of_mem member)
              exact (granted_iff passed textOrPort).mp good
            refine ⟨held.mpr (granted [] _ ⟨_, rfl⟩ trivial).1, ?_⟩
            intro before eport inside taken
            exact (granted before eport inside taken).2
          · intro admitted x member
            obtain ⟨addressIn, portsIn⟩ :=
              admitted given intIp address args perm rfl open' client passed
            obtain ⟨eport, follows, rfl⟩ := List.mem_map.mp member
            obtain ⟨before, inside, taken⟩ := (mem_reached ..).mp follows
            have covered := portsIn before eport inside taken
            exact (granted_iff passed textOrPort).mpr ⟨held.mp addressIn, covered⟩

/-- Exactly the admitted requests make authorised redirections only. -/
theorem redirections_authorised_iff (env : JwtEnv) (d : Daemon) (request : Request) :
    (∀ call ∈ (act env d.fresh request).calls, Authorised env request.http call) ↔
      Admits env d request := by
  cases request with
  | addPortMapping h => exact addPortMapping_authorised_iff env d h
  | addAnyPortMapping h => exact addAnyPortMapping_authorised_iff env d h

/-- Every signature is good, and every token grants host 192.168.1.2 port 1000. -/
def grantingLibs : JwtLibs :=
  { decodeBase64 := some
    digestVerify := fun _ _ _ => 1
    caPubKeyFile := some []
    jsonTokenerParse := fun _ =>
      some (.object [("public_key".toList, .string []),
        ("pub_port_range".toList, .array [.string "1000-1000".toList]),
        ("int_ip_range".toList, .array [.string "192.168.1.2/32".toList])]) }

def grantingEnv : JwtEnv :=
  { Env.plain 0 with
    upnpStrict := false
    supportRemotehost := false
    igdV2 := false
    secureMode := false
    gethostbyname := fun _ => none
    random := 0
    libs := grantingLibs
    heapTail := [] }

def grantedPermission : Permission :=
  { pubPortRange := [⟨1000, 1000⟩], intIpRange := [⟨ofBytes 192 168 1 2, 32⟩] }

def anyPortRequest : JwtRequest :=
  { clientaddr := ofBytes 192 168 1 2
    clientport := 40000
    args := [("NewInternalClient".toList, "192.168.1.2".toList),
      ("NewInternalPort".toList, "80".toList), ("NewExternalPort".toList, "1000".toList),
      ("NewProtocol".toList, "TCP".toList)]
    auth := "h.p.s".toList
    sig := []
    content := [] }

/-- Port 1000 already has a redirection to another host. -/
def portTaken : Daemon :=
  (upnpRedirect (Env.plain 0) none 1000 "192.168.1.3".toList 80 "TCP".toList none 0
    (Daemon.start none)).2

/-- AddAnyPortMapping goes on to port 1001, which the token does not grant. -/
theorem ungranted_port_redirected :
    ¬ ∀ call ∈ (act grantingEnv portTaken.fresh (.addAnyPortMapping anyPortRequest)).calls,
      Authorised grantingEnv anyPortRequest call := by
  intro all
  have asks : (1001, "192.168.1.2".toList) ∈
      asked (act grantingEnv portTaken.fresh (.addAnyPortMapping anyPortRequest)).calls := by
    decide +kernel
  have token : requestPermission grantingEnv anyPortRequest = .ok (1, grantedPermission) := by
    rfl
  obtain ⟨perm, address, verified, _, _, range, inside, covers⟩ := authorised_iff.mp all _ asks
  rw [token] at verified
  obtain ⟨_, rfl⟩ := Prod.mk.inj (Except.ok.inj verified)
  obtain rfl := List.mem_singleton.mp inside
  exact absurd covers.2 (by decide)

end TokenRanges
