import MiniUPnPd.DaemonRules
import MiniUPnPd.Lib.Runs
import MiniUPnPd.UpnpRedirectSpec

/-!
Secure mode. A client may only act on its own mappings, those to its own address. The
requests of one client leave the redirections and the filter rules of all others as they
are, whatever libiptc does, except for two actions: DeletePortMappingRange does not look
at the internal client at all, and DeletePortMapping looks at nothing when its lookup
fails.
-/
namespace SecureMode
open CText DaemonRules FirstMatch Inet Iptc Iptcrdr IptcrdrSpec LeaseFile RuleKeys Runs
open UpnpPermissions UpnpRedirect UpnpRedirectSpec UpnpSoap

/-- The rule is for the internal host `client`, in the chains where rules tell. -/
def ownedBy (client : InAddr) : Chain → IptEntry → Bool
  | .nat, e => e.target.minIp = client
  | .forward, e => e.dst = client
  | .postrouting, _ => true
  | .mangle, _ => true

def others (client : InAddr) (nf : Netfilter) (c : Chain) : List IptEntry :=
  (nf.chain c).filter fun e => !ownedBy client c e

def SameOthers (client : InAddr) (nf nf' : Netfilter) : Prop :=
  ∀ c, others client nf' c = others client nf c

section backend
variable {client : InAddr} {nf : Netfilter} {c : Chain} {e : IptEntry} {index : Nat}

theorem sameOthers_refl (nf : Netfilter) : SameOthers client nf nf := fun _ => rfl

theorem sameOthers_trans {nf' nf'' : Netfilter} (first : SameOthers client nf nf')
    (next : SameOthers client nf' nf'') : SameOthers client nf nf'' :=
  fun c => (next c).trans (first c)

theorem sameOthers_setChain (nf : Netfilter) {rules : List IptEntry}
    (same : rules.filter (fun e => !ownedBy client c e) = others client nf c) :
    SameOthers client nf (nf.setChain c rules) := by
  intro d
  simp only [others, chain_setChain]
  split
  · rename_i here
    subst here
    exact same
  · rfl

theorem sameOthers_append (own : ownedBy client c e = true) :
    SameOthers client nf (iptcInitVerifyAndAppend c e nf).2 := by
  obtain ⟨results, added | failed⟩ := append_cases c e nf
  · rw [added]
    apply sameOthers_setChain (nf.withResults results)
    simp [others, own]
  · rw [failed]
    exact sameOthers_refl nf

theorem sameOthers_delete {p : IptEntry → Bool} (found : findFirst p (nf.chain c) = some (index, e))
    (own : ownedBy client c e = true) : SameOthers client nf (deleteRuleAndCommit index c nf).2 := by
  obtain ⟨results, deleted | failed⟩ := delete_cases index c nf
  · rw [deleted]
    apply sameOthers_setChain (nf.withResults results)
    rw [eraseIdx_of_findFirst found]
    exact filter_eraseP (find?_of_findFirst found) (by simp [own])
  · rw [failed]
    exact sameOthers_refl nf

theorem sameOthers_update {p : IptEntry → Bool} (f : IptEntry → IptEntry)
    (found : findFirst p (nf.chain c) = some (index, e)) (own : ownedBy client c e = true)
    (still : ownedBy client c (f e) = true) :
    SameOthers client nf (updateRuleAndCommit c index (f e) nf).2 := by
  obtain ⟨results, updated | failed⟩ := update_cases c index (f e) nf
  · rw [updated]
    apply sameOthers_setChain (nf.withResults results)
    rw [set_of_findFirst found f]
    exact filter_updateFirst f (find?_of_findFirst found) (by simp [own]) (by simp [still])
  · rw [failed]
    exact sameOthers_refl nf

theorem sameOthers_addRedirectRule2 (portTriggering : Bool) (rhost : Option CString)
    (eport : UInt16) (iaddr : CString) (iport : UInt16) (proto : Int) (desc : Option CString)
    (timestamp : Nat) (own : inetAddr iaddr = client) :
    SameOthers client nf
      (addRedirectRule2 portTriggering rhost eport iaddr iport proto desc timestamp nf).2 := by
  have nat : SameOthers client nf (addnatrule proto eport iaddr iport rhost nf).2 :=
    sameOthers_append (decide_eq_true own)
  unfold addRedirectRule2
  dsimp only
  split
  · have described : SameOthers client nf (addRedirectDesc eport proto desc timestamp
        (addnatrule proto eport iaddr iport rhost nf).2) := nat
    split
    · exact sameOthers_trans described (sameOthers_append rfl)
    · exact described
  · exact nat

theorem sameOthers_addFilterRule2 (rhost : Option CString) (iaddr : CString) (iport : UInt16)
    (proto : Int) (own : inetAddr iaddr = client) :
    SameOthers client nf (addFilterRule2 rhost iaddr iport proto nf).2 :=
  sameOthers_append (decide_eq_true own)

theorem sameOthers_iptcCall (client : InAddr) (nf : Netfilter) : SameOthers client nf (iptcCall nf).2 := by
  obtain ⟨done, results, call, _⟩ := iptcCall_cases nf
  rw [call]
  exact sameOthers_refl nf

theorem sameOthers_iptcCalls (client : InAddr) (n : Nat) (nf : Netfilter) :
    SameOthers client nf (iptcCalls n nf).2 := by
  obtain ⟨done, results, calls⟩ := iptcCalls_cases n nf
  rw [calls]
  exact sameOthers_refl nf

theorem filter_owned {proto : Int} {iport : UInt16} {rules : List IptEntry} {i : Nat}
    {f : IptEntry} (found : findFirst (filterMatches proto iport client) rules = some (i, f)) :
    ownedBy client .forward f = true := by
  have hit := List.find?_some (find?_of_findFirst found)
  simp only [filterMatches, decide_eq_true_eq] at hit
  simp [ownedBy, hit.2.2]

theorem sameOthers_deleteFilterOf (proto : Int) (own : e.target.minIp = client) :
    SameOthers client nf (deleteFilterOf e proto nf).2 := by
  have opened := sameOthers_iptcCall client nf
  unfold deleteFilterOf
  dsimp only
  split
  · split
    · exact opened
    · rename_i found
      rw [own] at found
      exact sameOthers_trans opened (sameOthers_delete found (filter_owned found))
  · exact opened

theorem sameOthers_deleteNatAndFilter {eport : UInt16} (proto : Int)
    (found : findFirst (redirectMatches proto eport) (nf.chain .nat) = some (index, e))
    (own : e.target.minIp = client) :
    SameOthers client nf (deleteNatAndFilter index e proto nf).2 := by
  obtain ⟨opened, results, call, _⟩ := iptcCall_cases nf
  have owned : ownedBy client .nat e = true := by simpa [ownedBy] using own
  unfold deleteNatAndFilter
  rw [call]
  cases opened with
  | false =>
    dsimp only
    have filter : SameOthers client (nf.withResults results) _ := sameOthers_deleteFilterOf proto own
    exact filter
  | true =>
    have deleted : SameOthers client (nf.withResults results) _ := sameOthers_delete found owned
    dsimp only
    simp only [↓reduceIte]
    split
    · exact sameOthers_trans deleted (sameOthers_deleteFilterOf proto own)
    · exact deleted

/-- The first redirection under the key, if there is one, is the client's. -/
def OwnFirst (client : InAddr) (eport : UInt16) (proto : Int) (nf : Netfilter) : Prop :=
  ∀ e, (nf.chain .nat).find? (redirectMatches proto eport) = some e → e.target.minIp = client

theorem sameOthers_deleteDscp (proto : Int) (iport : UInt16) (iaddr : InAddr) (nf : Netfilter) :
    SameOthers client nf (deleteDscp proto iport iaddr nf).2 := by
  have opened := sameOthers_iptcCall client nf
  unfold deleteDscp
  dsimp only
  split
  · split
    · exact opened
    · rename_i found
      exact sameOthers_trans opened (sameOthers_delete found rfl)
  · exact opened

theorem sameOthers_deletePeer (eport : UInt16) (proto : Int) (nf : Netfilter) :
    SameOthers client nf (deletePeer eport proto nf).2 := by
  have opened := sameOthers_iptcCall client nf
  unfold deletePeer
  dsimp only
  split
  · split
    · exact opened
    · rename_i found
      have deleted := sameOthers_trans opened (sameOthers_delete found rfl)
      split
      · exact sameOthers_trans deleted (sameOthers_deleteDscp proto _ _ _)
      · exact deleted
  · exact opened

theorem own_of_findFirst {eport : UInt16} {proto : Int} (own : OwnFirst client eport proto nf)
    (found : findFirst (redirectMatches proto eport) (nf.chain .nat) = some (index, e)) :
    e.target.minIp = client := own e (find?_of_findFirst found)

theorem sameOthers_deleteRedirect {eport : UInt16} {proto : Int}
    (own : OwnFirst client eport proto nf) :
    SameOthers client nf (deleteRedirectAndFilterRules eport proto nf).2 := by
  obtain ⟨opened, results, call, _⟩ := iptcCall_cases nf
  unfold deleteRedirectAndFilterRules
  rw [call]
  cases opened with
  | false => exact sameOthers_refl nf
  | true =>
    obtain ⟨isChain, rest, verified, _⟩ := iptcCall_cases (nf.withResults results)
    dsimp only
    rw [verified]
    simp only [↓reduceIte]
    have peer : ∀ nf', SameOthers client nf nf' → SameOthers client nf
        (delRedirectDesc eport proto (deletePeer eport proto nf').2) :=
      fun nf' same => sameOthers_trans same (sameOthers_deletePeer eport proto nf')
    cases isChain with
    | false => exact peer _ (sameOthers_refl nf)
    | true =>
      simp only [↓reduceIte]
      split
      · exact peer _ (sameOthers_refl nf)
      · rename_i index e found
        apply peer
        have deleted : SameOthers client ((nf.withResults results).withResults rest) _ :=
          sameOthers_deleteNatAndFilter proto found (own_of_findFirst own found)
        exact deleted

theorem sameOthers_updateSnat (eport : UInt16) (proto : Int) (oldIport : UInt16) (iaddr : InAddr)
    (iport : UInt16) (nf : Netfilter) :
    SameOthers client nf (updateSnat eport proto oldIport iaddr iport nf) := by
  have opened := sameOthers_iptcCalls client 2 nf
  unfold updateSnat
  dsimp only
  split
  · split
    · exact opened
    · rename_i found
      exact sameOthers_trans opened (sameOthers_update (withSpts iport) found rfl rfl)
  · exact opened

theorem sameOthers_updateFilter (proto : Int) (oldIport iport : UInt16) (nf : Netfilter) :
    SameOthers client nf (updateFilter proto oldIport client iport nf).2 := by
  have opened := sameOthers_iptcCalls client 2 nf
  unfold updateFilter
  dsimp only
  split
  · split
    · exact opened
    · rename_i found
      have owned := filter_owned found
      exact sameOthers_trans opened (sameOthers_update (withDpts iport) found owned owned)
  · exact opened

theorem sameOthers_updatePortmapping {eport : UInt16} {proto : Int}
    (own : OwnFirst client eport proto nf) (portTriggering : Bool) (iport : UInt16)
    (desc : Option CString) (timestamp : Nat) :
    SameOthers client nf
      (updatePortmapping portTriggering eport proto iport desc timestamp nf).2 := by
  obtain ⟨done, results, calls⟩ := iptcCalls_cases 2 nf
  unfold updatePortmapping
  rw [calls]
  cases done with
  | false => exact sameOthers_refl nf
  | true =>
    simp only [↓reduceIte]
    split
    · exact sameOthers_refl nf
    · rename_i index e found
      have mine := own_of_findFirst own found
      have owned : ownedBy client .nat e = true := decide_eq_true mine
      have nat : SameOthers client (nf.withResults results) _ :=
        sameOthers_update (withIport iport) found owned owned
      split
      · exact nat
      · rw [mine]
        have filter := sameOthers_trans nat
          (sameOthers_updateFilter proto e.target.minAll iport _)
        split
        · exact filter
        · split
          · exact sameOthers_trans filter (sameOthers_updateSnat eport proto _ _ iport _)
          · exact filter

end backend

section requests
variable {client : InAddr} {d : Daemon} {env : Env} {eport iport : UInt16} {iaddr : CString}
  {proto : Int}

theorem sameOthers_internal (rhost : Option CString) (desc : CString) (timestamp : Nat)
    (own : inetAddr iaddr = client) :
    SameOthers client d.nf
      (upnpRedirectInternal env rhost eport iaddr iport proto desc timestamp d).2.nf := by
  have redirected : SameOthers client d.nf _ := sameOthers_addRedirectRule2
    env.enablePortTriggering rhost eport iaddr iport proto (some desc) timestamp own
  unfold upnpRedirectInternal
  dsimp only
  split
  · exact sameOthers_refl d.nf
  · split
    · exact redirected
    · have filtered := sameOthers_trans redirected
        (sameOthers_addFilterRule2 rhost iaddr iport proto own)
      simp only [fileAdd_nf, record_nf, withNf_nf]
      split
      · exact filtered
      · split
        · exact filtered
        · exact filtered

theorem sameOthers_updateExisting (env : Env) (iport : UInt16) {nf : Netfilter}
    (own : OwnFirst client eport proto nf) (iportOld : UInt16) (desc : CString) (timestamp : Nat) :
    SameOthers client nf (updateExisting env eport proto iport iportOld desc timestamp nf).2 := by
  unfold updateExisting
  split
  · exact sameOthers_updatePortmapping own _ iport (some desc) timestamp
  · exact sameOthers_refl nf

theorem ownFirst_updateExisting (env : Env) (iport : UInt16) {nf : Netfilter}
    (own : OwnFirst client eport proto nf) (iportOld : UInt16) (desc : CString) (timestamp : Nat) :
    OwnFirst client eport proto
      (updateExisting env eport proto iport iportOld desc timestamp nf).2 := by
  obtain ⟨same | updated, _⟩ :=
    updateExisting_cases env eport iport proto desc timestamp iportOld nf
  · rw [tables_nat] at same
    intro e found
    rw [same] at found
    exact own e found
  · rw [tables_nat] at updated
    intro e found
    rw [updated, find?_updateFirst (withIport iport) (fun _ => rfl), Option.map_eq_some_iff] at found
    obtain ⟨old, before, renumbered⟩ := found
    rw [← renumbered]
    exact own old before

theorem sameOthers_renew (rhost : Option CString) (desc : CString) (leaseduration : Nat)
    (old : RedirectRule) (own : OwnFirst client eport proto d.nf) :
    SameOthers client d.nf
      (renew env rhost eport iaddr iport proto desc leaseduration old d).2.nf := by
  unfold renew
  dsimp only
  split
  · have once := sameOthers_updateExisting env iport own old.iport desc
      (expiryTime env leaseduration)
    have still := ownFirst_updateExisting env iport own old.iport desc
      (expiryTime env leaseduration)
    have twice := sameOthers_updateExisting env iport still old.iport desc
      (expiryTime env leaseduration)
    have both := sameOthers_trans once twice
    split
    · simp only [fileAdd_nf, fileRemove_nf, withNf_nf]
      exact both
    · exact both
  · exact sameOthers_refl d.nf

/-- What the lookup reports for the client's own address is the client's. -/
theorem own_of_lookup {old : RedirectRule} {address : InAddr}
    (found : (d.lookup eport proto).1 = some old) (same : iaddr = old.iaddr)
    (parsed : inetAton iaddr = some address) : OwnFirst address eport proto d.nf := by
  obtain ⟨e, hit, rule⟩ := getRedirectRule_some found
  intro e' first
  rw [hit, Option.some.injEq] at first
  subst first
  have text : old.iaddr = inetNtoa e.target.minIp := by rw [rule]; rfl
  rw [same, text, inetAton_inetNtoa] at parsed
  exact Option.some.inj parsed

theorem sameOthers_lookup (client : InAddr) (eport : UInt16) (proto : Int) (d : Daemon) :
    SameOthers client d.nf (d.lookup eport proto).2.nf :=
  sameOthers_iptcCalls client 2 d.nf

theorem ownFirst_lookup (eport : UInt16) (proto : Int) (d : Daemon)
    (own : OwnFirst client eport proto d.nf) :
    OwnFirst client eport proto (d.lookup eport proto).2.nf := by
  have same := congrArg Tables.nat (getRedirectRule_tables eport proto d.nf)
  intro e found
  apply own e
  rw [← tables_nat, ← same]
  exact found

/-- A request for the client's own address leaves the rules of all others alone, whatever
    the lookup and the changes meet. -/
theorem sameOthers_redirect (env : Env) (rhost : Option CString) (eport iport : UInt16)
    (protocol : CString) (desc : Option CString) (leaseduration : Nat)
    (own : ∀ address, inetAton iaddr = some address → address = client) :
    SameOthers client d.nf
      (upnpRedirect env rhost eport iaddr iport protocol desc leaseduration d).2.nf := by
  unfold upnpRedirect
  cases parsed : inetAton iaddr with
  | none => exact sameOthers_refl d.nf
  | some address =>
    have mine := own address parsed
    subst mine
    dsimp only
    split
    · generalize asked : d.record (.upnpRedirect rhost eport iaddr iport protocol desc
        leaseduration) = d'
      have start : d.nf = d'.nf := by rw [← asked]; rfl
      rw [start]
      have looked := sameOthers_lookup address eport (protoAtoi protocol) d'
      rcases outcome : d'.lookup eport (protoAtoi protocol) with ⟨_ | old, after⟩ <;>
        rw [outcome] at looked
      · dsimp only at looked ⊢
        split
        · exact looked
        · apply sameOthers_trans looked
          exact sameOthers_internal rhost _ _ (by rw [inetAddr, parsed]; rfl)
      · dsimp only at looked ⊢
        by_cases same : iaddr = old.iaddr
        · apply sameOthers_trans looked
          apply sameOthers_renew
          have found : (d'.lookup eport (protoAtoi protocol)).1 = some old := by rw [outcome]
          have after_own := ownFirst_lookup eport (protoAtoi protocol) d'
            (own_of_lookup found same parsed)
          rw [outcome] at after_own
          exact after_own
        · unfold renew
          rw [if_neg (fun both => same both.1)]
          exact looked
    · exact sameOthers_refl d.nf

theorem sameOthers_deleteRedir (env : Env) (own : OwnFirst client eport proto d.nf) :
    SameOthers client d.nf (upnpDeleteRedir env eport proto d).2.nf := by
  simp only [upnpDeleteRedir, record_nf, fileRemove_nf, withNf_nf]
  exact sameOthers_deleteRedirect own

/-- Every redirection of the protocol with its external port in the range is the client's. -/
def OwnRange (client : InAddr) (startport endport : UInt16) (proto : Int) (nf : Netfilter) : Prop :=
  ∀ e ∈ nf.chain .nat, proto = e.proto.toNat → startport ≤ e.dpts.1 → e.dpts.1 ≤ endport →
    e.target.minIp = client

theorem ownFirst_of_ownRange {startport endport : UInt16} {nf : Netfilter}
    (own : OwnRange client startport endport proto nf) (low : startport ≤ eport)
    (high : eport ≤ endport) : OwnFirst client eport proto nf := by
  intro e found
  obtain ⟨protos, ports⟩ := (redirectMatches_iff e).mp (List.find?_some found)
  rw [ports] at low high
  exact own e (List.mem_of_find?_eq_some found) protos low high

theorem ownRange_deleteRedir (env : Env) {startport endport : UInt16}
    (own : OwnRange client startport endport proto d.nf) :
    OwnRange client startport endport proto (upnpDeleteRedir env eport proto d).2.nf := by
  have nat := (upnpDeleteRedir_exact env eport proto d).2.2
  rw [tables_nat] at nat
  intro e member
  rw [nat] at member
  split at member
  · exact own e (List.mem_of_mem_eraseP member)
  · exact own e member

theorem sameOthers_deleteAll (env : Env) (protocol : CString) {startport endport : UInt16}
    {entryList : List UInt16} (inside : ∀ port ∈ entryList, startport ≤ port ∧ port ≤ endport)
    (own : OwnRange client startport endport (protoAtoi protocol) d.nf) :
    SameOthers client d.nf (deleteAll env protocol entryList d).nf := by
  unfold deleteAll
  induction entryList generalizing d with
  | nil => exact sameOthers_refl d.nf
  | cons port entryList ih =>
    simp only [List.mem_cons, forall_eq_or_imp] at inside
    obtain ⟨low, high⟩ := inside.1
    have first := sameOthers_deleteRedir env (ownFirst_of_ownRange own low high)
    exact sameOthers_trans first (ih inside.2 (ownRange_deleteRedir env own))

end requests

section actions
variable {client : InAddr} {d : Daemon}

inductive Action where
  | addPortMapping (env : SoapEnv) (clientport : UInt16) (args : List (CString × CString))
  | addAnyPortMapping (env : SoapEnv) (clientport : UInt16) (args : List (CString × CString))
  | deletePortMapping (env : SoapEnv) (clientport : UInt16) (args : List (CString × CString))
  | deletePortMappingRange (env : SoapEnv) (clientport : UInt16) (args : List (CString × CString))

def secure (env : SoapEnv) : SoapEnv := { env with secureMode := true }

/-- All actions come from `client`. -/
def step (client : InAddr) (d : Daemon) : Action → Daemon
  | .addPortMapping env clientport args =>
      (UpnpSoap.addPortMapping (secure env) { clientaddr := client, clientport, args } d).2
  | .addAnyPortMapping env clientport args =>
      (UpnpSoap.addAnyPortMapping (secure env) { clientaddr := client, clientport, args } d).2
  | .deletePortMapping env clientport args =>
      (UpnpSoap.deletePortMapping (secure env) { clientaddr := client, clientport, args } d).2
  | .deletePortMappingRange env clientport args =>
      (UpnpSoap.deletePortMappingRange (secure env) { clientaddr := client, clientport, args } d).2

/-- The mappings in the range, and the mapping whose lookup libiptc refuses, are the
    client's. -/
def Admits (client : InAddr) (d : Daemon) : Action → Prop
  | .addPortMapping .. => True
  | .addAnyPortMapping .. => True
  | .deletePortMapping env clientport args =>
      ∀ eport protocol,
        deleteArguments env { clientaddr := client, clientport, args } = .ok (eport, protocol) →
        callsSucceed 2 d.nf.iptcResults = false → OwnFirst client eport (protoAtoi protocol) d.nf
  | .deletePortMappingRange _ clientport args =>
      ∀ startport endport protocol,
        rangeArguments { clientaddr := client, clientport, args } =
          .ok (startport, endport, protocol) →
        callsSucceed 2 d.nf.iptcResults = true →
        OwnRange client startport endport (protoAtoi protocol) d.nf

theorem resolveClient_address {env : SoapEnv} {given intIp : CString} {address : InAddr}
    (resolved : resolveClient env given = .ok (intIp, address)) :
    inetAton intIp = some address := by
  rw [resolveClient_text resolved]
  exact inetAton_inetNtoa address

/-- The text of an internal client is read as its address, or not at all. -/
theorem internalClient_address {env : SoapEnv} {h : Upnphttp} {intIp : CString}
    {address : InAddr} (resolved : internalClient env h = .ok (intIp, address)) (read : InAddr)
    (parsed : inetAton intIp = some read) : read = address := by
  rcases internalClient_text resolved with rfl | rfl
  · rw [inetAton_inetNtoa, Option.some.injEq] at parsed
    exact parsed.symm
  · rw [inetAton_port] at parsed
    simp at parsed

theorem sameOthers_addPortMapping (env : SoapEnv) (h : Upnphttp) (d : Daemon) :
    SameOthers h.clientaddr d.nf (addPortMapping (secure env) h d).2.nf := by
  apply addPortMapping_keeps (P := fun d' => SameOthers h.clientaddr d.nf d'.nf) (secure env) h ?_
    (sameOthers_refl d.nf)
  intro intIp address args resolved own _
  apply sameOthers_redirect
  intro read parsed
  rw [own rfl]
  exact internalClient_address resolved read parsed

theorem sameOthers_addAnyPortMapping (env : SoapEnv) (h : Upnphttp) (d : Daemon) :
    SameOthers h.clientaddr d.nf (addAnyPortMapping (secure env) h d).2.nf := by
  apply addAnyPortMapping_keeps (P := fun d' => SameOthers h.clientaddr d.nf d'.nf) (secure env) h
    ?_ (sameOthers_refl d.nf)
  intro given intIp address args _ resolved own eport d' _ same
  apply sameOthers_trans same
  apply sameOthers_redirect
  intro read parsed
  rw [resolveClient_address resolved, Option.some.injEq] at parsed
  rw [own rfl, parsed]

theorem deletionRefused_secure (env : SoapEnv) (h : Upnphttp) (eport : UInt16)
    (protocol : CString) (d : Daemon) :
    deletionRefused (secure env) h eport protocol d =
      (match (d.lookup eport (protoAtoi protocol)).1 with
        | none => false
        | some rule =>
          match inetPton rule.iaddr with
          | none => false
          | some address => decide (h.clientaddr ≠ address),
        (d.lookup eport (protoAtoi protocol)).2) := by
  unfold deletionRefused upnpGetRedirectionInfos
  dsimp only [secure]
  cases (d.lookup eport (protoAtoi protocol)).1 with
  | none => rfl
  | some rule =>
    simp only [↓reduceIte, Option.map_some]
    cases inetPton rule.iaddr <;> rfl

/-- A deletion that is not refused after a lookup that libiptc answered is of the client's
    own mapping. -/
theorem own_of_not_refused {env : SoapEnv} {h : Upnphttp} {eport : UInt16} {protocol : CString}
    (answered : callsSucceed 2 d.nf.iptcResults = true)
    (passed : (deletionRefused (secure env) h eport protocol d).1 = false) :
    OwnFirst h.clientaddr eport (protoAtoi protocol) d.nf := by
  intro e found
  have looked : (d.lookup eport (protoAtoi protocol)).1 =
      some (readRule (iptcCalls 2 d.nf).2 e) := by
    simp only [Daemon.lookup, getRedirectRule, iptcCalls_done answered, ↓reduceIte,
      chain_withResults, found, Option.map_some]
  rw [deletionRefused_secure, looked] at passed
  have text : (readRule (iptcCalls 2 d.nf).2 e).iaddr = inetNtoa e.target.minIp := rfl
  have read : inetPton (inetNtoa e.target.minIp) = some e.target.minIp :=
    (inetPton_iff _ _).mpr rfl
  simp only [text, read, ne_eq, decide_eq_false_iff_not, not_not] at passed
  exact passed.symm

theorem sameOthers_deletePortMapping {env : SoapEnv} {h : Upnphttp}
    (admits : ∀ eport protocol, deleteArguments env h = .ok (eport, protocol) →
      callsSucceed 2 d.nf.iptcResults = false →
      OwnFirst h.clientaddr eport (protoAtoi protocol) d.nf) :
    SameOthers h.clientaddr d.nf (deletePortMapping (secure env) h d).2.nf := by
  have same : deleteArguments (secure env) h = deleteArguments env h := rfl
  unfold deletePortMapping
  rw [same]
  cases args : deleteArguments env h with
  | error reply => exact sameOthers_refl d.nf
  | ok args' =>
    obtain ⟨eport, protocol⟩ := args'
    have after : (deletionRefused (secure env) h eport protocol d).2 =
        (d.lookup eport (protoAtoi protocol)).2 := by rw [deletionRefused_secure]
    have looked := sameOthers_lookup h.clientaddr eport (protoAtoi protocol) d
    dsimp only
    rw [after]
    split
    · exact looked
    · rename_i passed
      have own : OwnFirst h.clientaddr eport (protoAtoi protocol) d.nf := by
        cases answered : callsSucceed 2 d.nf.iptcResults with
        | false => exact admits eport protocol args answered
        | true => exact own_of_not_refused answered (by simpa using passed)
      exact sameOthers_trans looked (sameOthers_deleteRedir _ (ownFirst_lookup _ _ d own))

theorem sameOthers_ranged (client : InAddr) (startport endport : UInt16) (protocol : CString)
    (d : Daemon) :
    SameOthers client d.nf (upnpGetPortmappingsInRange startport endport protocol d).2.nf :=
  sameOthers_iptcCalls client 2 d.nf

theorem ranged_unanswered (startport endport : UInt16) (protocol : CString)
    (refused : callsSucceed 2 d.nf.iptcResults = false) :
    (upnpGetPortmappingsInRange startport endport protocol d).1.getD [] = [] := by
  have calls := iptcCalls_fst 2 d.nf
  rw [refused] at calls
  unfold upnpGetPortmappingsInRange getPortmappingsInRange
  dsimp only
  rw [calls]
  rfl

theorem ranged_answered (startport endport : UInt16) (protocol : CString)
    (answered : callsSucceed 2 d.nf.iptcResults = true) :
    let listed := upnpGetPortmappingsInRange startport endport protocol d
    let ports := ((d.nf.chain .nat).filter fun e => protoAtoi protocol = e.proto.toNat ∧
      startport ≤ e.dpts.1 ∧ e.dpts.1 ≤ endport).map fun e => e.dpts.1
    listed.1 = some ports ∧ (∀ p ∈ ports, startport ≤ p ∧ p ≤ endport) ∧
      listed.2.nf.chain .nat = d.nf.chain .nat := by
  have calls := iptcCalls_done answered
  refine ⟨?_, ?_, ?_⟩
  · unfold upnpGetPortmappingsInRange getPortmappingsInRange
    rw [calls]
    rfl
  · intro p member
    simp only [List.mem_map, List.mem_filter, decide_eq_true_eq] at member
    obtain ⟨e, ⟨_, _, within⟩, port⟩ := member
    rw [← port]
    exact within
  · unfold upnpGetPortmappingsInRange getPortmappingsInRange
    rw [calls]
    rfl

theorem sameOthers_deletePortMappingRange {env : SoapEnv} {h : Upnphttp}
    (admits : ∀ startport endport protocol,
      rangeArguments h = .ok (startport, endport, protocol) →
      callsSucceed 2 d.nf.iptcResults = true →
      OwnRange h.clientaddr startport endport (protoAtoi protocol) d.nf) :
    SameOthers h.clientaddr d.nf (deletePortMappingRange (secure env) h d).2.nf := by
  unfold deletePortMappingRange
  cases args : rangeArguments h with
  | error reply => exact sameOthers_refl d.nf
  | ok args' =>
    obtain ⟨startport, endport, protocol⟩ := args'
    have listed := sameOthers_ranged h.clientaddr startport endport protocol d
    cases answered : callsSucceed 2 d.nf.iptcResults with
    | false =>
      have nothing := ranged_unanswered startport endport protocol answered
      dsimp only
      rw [nothing]
      exact listed
    | true =>
      obtain ⟨entries, inside, nat⟩ := ranged_answered startport endport protocol answered
      have own := admits startport endport protocol args answered
      dsimp only
      split
      · exact listed
      · rename_i port rest ports
        have within : ∀ p ∈ port :: rest, startport ≤ p ∧ p ≤ endport := by
          intro p member
          rw [entries, Option.getD_some] at ports
          rw [← ports] at member
          exact inside p member
        apply sameOthers_trans listed
        apply sameOthers_deleteAll (secure env).toEnv protocol within
        intro e member
        rw [nat] at member
        exact own e member

theorem step_sameOthers (d : Daemon) (action : Action) (admits : Admits client d action) :
    SameOthers client d.nf (step client d action).nf := by
  cases action with
  | addPortMapping env clientport args =>
    exact sameOthers_addPortMapping env { clientaddr := client, clientport, args } d
  | addAnyPortMapping env clientport args =>
    exact sameOthers_addAnyPortMapping env { clientaddr := client, clientport, args } d
  | deletePortMapping env clientport args => exact sameOthers_deletePortMapping admits
  | deletePortMappingRange env clientport args =>
    exact sameOthers_deletePortMappingRange admits

end actions

section reports
variable {client : InAddr} {t t' : Tables} {eport eport' : UInt16} {proto proto' : Int}

def descAt (eport : UInt16) (proto : Int) (t : Tables) : Option RdrDesc :=
  t.descs.find? fun p => p.eport = eport ∧ p.proto = Int16.ofInt proto

/-- A lookup for another key gives the same rule and the same description. -/
def OnlyKey (eport : UInt16) (proto : Int) (t t' : Tables) : Prop :=
  ∀ eport' proto', ¬ (eport' = eport ∧ proto' = proto) → 0 ≤ proto' → proto' < 65536 →
    t'.nat.find? (redirectMatches proto' eport') = t.nat.find? (redirectMatches proto' eport') ∧
      descAt eport' proto' t' = descAt eport' proto' t

/-- What lookups report about the mappings of others. -/
def SameReports (client : InAddr) (t t' : Tables) : Prop :=
  ∀ eport proto e, t.nat.find? (redirectMatches proto eport) = some e → e.target.minIp ≠ client →
    t'.nat.find? (redirectMatches proto eport) = some e ∧ descAt eport proto t' = descAt eport proto t

theorem sameReports_refl (t : Tables) : SameReports client t t := fun _ _ _ found _ => ⟨found, rfl⟩

theorem sameReports_trans {t'' : Tables} (first : SameReports client t t')
    (next : SameReports client t' t'') : SameReports client t t'' := by
  intro eport proto e found other
  obtain ⟨kept, described⟩ := first eport proto e found other
  obtain ⟨still, again⟩ := next eport proto e kept other
  exact ⟨still, again.trans described⟩

theorem onlyKey_trans {t'' : Tables} (first : OnlyKey eport proto t t')
    (next : OnlyKey eport proto t' t'') : OnlyKey eport proto t t'' := by
  intro eport' proto' other low high
  obtain ⟨rule, desc⟩ := first eport' proto' other low high
  obtain ⟨rule', desc'⟩ := next eport' proto' other low high
  exact ⟨rule'.trans rule, desc'.trans desc⟩

theorem sameReports_of_onlyKey (only : OnlyKey eport proto t t')
    (own : ∀ e, t.nat.find? (redirectMatches proto eport) = some e → e.target.minIp = client) :
    SameReports client t t' := by
  intro eport' proto' e found other
  obtain ⟨protos, _⟩ := (redirectMatches_iff e).mp (List.find?_some found)
  have small := e.proto.toNat_lt
  have key : ¬ (eport' = eport ∧ proto' = proto) := by
    rintro ⟨rfl, rfl⟩
    exact other (own e found)
  obtain ⟨rule, desc⟩ := only eport' proto' key (by omega) (by omega)
  exact ⟨rule.trans found, desc⟩

theorem key_of_desc (byte : isByte proto) (low : 0 ≤ proto') (high : proto' < 65536)
    (other : ¬ (eport' = eport ∧ proto' = proto)) (p : RdrDesc)
    (hit : decide (p.eport = eport' ∧ p.proto = Int16.ofInt proto') = true) :
    ¬ (p.eport = eport ∧ p.proto = Int16.ofInt proto) := by
  simp only [decide_eq_true_eq] at hit
  intro both
  apply other
  refine ⟨hit.1.symm.trans both.1, ?_⟩
  apply ofInt_inj_word low high byte.1 (by have := byte.2; omega)
  exact hit.2.symm.trans both.2

theorem descAt_erase (byte : isByte proto) (low : 0 ≤ proto') (high : proto' < 65536)
    (other : ¬ (eport' = eport ∧ proto' = proto)) (descs : List RdrDesc) :
    (descs.eraseP (descMatches eport proto)).find?
        (fun p => p.eport = eport' ∧ p.proto = Int16.ofInt proto') =
      descs.find? (fun p => p.eport = eport' ∧ p.proto = Int16.ofInt proto') := by
  apply find?_eraseP_other
  intro p hit
  have miss := key_of_desc byte low high other p hit
  by_contra also
  rw [Bool.not_eq_false, descMatches_iff byte] at also
  exact miss also

theorem descAt_cons (byte : isByte proto) (low : 0 ≤ proto') (high : proto' < 65536)
    (other : ¬ (eport' = eport ∧ proto' = proto)) (timestamp : Nat) (str : CString)
    (descs : List RdrDesc) :
    ({ timestamp, eport, proto := Int16.ofInt proto, str } :: descs).find?
        (fun p => p.eport = eport' ∧ p.proto = Int16.ofInt proto') =
      descs.find? (fun p => p.eport = eport' ∧ p.proto = Int16.ofInt proto') := by
  apply List.find?_cons_of_neg
  intro hit
  exact key_of_desc byte low high other _ hit ⟨rfl, rfl⟩

theorem onlyKey_remove (byte : isByte proto) (t : Tables) :
    OnlyKey eport proto t (remove eport proto t) := by
  intro eport' proto' other low high
  exact ⟨find?_eraseP_other (redirectMatches_other other), descAt_erase byte low high other t.descs⟩

theorem onlyKey_redescribe (byte : isByte proto) (desc : Option CString) (timestamp : Nat)
    (t : Tables) : OnlyKey eport proto t (redescribe eport proto desc timestamp t) := by
  intro eport' proto' other low high
  refine ⟨rfl, ?_⟩
  simp only [descAt, redescribe]
  rw [descAt_cons byte low high other, descAt_erase byte low high other]

theorem onlyKey_renumber (byte : isByte proto) (iport : UInt16) (desc : Option CString)
    (timestamp : Nat) (t : Tables) :
    OnlyKey eport proto t (renumber eport proto iport desc timestamp t) := by
  intro eport' proto' other low high
  refine ⟨?_, ?_⟩
  · rw [renumber_nat]
    exact find?_updateFirst_other (withIport iport) (redirectMatches_other other) fun _ => rfl
  · unfold renumber
    cases t.nat.find? (redirectMatches proto eport) with
    | none => rfl
    | some e =>
      dsimp only
      split
      · rfl
      · exact (onlyKey_redescribe byte desc timestamp _ eport' proto' other low high).2

theorem onlyKey_addMapping (byte : isByte proto) (rhost : Option CString) (iaddr : CString)
    (iport : UInt16) (str : CString) (timestamp : Nat) (t : Tables) :
    OnlyKey eport proto t (addMapping rhost eport iaddr iport proto str timestamp t) := by
  intro eport' proto' other low high
  refine ⟨?_, descAt_cons byte low high other _ _ _⟩
  have key := natRule_key rhost eport iaddr iport byte
  have miss : redirectMatches proto' eport' (natRule proto eport iaddr iport rhost) = false := by
    by_contra hit
    rw [Bool.not_eq_false, redirectMatches_iff, key.1, key.2] at hit
    exact other ⟨hit.2, hit.1⟩
  simp only [addMapping, describe, List.find?_append, List.find?_cons, miss, List.find?_nil,
    Option.or_none]

/-- Under `Quiet`, the state after has the same reports about others. -/
def Reported (client : InAddr) (d d' : Daemon) : Prop :=
  d'.nf.Quiet ∧ SameReports client (tables d.nf) (tables d'.nf)

variable {d d' : Daemon}

theorem reported_trans {d'' : Daemon} (first : Reported client d d')
    (next : Reported client d' d'') : Reported client d d'' :=
  ⟨next.1, sameReports_trans first.2 next.2⟩

theorem reported_redirect (quiet : d.nf.Quiet) (env : Env) (rhost : Option CString)
    (eport : UInt16) {iaddr : CString} (iport : UInt16) (protocol : CString)
    (desc : Option CString) (leaseduration : Nat)
    (own : ∀ address, inetAton iaddr = some address → address = client) :
    Reported client d
      (upnpRedirect env rhost eport iaddr iport protocol desc leaseduration d).2 := by
  have byte := protoAtoi_byte protocol
  obtain ⟨still, changed⟩ :=
    upnpRedirect_quiet env rhost eport iaddr iport quiet protocol desc leaseduration
  refine ⟨still, ?_⟩
  rw [changed]
  unfold redirectTables
  cases parsed : inetAton iaddr with
  | none => exact sameReports_refl _
  | some address =>
    have mine := own address parsed
    subst mine
    dsimp only
    split
    · cases found : (tables d.nf).nat.find? (redirectMatches (protoAtoi protocol) eport) with
      | none =>
        dsimp only
        split
        · exact sameReports_refl _
        · split
          · exact sameReports_refl _
          · apply sameReports_of_onlyKey (onlyKey_addMapping byte rhost iaddr iport _ _ _)
            intro e first
            rw [found] at first
            simp at first
      | some e =>
        dsimp only
        split
        · rename_i same
          have first : ∀ e', (tables d.nf).nat.find?
              (redirectMatches (protoAtoi protocol) eport) = some e' →
              e'.target.minIp = address := by
            intro e' hit
            rw [found, Option.some.injEq] at hit
            subst hit
            rw [same.1, inetAton_inetNtoa] at parsed
            exact Option.some.inj parsed
          split
          · exact sameReports_of_onlyKey (onlyKey_trans (onlyKey_renumber byte iport _ _ _)
              (onlyKey_renumber byte iport _ _ _)) first
          · exact sameReports_of_onlyKey (onlyKey_trans (onlyKey_redescribe byte _ _ _)
              (onlyKey_redescribe byte _ _ _)) first
        · exact sameReports_refl _
    · exact sameReports_refl _

theorem reported_deleteRedir (quiet : d.nf.Quiet) (env : Env) (byte : isByte proto)
    (own : OwnFirst client eport proto d.nf) :
    Reported client d (upnpDeleteRedir env eport proto d).2 := by
  obtain ⟨still, removed⟩ := upnpDeleteRedir_quiet env eport quiet proto
  refine ⟨still, ?_⟩
  rw [removed]
  exact sameReports_of_onlyKey (onlyKey_remove byte _) own

theorem reported_deleteAll (quiet : d.nf.Quiet) (env : Env) (protocol : CString)
    {startport endport : UInt16} {entryList : List UInt16}
    (inside : ∀ port ∈ entryList, startport ≤ port ∧ port ≤ endport)
    (own : OwnRange client startport endport (protoAtoi protocol) d.nf) :
    Reported client d (deleteAll env protocol entryList d) := by
  unfold deleteAll
  induction entryList generalizing d with
  | nil => exact ⟨quiet, sameReports_refl _⟩
  | cons port entryList ih =>
    simp only [List.mem_cons, forall_eq_or_imp] at inside
    obtain ⟨low, high⟩ := inside.1
    have first := reported_deleteRedir quiet env (protoAtoi_byte protocol)
      (ownFirst_of_ownRange own low high)
    exact reported_trans first (ih first.1 inside.2 (ownRange_deleteRedir env own))

theorem quiet_answered (quiet : d.nf.Quiet) (n : Nat) :
    callsSucceed n d.nf.iptcResults = true := by
  have none : d.nf.iptcResults = [] := quiet
  simp [none, callsSucceed]

theorem reported_deletePortMapping (quiet : d.nf.Quiet) (env : SoapEnv) (h : Upnphttp) :
    Reported h.clientaddr d (deletePortMapping (secure env) h d).2 := by
  unfold deletePortMapping
  cases deleteArguments (secure env) h with
  | error reply => exact ⟨quiet, sameReports_refl _⟩
  | ok args =>
    obtain ⟨eport, protocol⟩ := args
    have after : (deletionRefused (secure env) h eport protocol d).2 = d := by
      rw [deletionRefused_secure, lookup_quiet eport quiet]
    dsimp only
    rw [after]
    split
    · exact ⟨quiet, sameReports_refl _⟩
    · rename_i passed
      have own := own_of_not_refused (quiet_answered quiet 2) (by simpa using passed)
      exact reported_deleteRedir quiet _ (protoAtoi_byte protocol) own

theorem reported_deletePortMappingRange (quiet : d.nf.Quiet) {env : SoapEnv} {h : Upnphttp}
    (admits : ∀ startport endport protocol,
      rangeArguments h = .ok (startport, endport, protocol) →
      callsSucceed 2 d.nf.iptcResults = true →
      OwnRange h.clientaddr startport endport (protoAtoi protocol) d.nf) :
    Reported h.clientaddr d (deletePortMappingRange (secure env) h d).2 := by
  unfold deletePortMappingRange
  cases args : rangeArguments h with
  | error reply => exact ⟨quiet, sameReports_refl _⟩
  | ok args' =>
    obtain ⟨startport, endport, protocol⟩ := args'
    have answered := quiet_answered quiet 2
    obtain ⟨entries, inside, _⟩ := ranged_answered startport endport protocol answered
    have own := admits startport endport protocol args answered
    have after : (upnpGetPortmappingsInRange startport endport protocol d).2 = d := by
      unfold upnpGetPortmappingsInRange
      rw [getPortmappingsInRange_quiet quiet]
      rfl
    dsimp only
    rw [after]
    split
    · exact ⟨quiet, sameReports_refl _⟩
    · rename_i port rest ports
      apply reported_deleteAll quiet (secure env).toEnv protocol ?_ own
      intro p member
      rw [entries, Option.getD_some] at ports
      rw [← ports] at member
      exact inside p member

theorem reported_step (quiet : d.nf.Quiet) (action : Action) (admits : Admits client d action) :
    Reported client d (step client d action) := by
  cases action with
  | addPortMapping env clientport args =>
    apply addPortMapping_keeps (P := Reported client d) (secure env) _ ?_
      ⟨quiet, sameReports_refl _⟩
    intro intIp address args' resolved own _
    apply reported_redirect quiet
    intro read parsed
    have mine : client = address := own rfl
    rw [mine]
    exact internalClient_address resolved read parsed
  | addAnyPortMapping env clientport args =>
    apply addAnyPortMapping_keeps (P := Reported client d) (secure env) _ ?_
      ⟨quiet, sameReports_refl _⟩
    intro given intIp address args' _ resolved own eport d' _ reported
    apply reported_trans reported
    apply reported_redirect reported.1
    intro read parsed
    have mine : client = address := own rfl
    rw [resolveClient_address resolved, Option.some.injEq] at parsed
    rw [mine, parsed]
  | deletePortMapping env clientport args => exact reported_deletePortMapping quiet env _
  | deletePortMappingRange env clientport args =>
    exact reported_deletePortMappingRange quiet admits

end reports

def plainEnv (now : Nat) : SoapEnv :=
  { Env.plain now with
    upnpStrict := false
    supportRemotehost := false
    igdV2 := false
    secureMode := true
    gethostbyname := fun _ => none
    random := 0 }

def addArgs (client eport : String) : List (CString × CString) :=
  [("NewInternalClient".toList, client.toList), ("NewInternalPort".toList, "80".toList),
   ("NewExternalPort".toList, eport.toList), ("NewProtocol".toList, "TCP".toList)]

def rangeArgs (startport endport : String) : List (CString × CString) :=
  [("NewStartPort".toList, startport.toList), ("NewEndPort".toList, endport.toList),
   ("NewProtocol".toList, "TCP".toList)]

/-- Host 192.168.1.3 has a mapping for external port 1001. -/
def neighbourMapped : Daemon :=
  step (ofBytes 192 168 1 3) (Daemon.start none)
    (.addPortMapping (plainEnv 0) 40000 (addArgs "192.168.1.3" "1001"))

/-- Host 192.168.1.2 adds a mapping beside its neighbour's, for external port 2001, and
    deletes the range 2000 to 2010. -/
def ownActions : List Action :=
  [.addPortMapping (plainEnv 0) 40000 (addArgs "192.168.1.2" "2001"),
   .deletePortMappingRange (plainEnv 0) 40000 (rangeArgs "2000" "2010")]

end SecureMode
