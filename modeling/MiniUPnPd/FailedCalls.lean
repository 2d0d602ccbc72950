import MiniUPnPd.UpnpRedirectSpec

/-!
What the functions of the redirection layer leave behind in the three chains of a mapping and in
the description list when libiptc calls fail on the way.
-/
namespace FailedCalls
open FirstMatch Iptc Iptcrdr IptcrdrSpec UpnpRedirect UpnpRedirectSpec

structure Unchanged (nf nf' : Netfilter) : Prop where
  nat : nf'.chain .nat = nf.chain .nat
  forward : nf'.chain .forward = nf.chain .forward
  postrouting : nf'.chain .postrouting = nf.chain .postrouting
  descs : nf'.rdrDescList = nf.rdrDescList

section unchanged
variable {nf nf' nf'' : Netfilter}

theorem unchanged_refl (nf : Netfilter) : Unchanged nf nf := ⟨rfl, rfl, rfl, rfl⟩

theorem unchanged_withResults (nf : Netfilter) (results : List Bool) :
    Unchanged nf (nf.withResults results) := ⟨rfl, rfl, rfl, rfl⟩

theorem unchanged_trans (first : Unchanged nf nf') (second : Unchanged nf' nf'') :
    Unchanged nf nf'' :=
  ⟨second.nat.trans first.nat, second.forward.trans first.forward,
    second.postrouting.trans first.postrouting, second.descs.trans first.descs⟩

theorem unchanged_symm (same : Unchanged nf nf') : Unchanged nf' nf :=
  ⟨same.nat.symm, same.forward.symm, same.postrouting.symm, same.descs.symm⟩

theorem unchanged_iff (same : Unchanged nf nf') : Unchanged nf nf'' ↔ Unchanged nf' nf'' :=
  ⟨unchanged_trans (unchanged_symm same), unchanged_trans same⟩

theorem getRedirectRule_unchanged (eport : UInt16) (proto : Int) (nf : Netfilter) :
    Unchanged nf (getRedirectRule eport proto nf).2 := by
  obtain ⟨done, results, calls⟩ := iptcCalls_cases 2 nf
  unfold getRedirectRule
  rw [calls]
  exact unchanged_withResults nf results

end unchanged

/-- The arguments of `upnp_redirect_internal`. -/
structure Addition where
  rhost : Option CString
  eport : UInt16
  iaddr : CString
  iport : UInt16
  proto : Int
  desc : CString
  timestamp : Nat

def add (env : Env) (a : Addition) (d : Daemon) : Int × Daemon :=
  upnpRedirectInternal env a.rhost a.eport a.iaddr a.iport a.proto a.desc a.timestamp d

section addition
variable (env : Env) (a : Addition)

/-- The redirection gets into the nat table. -/
def Begins (nf : Netfilter) : Prop :=
  env.disablePortForwarding = false ∧ callsSucceed 4 nf.iptcResults = true

/-- All calls of the addition succeed. -/
def Completes (nf : Netfilter) : Prop :=
  env.disablePortForwarding = false ∧
    callsSucceed (if env.enablePortTriggering then 12 else 8) nf.iptcResults = true

instance (nf : Netfilter) : Decidable (Begins env nf) := by
  unfold Begins
  infer_instance

instance (nf : Netfilter) : Decidable (Completes env nf) := by
  unfold Completes
  infer_instance

def newNat : IptEntry := natRule a.proto a.eport a.iaddr a.iport a.rhost

def newPeer : IptEntry := masqueradeRule a.proto a.eport a.iaddr a.iport a.rhost

def newDesc : RdrDesc :=
  { timestamp := a.timestamp, eport := a.eport, proto := Int16.ofInt a.proto, str := a.desc }

/-- What an addition that breaks off has put into the nat table. -/
def halfNat (nf : Netfilter) : List IptEntry := if Begins env nf then [newNat a] else []

def halfDescs (nf : Netfilter) : List RdrDesc := if Begins env nf then [newDesc a] else []

def halfPostrouting (nf : Netfilter) : List IptEntry :=
  if Begins env nf ∧ env.enablePortTriggering ∧ callsSucceed 8 nf.iptcResults then [newPeer a]
  else []

/-- What the addition has put in when it breaks off is exactly what was taken out before it. -/
structure BreaksEven (before after : Netfilter) : Prop where
  nat : after.chain .nat ++ halfNat env a after = before.chain .nat
  forward : after.chain .forward = before.chain .forward
  postrouting : after.chain .postrouting ++ halfPostrouting env a after = before.chain .postrouting
  descs : halfDescs env a after ++ after.rdrDescList = before.rdrDescList

end addition

section addition
variable {env : Env} {a : Addition}

/-- Where nothing was taken out, an addition breaks even only if it does not begin. -/
theorem breaksEven_self (nf : Netfilter) : BreaksEven env a nf nf ↔ ¬ Begins env nf := by
  constructor
  · rintro even begins
    have nat := congrArg List.length even.nat
    simp [halfNat, begins] at nat
  · intro refused
    constructor <;> simp [halfNat, halfPostrouting, halfDescs, refused]

/-- The four chains and the list after a step, relative to those before it. -/
structure Gains (nat forward postrouting : List IptEntry) (descs : List RdrDesc)
    (nf nf' : Netfilter) : Prop where
  nat : nf'.chain .nat = nf.chain .nat ++ nat
  forward : nf'.chain .forward = nf.chain .forward ++ forward
  postrouting : nf'.chain .postrouting = nf.chain .postrouting ++ postrouting
  descs : nf'.rdrDescList = descs ++ nf.rdrDescList

/-- The redirection with its description, and the rule for port triggering. -/
theorem redirect_outcome (trigger : Bool) (nf : Netfilter) :
    let added := addRedirectRule2 trigger a.rhost a.eport a.iaddr a.iport a.proto (some a.desc)
      a.timestamp nf
    callsSucceed 4 nf.iptcResults = false ∧ added.1 = -1 ∧ Gains [] [] [] [] nf added.2 ∨
      callsSucceed 4 nf.iptcResults = true ∧
        (trigger = false ∧ added.1 = 0 ∧ Gains [newNat a] [] [] [newDesc a] nf added.2 ∧
            added.2.iptcResults = nf.iptcResults.drop 4 ∨
          trigger = true ∧ callsSucceed 8 nf.iptcResults = false ∧ added.1 = -1 ∧
            Gains [newNat a] [] [] [newDesc a] nf added.2 ∨
          trigger = true ∧ callsSucceed 8 nf.iptcResults = true ∧ added.1 = 0 ∧
            Gains [newNat a] [] [newPeer a] [newDesc a] nf added.2 ∧
            added.2.iptcResults = nf.iptcResults.drop 8) := by
  intro added
  cases nat : callsSucceed 4 nf.iptcResults with
  | false =>
    obtain ⟨results, failed⟩ :=
      append_failed .nat (natRule a.proto a.eport a.iaddr a.iport a.rhost) nat
    refine .inl ⟨rfl, ?_, ?_⟩
    · simp [added, addRedirectRule2, addnatrule, failed]
    · simp only [added, addRedirectRule2, addnatrule, failed]
      constructor <;> simp
  | true =>
    refine .inr ⟨rfl, ?_⟩
    have done := append_done .nat (natRule a.proto a.eport a.iaddr a.iport a.rhost) nat
    have eight := callsSucceed_add 4 4 nf.iptcResults
    cases trigger with
    | false =>
      refine .inl ⟨rfl, ?_, ?_, ?_⟩
      · simp [added, addRedirectRule2, addnatrule, done]
      · simp only [added, addRedirectRule2, addnatrule, done]
        constructor <;> simp [addRedirectDesc, newNat, newDesc]
      · simp [added, addRedirectRule2, addnatrule, done, addRedirectDesc]
    | true =>
      generalize here : addRedirectDesc a.eport a.proto (some a.desc) a.timestamp
        ((nf.withResults (nf.iptcResults.drop 4)).setChain .nat
          (nf.chain .nat ++ [natRule a.proto a.eport a.iaddr a.iport a.rhost])) = mid
      have rest : mid.iptcResults = nf.iptcResults.drop 4 := by rw [← here]; rfl
      have gains : Gains [newNat a] [] [] [newDesc a] nf mid := by
        rw [← here]
        constructor <;> simp [addRedirectDesc, newNat, newDesc]
      rw [nat, ← rest, Bool.true_and] at eight
      right
      cases masquerade : callsSucceed 4 mid.iptcResults with
      | false =>
        obtain ⟨results, failed⟩ := append_failed .postrouting (newPeer a) masquerade
        rw [newPeer] at failed
        have same : added = (-1, mid.withResults results) := by
          simp [added, addRedirectRule2, addnatrule, done, here, addmasqueraderule, failed]
        refine .inl ⟨rfl, eight.trans masquerade, congrArg Prod.fst same, ?_⟩
        rw [same]
        exact ⟨gains.nat, gains.forward, gains.postrouting, gains.descs⟩
      | true =>
        have appended := append_done .postrouting (newPeer a) masquerade
        rw [newPeer] at appended
        have same : added = (0, (mid.withResults (mid.iptcResults.drop 4)).setChain .postrouting
            (mid.chain .postrouting ++ [newPeer a])) := by
          simp [added, addRedirectRule2, addnatrule, done, here, addmasqueraderule, appended,
            newPeer]
        refine .inr ⟨rfl, eight.trans masquerade, congrArg Prod.fst same, ?_, ?_⟩
        · rw [same]
          constructor <;> simp [gains.nat, gains.forward, gains.postrouting, gains.descs]
        · rw [same]
          simp [rest]

theorem filter_outcome (nf : Netfilter) :
    let added := addFilterRule2 a.rhost a.iaddr a.iport a.proto nf
    callsSucceed 4 nf.iptcResults = true ∧ added.1 = 0 ∨
      callsSucceed 4 nf.iptcResults = false ∧ added.1 = -1 ∧ Unchanged nf added.2 := by
  intro added
  cases forward : callsSucceed 4 nf.iptcResults with
  | true =>
    have done := append_done .forward (filterRule a.proto a.rhost a.iaddr a.iport) forward
    exact .inl ⟨rfl, congrArg Prod.fst done⟩
  | false =>
    obtain ⟨results, failed⟩ :=
      append_failed .forward (filterRule a.proto a.rhost a.iaddr a.iport) forward
    refine .inr ⟨rfl, congrArg Prod.fst failed, ?_⟩
    have same : added.2 = nf.withResults results := congrArg Prod.snd failed
    rw [same]
    exact unchanged_withResults nf results

section parts
variable {env : Env} {a : Addition} {d : Daemon} (enabled : env.disablePortForwarding = false)
  {added : Int × Netfilter}
  (redirected : addRedirectRule2 env.enablePortTriggering a.rhost a.eport a.iaddr a.iport a.proto
    (some a.desc) a.timestamp d.nf = added)
include enabled redirected

theorem add_refused (negative : added.1 = -1) :
    (add env a d).1 = -1 ∧ (add env a d).2.nf = added.2 := by
  unfold add upnpRedirectInternal
  simp only [enabled, Bool.false_eq_true, ↓reduceIte, redirected, negative, Int.reduceNeg,
    Int.reduceLT]
  exact ⟨trivial, rfl⟩

theorem add_filtered (zero : added.1 = 0) :
    callsSucceed 4 added.2.iptcResults = true ∧ (add env a d).1 = 0 ∨
      callsSucceed 4 added.2.iptcResults = false ∧ (add env a d).1 = -1 ∧
        Unchanged added.2 (add env a d).2.nf := by
  unfold add upnpRedirectInternal
  simp only [enabled, Bool.false_eq_true, ↓reduceIte, redirected, zero, Int.lt_irrefl, fileAdd_nf,
    record_nf, withNf_nf]
  rcases filter_outcome (a := a) added.2 with ⟨done, result⟩ | ⟨failed, result, same⟩
  · refine .inl ⟨done, ?_⟩
    rw [result]
    rfl
  · refine .inr ⟨failed, ?_⟩
    rw [result]
    exact ⟨rfl, same⟩

end parts

theorem gains_unchanged {nat forward postrouting : List IptEntry} {descs : List RdrDesc}
    {nf nf' nf'' : Netfilter} (gains : Gains nat forward postrouting descs nf nf')
    (same : Unchanged nf' nf'') : Gains nat forward postrouting descs nf nf'' :=
  ⟨same.nat.trans gains.nat, same.forward.trans gains.forward,
    same.postrouting.trans gains.postrouting, same.descs.trans gains.descs⟩

/-- An addition either completes, or leaves behind what it has begun. -/
theorem add_outcome (env : Env) (a : Addition) (d : Daemon) :
    Completes env d.nf ∧ (add env a d).1 = 0 ∨
      ¬ Completes env d.nf ∧ (add env a d).1 = -1 ∧
        Gains (halfNat env a d.nf) [] (halfPostrouting env a d.nf) (halfDescs env a d.nf) d.nf
          (add env a d).2.nf := by
  have eight := callsSucceed_add 4 4 d.nf.iptcResults
  have twelve := callsSucceed_add 8 4 d.nf.iptcResults
  cases enabled : env.disablePortForwarding with
  | true =>
    have same : (add env a d).1 = -1 ∧ (add env a d).2.nf = d.nf := by
      unfold add upnpRedirectInternal
      simp only [enabled, ↓reduceIte]
      exact ⟨trivial, rfl⟩
    refine .inr ⟨by simp [Completes, enabled], same.1, ?_⟩
    rw [same.2]
    constructor <;> simp [halfNat, halfPostrouting, halfDescs, Begins, enabled]
  | false =>
    generalize redirected : addRedirectRule2 env.enablePortTriggering a.rhost a.eport a.iaddr
      a.iport a.proto (some a.desc) a.timestamp d.nf = added
    have outcome := redirect_outcome (a := a) env.enablePortTriggering d.nf
    rw [redirected] at outcome
    rcases outcome with ⟨refused, negative, gains⟩ | ⟨begun, ⟨trigger, zero, gains, rest⟩ |
      ⟨trigger, eighth, negative, gains⟩ | ⟨trigger, eighth, zero, gains, rest⟩⟩
    · obtain ⟨result, nf⟩ := add_refused enabled redirected negative
      have none_ : ¬ Begins env d.nf := by simp [Begins, refused]
      refine .inr ⟨?_, result, ?_⟩
      · cases trigger : env.enablePortTriggering <;> simp [Completes, trigger, twelve, eight, refused]
      · rw [nf, halfNat, halfPostrouting, halfDescs, if_neg none_, if_neg none_,
          if_neg (fun both => none_ both.1)]
        exact gains
    · have here : Begins env d.nf := ⟨enabled, begun⟩
      have complete : Completes env d.nf ↔ callsSucceed 4 added.2.iptcResults = true := by
        simp [Completes, enabled, trigger, eight, begun, rest]
      have half : ¬ (Begins env d.nf ∧ env.enablePortTriggering = true ∧
          callsSucceed 8 d.nf.iptcResults = true) := by simp [trigger]
      rw [complete, halfNat, halfPostrouting, halfDescs, if_pos here, if_pos here, if_neg half]
      rcases add_filtered enabled redirected zero with done | ⟨failed, result, same⟩
      · exact .inl done
      · exact .inr ⟨by simp [failed], result, gains_unchanged gains same⟩
    · obtain ⟨result, nf⟩ := add_refused enabled redirected negative
      have here : Begins env d.nf := ⟨enabled, begun⟩
      have half : ¬ (Begins env d.nf ∧ env.enablePortTriggering = true ∧
          callsSucceed 8 d.nf.iptcResults = true) := by simp [eighth]
      refine .inr ⟨by simp [Completes, trigger, twelve, eighth], result, ?_⟩
      rw [nf, halfNat, halfPostrouting, halfDescs, if_pos here, if_pos here, if_neg half]
      exact gains
    · have here : Begins env d.nf := ⟨enabled, begun⟩
      have complete : Completes env d.nf ↔ callsSucceed 4 added.2.iptcResults = true := by
        simp [Completes, enabled, trigger, twelve, eighth, rest]
      have half : Begins env d.nf ∧ env.enablePortTriggering = true ∧
          callsSucceed 8 d.nf.iptcResults = true := ⟨here, trigger, eighth⟩
      rw [complete, halfNat, halfPostrouting, halfDescs, if_pos here, if_pos here, if_pos half]
      rcases add_filtered enabled redirected zero with done | ⟨failed, result, same⟩
      · exact .inl done
      · exact .inr ⟨by simp [failed], result, gains_unchanged gains same⟩

/-- What is left of an addition that fails is what was there before, exactly if it breaks even. -/
theorem add_unchanged_iff {env : Env} {a : Addition} {before : Netfilter} {d : Daemon}
    (incomplete : ¬ Completes env d.nf) :
    Unchanged before (add env a d).2.nf ↔ BreaksEven env a before d.nf := by
  rcases add_outcome env a d with ⟨completes, _⟩ | ⟨_, _, gains⟩
  · exact absurd completes incomplete
  · constructor
    · intro same
      exact ⟨gains.nat.symm.trans same.nat, by simpa using gains.forward.symm.trans same.forward,
        gains.postrouting.symm.trans same.postrouting, gains.descs.symm.trans same.descs⟩
    · intro even
      exact ⟨gains.nat.trans even.nat, by simpa using gains.forward.trans (by simpa using even.forward),
        gains.postrouting.trans even.postrouting, gains.descs.trans even.descs⟩

end addition

section removal
variable (eport : UInt16) (proto : Int)

def removed (nf : Netfilter) : Netfilter := (deleteRedirectAndFilterRules eport proto nf).2

theorem upnpDeleteRedir_nf (env : Env) (d : Daemon) :
    (upnpDeleteRedir env eport proto d).2.nf = removed eport proto d.nf := by
  simp only [upnpDeleteRedir, record_nf, fileRemove_nf, withNf_nf]
  rfl

/-- A removal that cannot open the nat table changes nothing. -/
theorem removed_refused {nf : Netfilter} (refused : callsSucceed 1 nf.iptcResults = false) :
    Unchanged nf (removed eport proto nf) := by
  obtain ⟨results, call⟩ := iptcCall_failed refused
  simp only [removed, deleteRedirectAndFilterRules, call, Bool.false_eq_true, ↓reduceIte]
  exact unchanged_withResults nf results

/-- Nothing but forwarding rules are taken out, and none if this fails. -/
structure FilterTaken (nf : Netfilter) (result : Int) (nf' : Netfilter) : Prop where
  nat : nf'.chain .nat = nf.chain .nat
  postrouting : nf'.chain .postrouting = nf.chain .postrouting
  descs : nf'.rdrDescList = nf.rdrDescList
  forward : result ≠ 0 → nf'.chain .forward = nf.chain .forward

theorem deleteFilterOf_taken (e : IptEntry) (nf : Netfilter) :
    FilterTaken nf (deleteFilterOf e proto nf).1 (deleteFilterOf e proto nf).2 := by
  obtain ⟨opened, results, call, _⟩ := iptcCall_cases nf
  cases opened with
  | false =>
    simp only [deleteFilterOf, call, Bool.false_eq_true, ↓reduceIte]
    exact ⟨rfl, rfl, rfl, fun _ => rfl⟩
  | true =>
    simp only [deleteFilterOf, call, ↓reduceIte, chain_withResults]
    cases findFirst (filterMatches proto e.target.minAll e.target.minIp)
        (nf.chain .forward) with
    | none => exact ⟨rfl, rfl, rfl, fun _ => rfl⟩
    | some hit =>
      obtain ⟨rest, done | failed⟩ := delete_cases hit.1 .forward (nf.withResults results)
      · simp only [done]
        constructor <;> simp
      · simp only [failed]
        exact ⟨rfl, rfl, rfl, fun _ => rfl⟩

/-- What a removal may take out: the redirection, its description and the rule for port
    triggering; a forwarding rule only if it reports success. -/
structure Taken (nf : Netfilter) (result : Int) (nf' : Netfilter) : Prop where
  nat : nf'.chain .nat = nf.chain .nat ∨
    nf'.chain .nat = (nf.chain .nat).eraseP (redirectMatches proto eport)
  postrouting : nf'.chain .postrouting = nf.chain .postrouting ∨
    nf'.chain .postrouting = (nf.chain .postrouting).eraseP (peerMatches proto eport)
  descs : nf'.rdrDescList = nf.rdrDescList ∨
    nf'.rdrDescList = nf.rdrDescList.eraseP (descMatches eport proto)
  forward : result ≠ 0 → nf'.chain .forward = nf.chain .forward

theorem deleteNatAndFilter_taken {index : Nat} {e : IptEntry} {nf : Netfilter}
    (found : findFirst (redirectMatches proto eport) (nf.chain .nat) = some (index, e)) :
    let deleted := deleteNatAndFilter index e proto nf
    (deleted.2.chain .nat = nf.chain .nat ∨
        deleted.2.chain .nat = (nf.chain .nat).eraseP (redirectMatches proto eport)) ∧
      deleted.2.chain .postrouting = nf.chain .postrouting ∧
      deleted.2.rdrDescList = nf.rdrDescList ∧
      (deleted.1 ≠ 0 → deleted.2.chain .forward = nf.chain .forward) := by
  obtain ⟨opened, results, call, _⟩ := iptcCall_cases nf
  cases opened with
  | false =>
    have filter := deleteFilterOf_taken proto e (nf.withResults results)
    simp only [deleteNatAndFilter, call, Bool.false_eq_true, ↓reduceIte]
    exact ⟨.inl filter.nat, filter.postrouting, filter.descs, filter.forward⟩
  | true =>
    simp only [deleteNatAndFilter, call, ↓reduceIte]
    obtain ⟨rest, done | failed⟩ := delete_cases index .nat (nf.withResults results)
    · rw [done]
      simp only [↓reduceIte]
      generalize mid_ : ((nf.withResults results).withResults rest).setChain .nat
        (((nf.withResults results).chain .nat).eraseIdx index) = mid
      have filter := deleteFilterOf_taken proto e mid
      subst mid_
      refine ⟨.inr ?_, ?_, ?_, ?_⟩
      · rw [filter.nat]
        simp [eraseIdx_of_findFirst found]
      · rw [filter.postrouting]
        simp
      · rw [filter.descs]
        simp
      · intro nonzero
        rw [filter.forward nonzero]
        simp
    · rw [failed]
      exact ⟨.inl rfl, rfl, rfl, fun _ => rfl⟩

theorem deleteDscp_postrouting (iport : UInt16) (iaddr : InAddr) (nf : Netfilter) :
    (deleteDscp proto iport iaddr nf).2.chain .postrouting = nf.chain .postrouting := by
  obtain ⟨opened, results, call, _⟩ := iptcCall_cases nf
  cases opened with
  | false => simp [deleteDscp, call]
  | true =>
    simp only [deleteDscp, call, ↓reduceIte, chain_withResults]
    cases findFirst (sourceMatches proto iport iaddr) (nf.chain .mangle) with
    | none => rfl
    | some hit =>
      obtain ⟨rest, done | failed⟩ := delete_cases hit.1 .mangle (nf.withResults results)
      · simp [done]
      · simp [failed]

theorem deletePeer_taken (nf : Netfilter) :
    let deleted := deletePeer eport proto nf
    deleted.2.chain .nat = nf.chain .nat ∧ deleted.2.chain .forward = nf.chain .forward ∧
      deleted.2.rdrDescList = nf.rdrDescList ∧
      (deleted.2.chain .postrouting = nf.chain .postrouting ∨
        deleted.2.chain .postrouting =
          (nf.chain .postrouting).eraseP (peerMatches proto eport)) := by
  have same := deletePeer_tables eport proto nf
  refine ⟨congrArg Tables.nat same, congrArg Tables.forward same, congrArg Tables.descs same, ?_⟩
  obtain ⟨opened, results, call, _⟩ := iptcCall_cases nf
  cases opened with
  | false =>
    simp only [deletePeer, call, Bool.false_eq_true, ↓reduceIte]
    exact .inl rfl
  | true =>
    simp only [deletePeer, call, ↓reduceIte, chain_withResults]
    cases search : findFirst (peerMatches proto eport) (nf.chain .postrouting) with
    | none => exact .inl rfl
    | some hit =>
      obtain ⟨rest, done | failed⟩ := delete_cases hit.1 .postrouting (nf.withResults results)
      · simp only [done, ↓reduceIte]
        right
        rw [deleteDscp_postrouting]
        simp [eraseIdx_of_findFirst search]
      · simp only [failed]
        exact .inl rfl

theorem removed_taken (nf : Netfilter) :
    Taken eport proto nf (deleteRedirectAndFilterRules eport proto nf).1 (removed eport proto nf) := by
  obtain ⟨opened, results, call, _⟩ := iptcCall_cases nf
  cases opened with
  | false =>
    simp only [removed, deleteRedirectAndFilterRules, call, Bool.false_eq_true, ↓reduceIte]
    exact ⟨.inl rfl, .inl rfl, .inl rfl, fun _ => rfl⟩
  | true =>
    obtain ⟨isChain, rest, check, _⟩ := iptcCall_cases (nf.withResults results)
    simp only [removed, deleteRedirectAndFilterRules, call, ↓reduceIte, check]
    have peers : ∀ mid : Netfilter, _ := fun mid => deletePeer_taken eport proto mid
    cases found : (if isChain then findFirst (redirectMatches proto eport)
        (((nf.withResults results).withResults rest).chain .nat) else none) with
    | none =>
      dsimp only
      obtain ⟨nat, forward, descs, postrouting⟩ := peers ((nf.withResults results).withResults rest)
      refine ⟨.inl nat, postrouting, .inr ?_, fun _ => forward⟩
      simp only [delRedirectDesc, descs_setDescs]
      rw [descs]
      rfl
    | some hit =>
      obtain ⟨index, e⟩ := hit
      have search : findFirst (redirectMatches proto eport)
          (((nf.withResults results).withResults rest).chain .nat) = some (index, e) := by
        cases isChain with
        | false => simp at found
        | true => simpa using found
      obtain ⟨nat, posts, descs, filter⟩ := deleteNatAndFilter_taken eport proto search
      dsimp only
      generalize deleteNatAndFilter index e proto ((nf.withResults results).withResults rest) =
        deleted at nat posts descs filter
      obtain ⟨natP, forwardP, descsP, postroutingP⟩ := peers deleted.2
      constructor
      · simp only [delRedirectDesc, chain_setDescs]
        rw [natP]
        exact nat
      · simp only [delRedirectDesc, chain_setDescs]
        rw [posts] at postroutingP
        exact postroutingP
      · right
        simp only [delRedirectDesc, descs_setDescs]
        rw [descsP, descs]
        rfl
      · intro nonzero
        simp only [delRedirectDesc, chain_setDescs]
        rw [forwardP]
        refine filter ?_
        intro zero
        rw [zero, Int.zero_mul] at nonzero
        exact nonzero rfl

end removal

section update
variable (trigger : Bool) (eport : UInt16) (proto : Int) (iport : UInt16) (desc : Option CString)
  (timestamp : Nat)

/-- All the calls that an update needs succeed, and it finds a redirection and a forwarding rule. -/
def GoesThrough (nf : Netfilter) : Prop :=
  callsSucceed 10 nf.iptcResults = true ∧
    ∃ e ∈ (nf.chain .nat).find? (redirectMatches proto eport),
      ((nf.chain .forward).find? (filterMatches proto e.target.minAll e.target.minIp)).isSome

/-- The redirection has got its new port before any call fails. -/
def GetsUnderWay (nf : Netfilter) : Prop := callsSucceed 5 nf.iptcResults = true

theorem updateFilter_result (oldIport : UInt16) (iaddr : InAddr) (nf : Netfilter) :
    let updated := updateFilter proto oldIport iaddr iport nf
    let through := callsSucceed 5 nf.iptcResults = true ∧
      ((nf.chain .forward).find? (filterMatches proto oldIport iaddr)).isSome
    updated.1 = 0 ∧ through ∨ updated.1 = -1 ∧ ¬ through := by
  intro updated through
  have five := callsSucceed_add 2 3 nf.iptcResults
  cases two : callsSucceed 2 nf.iptcResults with
  | false =>
    obtain ⟨results, calls⟩ := iptcCalls_failed two
    refine .inr ⟨?_, ?_⟩
    · simp [updated, updateFilter, calls]
    · simp [through, five, two]
  | true =>
    have calls := iptcCalls_done two
    cases search : findFirst (filterMatches proto oldIport iaddr) (nf.chain .forward) with
    | none =>
      refine .inr ⟨?_, ?_⟩
      · simp [updated, updateFilter, calls, search]
      · simp [through, find?_of_findFirst_none search]
    | some hit =>
      have found := find?_of_findFirst search
      rw [two, Bool.true_and] at five
      cases three : callsSucceed 3 (nf.iptcResults.drop 2) with
      | false =>
        obtain ⟨results, failed⟩ := @update_failed .forward hit.1 (withDpts iport hit.2)
          (nf.withResults (nf.iptcResults.drop 2)) three
        refine .inr ⟨?_, ?_⟩
        · simp [updated, updateFilter, calls, search, failed]
        · simp [through, five, three]
      | true =>
        have done := @update_done .forward hit.1 (withDpts iport hit.2)
          (nf.withResults (nf.iptcResults.drop 2)) three
        refine .inl ⟨?_, ?_⟩
        · simp [updated, updateFilter, calls, search, done]
        · simp [through, five, three, found]

theorem findFirst_of_find? {p : IptEntry → Bool} {l : List IptEntry} {e : IptEntry}
    (found : l.find? p = some e) : ∃ index, findFirst p l = some (index, e) := by
  cases search : findFirst p l with
  | none =>
    rw [find?_of_findFirst_none search] at found
    simp at found
  | some hit =>
    rw [find?_of_findFirst search, Option.some.injEq] at found
    exact ⟨hit.1, by rw [← found]⟩

theorem update_outcome {e : IptEntry} {nf : Netfilter}
    (found : (nf.chain .nat).find? (redirectMatches proto eport) = some e) :
    let updated := updatePortmapping trigger eport proto iport desc timestamp nf
    (updated.1 = 0 ↔ GoesThrough eport proto nf) ∧
      (¬ GetsUnderWay nf → Unchanged nf updated.2) ∧
      (GetsUnderWay nf → updated.2.chain .nat =
        updateFirst (redirectMatches proto eport) (withIport iport) (nf.chain .nat)) := by
  have five := callsSucceed_add 2 3 nf.iptcResults
  have ten := callsSucceed_add 5 5 nf.iptcResults
  cases two : callsSucceed 2 nf.iptcResults with
  | false =>
    obtain ⟨results, calls⟩ := iptcCalls_failed two
    rw [two, Bool.false_and] at five
    simp only [updatePortmapping, calls, Bool.false_eq_true, ↓reduceIte]
    refine ⟨?_, fun _ => unchanged_withResults nf results, ?_⟩
    · simp [GoesThrough, ten, five]
    · intro under
      rw [GetsUnderWay, five] at under
      exact absurd under (by decide)
  | true =>
    have calls := iptcCalls_done two
    obtain ⟨index, search⟩ := findFirst_of_find? found
    rw [two, Bool.true_and] at five
    simp only [updatePortmapping, calls, ↓reduceIte, chain_withResults, search]
    cases three : callsSucceed 3 (nf.iptcResults.drop 2) with
    | false =>
      obtain ⟨results, failed⟩ := @update_failed .nat index (withIport iport e)
        (nf.withResults (nf.iptcResults.drop 2)) three
      simp only [failed, Int.reduceNeg, Int.reduceLT, ↓reduceIte]
      refine ⟨?_, fun _ => unchanged_withResults nf results, ?_⟩
      · simp [GoesThrough, ten, five, three]
      · intro under
        rw [GetsUnderWay, five, three] at under
        exact absurd under (by decide)
    | true =>
      have done := @update_done .nat index (withIport iport e)
        (nf.withResults (nf.iptcResults.drop 2)) three
      rw [chain_withResults, set_of_findFirst search] at done
      generalize here : Netfilter.setChain _ .nat
        (updateFirst (redirectMatches proto eport) (withIport iport) (nf.chain .nat)) = mid at done
      have nat : mid.chain .nat =
          updateFirst (redirectMatches proto eport) (withIport iport) (nf.chain .nat) := by
        rw [← here]
        simp
      have forward : mid.chain .forward = nf.chain .forward := by
        rw [← here]
        simp
      have results : mid.iptcResults = nf.iptcResults.drop 5 := by
        rw [← here]
        simp
      have under : GetsUnderWay nf := by rw [GetsUnderWay, five, three]
      have natFilter := (updateFilter_frame proto iport e.target.minAll e.target.minIp mid).1
      rw [tables_nat, nat] at natFilter
      have through : GoesThrough eport proto nf ↔ callsSucceed 5 mid.iptcResults = true ∧
          ((mid.chain .forward).find?
            (filterMatches proto e.target.minAll e.target.minIp)).isSome := by
        unfold GoesThrough
        rw [found, ten, five, three, results, forward]
        simp
      rw [through]
      simp only [done, Int.lt_irrefl, ↓reduceIte]
      rcases updateFilter_result proto iport e.target.minAll e.target.minIp mid with
        ⟨zero, both⟩ | ⟨negative, missing⟩
      · simp only [zero, Int.lt_irrefl, ↓reduceIte]
        refine ⟨iff_of_true rfl both, fun early => absurd under early, fun _ => ?_⟩
        cases trigger with
        | false => exact natFilter
        | true =>
          have peers := updateSnat_tables eport proto iport e.target.minAll e.target.minIp
            (updateFilter proto e.target.minAll e.target.minIp iport mid).2
          exact (congrArg Tables.nat peers).trans natFilter
      · simp only [negative, Int.reduceNeg, Int.reduceLT, ↓reduceIte]
        exact ⟨iff_of_false (by decide) missing, fun early => absurd under early, fun _ => natFilter⟩

end update

section attempts
variable {trigger : Bool} {eport : UInt16} {proto : Int} {iport : UInt16} {desc : Option CString}
  {timestamp : Nat}

theorem renumbered_differs {l : List IptEntry} {e : IptEntry}
    (found : l.find? (redirectMatches proto eport) = some e) (other : iport ≠ e.target.minAll) :
    updateFirst (redirectMatches proto eport) (withIport iport) l ≠ l := by
  intro same
  have kept : ∀ a, redirectMatches proto eport (withIport iport a) = redirectMatches proto eport a :=
    fun _ => rfl
  have again := find?_updateFirst (l := l) (withIport iport) kept
  rw [same, found, Option.map_some, Option.some.injEq] at again
  have port := congrArg (fun e : IptEntry => e.target.minAll) again
  exact other port.symm

/-- An update that is made twice changes nothing when it fails, exactly if it does not fail or no
    attempt has got under way. -/
theorem twice_iff {e : IptEntry} {nf : Netfilter}
    (found : (nf.chain .nat).find? (redirectMatches proto eport) = some e)
    (other : iport ≠ e.target.minAll) :
    let first := (updatePortmapping trigger eport proto iport desc timestamp nf).2
    let second := updatePortmapping trigger eport proto iport desc timestamp first
    (second.1 ≠ 0 → Unchanged nf second.2) ↔
      GoesThrough eport proto first ∨ ¬ GetsUnderWay nf ∧ ¬ GetsUnderWay first := by
  intro first second
  obtain ⟨_, early, under⟩ := update_outcome trigger eport proto iport desc timestamp found
  have kept : ∀ a, redirectMatches proto eport (withIport iport a) = redirectMatches proto eport a :=
    fun _ => rfl
  have again := find?_updateFirst (l := nf.chain .nat) (withIport iport) kept
  have differs := renumbered_differs found other
  by_cases way : GetsUnderWay nf
  · have nat : first.chain .nat = _ := under way
    rw [← nat, found, Option.map_some] at again
    obtain ⟨through, early', under'⟩ := update_outcome trigger eport proto iport desc timestamp again
    have changed : ¬ Unchanged nf second.2 := by
      intro same
      by_cases way' : GetsUnderWay first
      · have nat' : second.2.chain .nat = _ := under' way'
        have twice := find?_updateFirst (l := first.chain .nat) (withIport iport) kept
        rw [← nat', same.nat, again, found, Option.map_some, Option.some.injEq] at twice
        have port := congrArg (fun e : IptEntry => e.target.minAll) twice
        exact other port.symm
      · have back := (early' way').nat.symm.trans same.nat
        rw [nat] at back
        exact differs back
    constructor
    · intro right
      left
      rw [← through]
      by_contra failed
      exact changed (right failed)
    · rintro (done | ⟨idle, _⟩)
      · intro failed
        exact absurd (through.mpr done) failed
      · exact absurd way idle
  · have same : Unchanged nf first := early way
    have found' : (first.chain .nat).find? (redirectMatches proto eport) = some e := by
      rw [same.nat, found]
    obtain ⟨through, early', under'⟩ := update_outcome trigger eport proto iport desc timestamp found'
    constructor
    · intro right
      by_cases done : second.1 = 0
      · exact .inl (through.mp done)
      · refine .inr ⟨way, ?_⟩
        intro way'
        have nat' : second.2.chain .nat = _ := under' way'
        rw [(right done).nat, same.nat] at nat'
        exact differs nat'.symm
    · rintro (done | ⟨_, idle⟩) failed
      · exact absurd (through.mpr done) failed
      · exact unchanged_trans same (early' idle)

end attempts

section redirect
open Inet LeaseFile UpnpPermissions
variable (env : Env) (rhost : Option CString) (eport : UInt16) (iaddr : CString) (iport : UInt16)
  (protocol : CString) (desc : Option CString) (leaseduration : Nat) (d : Daemon)

/-- The second attempt of an update goes through, or neither attempt gets under way. -/
def UpdateKeeps (proto : Int) (text : CString) (nf : Netfilter) : Prop :=
  let first := (updatePortmapping env.enablePortTriggering eport proto iport (some text)
    (expiryTime env leaseduration) nf).2
  GoesThrough eport proto first ∨ ¬ GetsUnderWay nf ∧ ¬ GetsUnderWay first

/-- When a request that fails leaves everything as it was: it is refused before any rule is
    touched, its update does not half succeed, or its addition completes or does not begin. -/
def FailureKeeps : Prop :=
  match inetAton iaddr with
  | none => True
  | some address =>
    if checkUpnpRuleAgainstPermissions env.upnppermlist eport address iport then
      let (rule, nf) := getRedirectRule eport (protoAtoi protocol) d.nf
      match rule with
      | some old =>
          if iaddr = old.iaddr ∧ sameRhost rhost old.rhost ∧ iport ≠ old.iport then
            UpdateKeeps env eport iport leaseduration (protoAtoi protocol) (desc.getD []) nf
          else True
      | none =>
          if env.checkPortinuse ∧ env.portInUse eport (protoAtoi protocol) iaddr iport then True
          else Completes env nf ∨ ¬ Begins env nf
    else True

/-- Adding fails cleanly exactly if it does not fail or puts nothing in. -/
theorem add_keeps_iff {env : Env} {a : Addition} {nf : Netfilter} {d : Daemon}
    (same : Unchanged nf d.nf) :
    ((add env a d).1 ≠ 0 → Unchanged nf (add env a d).2.nf) ↔
      Completes env d.nf ∨ ¬ Begins env d.nf := by
  rw [unchanged_iff same]
  rcases add_outcome env a d with ⟨completes, zero⟩ | ⟨incomplete, negative, _⟩
  · simp [zero, completes]
  · rw [add_unchanged_iff incomplete, breaksEven_self]
    simp [negative, incomplete]

/-- The update of a redirection that was looked up. -/
theorem renew_keeps_iff {env : Env} {rhost : Option CString} {eport : UInt16} {iaddr : CString}
    {iport : UInt16} {proto : Int} {text : CString} {leaseduration : Nat} {nf : Netfilter}
    {d : Daemon} {e : IptEntry} (same : Unchanged nf d.nf)
    (found : (d.nf.chain .nat).find? (redirectMatches proto eport) = some e) :
    let old := readRule nf e
    let renewed := renew env rhost eport iaddr iport proto text leaseduration old d
    (renewed.1 ≠ 0 → Unchanged nf renewed.2.nf) ↔
      if iaddr = old.iaddr ∧ sameRhost rhost old.rhost ∧ iport ≠ old.iport then
        UpdateKeeps env eport iport leaseduration proto text d.nf
      else True := by
  intro old renewed
  by_cases own : iaddr = old.iaddr ∧ sameRhost rhost old.rhost
  · by_cases other : iport ≠ old.iport
    · have twice := @twice_iff env.enablePortTriggering eport proto iport (some text)
        (expiryTime env leaseduration) e d.nf found other
      rw [if_pos ⟨own.1, own.2, other⟩]
      refine Iff.trans ?_ twice
      rw [unchanged_iff same]
      simp only [renewed, renew, if_pos own, updateExisting, if_pos other]
      generalize updatePortmapping env.enablePortTriggering eport proto iport (some text)
        (expiryTime env leaseduration) (updatePortmapping env.enablePortTriggering eport proto iport
          (some text) (expiryTime env leaseduration) d.nf).2 = second
      by_cases done : second.1 = 0
      · simp [done]
      · simp [done]
    · rw [if_neg (fun all => other all.2.2)]
      -- only the description is replaced, which cannot fail
      simp [renewed, renew, own, updateExisting, other, updatePortmappingDescTimestamp]
  · rw [if_neg (fun all => own ⟨all.1, all.2.1⟩)]
    simp only [renewed, renew, if_neg own]
    exact iff_of_true (fun _ => same) trivial

/-- Over every series of libiptc results: a request that fails leaves the chains and the
    descriptions as they were exactly under that condition. -/
theorem failure_keeps_iff :
    ((upnpRedirect env rhost eport iaddr iport protocol desc leaseduration d).1 ≠ 0 →
        Unchanged d.nf
          (upnpRedirect env rhost eport iaddr iport protocol desc leaseduration d).2.nf) ↔
      FailureKeeps env rhost eport iaddr iport protocol desc leaseduration d := by
  have kept := getRedirectRule_unchanged eport (protoAtoi protocol) d.nf
  simp only [upnpRedirect, FailureKeeps, Daemon.lookup, record_nf]
  cases inetAton iaddr with
  | none => exact iff_of_true (fun _ => unchanged_refl _) trivial
  | some address =>
    dsimp only
    split
    · cases lookup : (getRedirectRule eport (protoAtoi protocol) d.nf).1 with
      | some old =>
        obtain ⟨e, found, rfl⟩ := getRedirectRule_some lookup
        rw [← kept.nat] at found
        exact renew_keeps_iff kept found
      | none =>
        dsimp only
        split
        · exact iff_of_true (fun _ => kept) trivial
        · exact add_keeps_iff (a := ⟨rhost, eport, iaddr, iport, protoAtoi protocol, desc.getD [],
            expiryTime env leaseduration⟩) kept
    · exact iff_of_true (fun _ => unchanged_refl _) trivial

end redirect

end FailedCalls
