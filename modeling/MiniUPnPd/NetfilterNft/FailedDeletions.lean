import MiniUPnPd.Lib.Runs
import MiniUPnPd.NetfilterNft.FailedExchanges
import MiniUPnPd.UpnpSoap

/-!
What the result of a removal says in the nftables backend. It is 0 whatever happens, so that a
deletion is answered with success, and the removal loop of NAT-PMP goes on at the same index.
-/
namespace FailedDeletions
open CText FailedExchanges FirstMatch Inet LeaseFile NftnlrdrMisc NftnlrdrMiscSpec Nftnlrdr Runs
  UpnpSoap

section results
variable (outcomes : Outcomes) (eport : UInt16) (proto : Int) (s : State)

/-- The result is negative exactly if no rule went, and then no filter rule went. -/
def ResultRight : Prop :=
  let deleted := deleteRedirectAndFilterRules outcomes eport proto s
  (deleted.1 < 0 ↔ ¬ Removed eport proto s deleted.2) ∧
    (¬ Removed eport proto s deleted.2 → deleted.2.nft.forward.rules = s.nft.forward.rules)

theorem result_zero : (deleteRedirectAndFilterRules outcomes eport proto s).1 = 0 := rfl

theorem resultRight_iff : ResultRight outcomes eport proto s ↔ Meets outcomes eport proto s := by
  unfold ResultRight
  dsimp only
  rw [← removed_iff, result_zero]
  constructor
  · intro right
    by_contra stays
    have negative := right.1.mpr stays
    omega
  · intro gone
    have positive : ¬ (0 : Int) < 0 := by omega
    exact ⟨iff_of_false positive (not_not.mpr gone), fun stays => absurd gone stays⟩

end results

section answers
variable (env : SoapEnv) (lookup : Outcome) (buffer : CString) (outcomes : Outcomes)
  (h : Upnphttp) (s : State)

/-- The client of the mapping, or what `buffer` held before when the rule has none. -/
def upnpGetRedirectionInfos (eport : UInt16) (protocol : CString) : Option CString × State :=
  let (redirects, s) := refreshNftCacheRedirect lookup s
  ((redirects.find? (redirectMatches eport (protoAtoi protocol))).map fun p =>
    if p.iaddr ≠ 0 then inetNtoa p.iaddr else buffer, s)

def deletionRefused (eport : UInt16) (protocol : CString) : Bool × State :=
  if env.secureMode then
    let (infos, s) := upnpGetRedirectionInfos lookup buffer s eport protocol
    match infos.bind inetPton with
    | none => (false, s)
    | some address => (decide (h.clientaddr ≠ address), s)
  else (false, s)

def deletePortMapping : SoapReply × State :=
  match deleteArguments env h with
  | .error reply => (reply, s)
  | .ok (eport, protocol) =>
    let (refused, s) := deletionRefused env lookup buffer h s eport protocol
    if refused then (.soapError 606 "Action not authorized", s)
    else
      let (r, s) := deleteRedirectAndFilterRules outcomes eport (protoAtoi protocol) s
      (if r < 0 then .soapError 714 "NoSuchEntryInArray" else .done, s)

/-- A request that is answered with success has removed a mapping that was there. -/
def AnswerRight : Prop :=
  let answered := deletePortMapping env lookup buffer outcomes h s
  answered.1 = .done → ∃ eport protocol, deleteArguments env h = .ok (eport, protocol) ∧
    Removed eport (protoAtoi protocol) s answered.2

/-- The removal that a request comes to, if its arguments are good and it is allowed. -/
def AnswerMeets : Prop :=
  ∀ eport protocol, deleteArguments env h = .ok (eport, protocol) →
    (deletionRefused env lookup buffer h s eport protocol).1 = false →
      Meets outcomes eport (protoAtoi protocol)
        (deletionRefused env lookup buffer h s eport protocol).2

theorem deletionRefused_nft (eport : UInt16) (protocol : CString) :
    (deletionRefused env lookup buffer h s eport protocol).2.nft = s.nft := by
  unfold deletionRefused upnpGetRedirectionInfos
  split
  · dsimp only
    split <;> rfl
  · rfl

theorem answerRight_iff : AnswerRight env lookup buffer outcomes h s ↔
    AnswerMeets env lookup buffer outcomes h s := by
  unfold AnswerRight AnswerMeets
  cases arguments : deleteArguments env h with
  | error reply =>
    have answer : (deletePortMapping env lookup buffer outcomes h s).1 = reply := by
      simp only [deletePortMapping, arguments]
    simp [answer, deleteArguments_error arguments]
  | ok given =>
    obtain ⟨eport, protocol⟩ := given
    have kept := deletionRefused_nft env lookup buffer h s eport protocol
    cases refusal : deletionRefused env lookup buffer h s eport protocol with
    | mk refused mid =>
      rw [refusal] at kept
      have answered : deletePortMapping env lookup buffer outcomes h s =
          if refused then (.soapError 606 "Action not authorized", mid)
          else (.done,
            (deleteRedirectAndFilterRules outcomes eport (protoAtoi protocol) mid).2) := by
        simp only [deletePortMapping, arguments, refusal, result_zero, lt_irrefl, ↓reduceIte]
      have same : Removed eport (protoAtoi protocol) s
          (deleteRedirectAndFilterRules outcomes eport (protoAtoi protocol) mid).2 ↔
            Meets outcomes eport (protoAtoi protocol) mid := by
        rw [← removed_iff, Removed, Removed, kept]
      dsimp only
      rw [answered]
      constructor
      · intro right eport' protocol' given allowed
        obtain ⟨rfl, rfl⟩ := Prod.mk.inj (Except.ok.inj given)
        rw [refusal] at allowed ⊢
        dsimp only at allowed
        rw [allowed] at right
        obtain ⟨eport', protocol', same', gone⟩ := right rfl
        obtain ⟨rfl, rfl⟩ := Prod.mk.inj (Except.ok.inj same')
        exact same.mp gone
      · intro meets done
        cases refused with
        | true => cases done
        | false =>
          have removal := meets eport protocol rfl (by rw [refusal])
          rw [refusal] at removal
          exact ⟨eport, protocol, rfl, same.mpr removal⟩

end answers

section natpmp
variable (senderaddr : CString) (iport : UInt16) (proto : Int)

/-- The loop of a NAT-PMP removal request, with the buffer for descriptions. -/
structure Loop where
  index : Nat
  desc : CString
  state : State

/-- A rule without a description leaves the buffer as it was. -/
def Loop.described (l : Loop) (p : RuleT) : CString :=
  if p.desc = [] then l.desc else p.desc.take 64

def asksToRemove (desc : CString) (p : RuleT) : Bool :=
  inetNtoa p.iaddr = senderaddr ∧ "NAT-PMP".toList <+: desc ∧
    (iport = 0 ∨ (iport = p.iport ∧ proto = p.proto.toNat))

/-- A round of the loop, none when it is left. The index stays the same behind a removal. -/
def removeRound (lookup : Outcome) (outcomes : Outcomes) (l : Loop) : Option Loop :=
  let (redirects, s) := refreshNftCacheRedirect lookup l.state
  match redirects[l.index]? with
  | none => none
  | some p =>
    let desc := l.described p
    if asksToRemove senderaddr iport proto desc p then
      let (r, s) := deleteRedirectAndFilterRules outcomes p.eport p.proto.toNat s
      if r < 0 then none else some { index := l.index, desc, state := s }
    else some { index := l.index + 1, desc, state := s }

/-- The round finds a rule to remove, and removes none under its key. -/
def RemovesNothing (lookup : Outcome) (outcomes : Outcomes) (l : Loop) : Prop :=
  ∃ p, (refreshNftCacheRedirect lookup l.state).1[l.index]? = some p ∧
    asksToRemove senderaddr iport proto (l.described p) p = true ∧
    ¬ Meets outcomes p.eport p.proto.toNat (refreshNftCacheRedirect lookup l.state).2

def Loop.size (l : Loop) : Nat :=
  l.state.nft.prerouting.rules.length - l.index + l.state.nft.postrouting.rules.length

theorem removeRound_shrinks {lookup : Outcome} {outcomes : Outcomes} {l l' : Loop}
    (next : removeRound senderaddr iport proto lookup outcomes l = some l') :
    l'.size < l.size ∨
      RemovesNothing senderaddr iport proto lookup outcomes l ∧ l'.size ≤ l.size := by
  unfold removeRound at next
  dsimp only at next
  split at next
  · cases next
  · rename_i p found
    have within : l.index < l.state.nft.prerouting.rules.length := by
      have shown := (List.getElem?_eq_some_iff.mp found).1
      have all : (refreshNftCacheRedirect lookup l.state).1.length ≤
          l.state.nft.prerouting.rules.length := by
        refine Nat.le_trans (List.length_filter_le _ _) ?_
        rw [List.length_map]
        exact (received_sublist _ _ _).length_le
      omega
    split at next
    · rename_i asked
      rw [result_zero, if_neg (lt_irrefl 0)] at next
      obtain ⟨pre, post, meets⟩ := @delete_length outcomes p.eport p.proto.toNat
        (refreshNftCacheRedirect lookup l.state).2
      have same : (refreshNftCacheRedirect lookup l.state).2.nft = l.state.nft := rfl
      rw [same] at pre post meets
      rw [← Option.some.inj next]
      unfold Loop.size
      dsimp only
      by_cases removes : Meets outcomes p.eport p.proto.toNat
          (refreshNftCacheRedirect lookup l.state).2
      · have fewer := meets removes
        left
        omega
      · right
        refine ⟨⟨p, found, asked, removes⟩, ?_⟩
        omega
    · rw [← Option.some.inj next]
      left
      unfold Loop.size
      dsimp only [refreshNftCacheRedirect]
      omega

/-- The outcomes of all rounds, of the lookup and of the removal. -/
abbrev RoundOutcomes := Nat → Outcome × Outcomes

def Ends (outcomes : RoundOutcomes) (l : Loop) : Prop :=
  ∃ n, rounds (fun n => removeRound senderaddr iport proto (outcomes n).1 (outcomes n).2) l n = none

/-- From some round on, every one finds a rule to remove and removes none. -/
def Stuck (outcomes : RoundOutcomes) (l : Loop) : Prop :=
  ∃ k, ∀ n, k ≤ n → ∃ l',
    rounds (fun n => removeRound senderaddr iport proto (outcomes n).1 (outcomes n).2) l n =
      some l' ∧ RemovesNothing senderaddr iport proto (outcomes n).1 (outcomes n).2 l'

theorem ends_iff (outcomes : RoundOutcomes) (l : Loop) :
    Ends senderaddr iport proto outcomes l ↔ ¬ Stuck senderaddr iport proto outcomes l :=
  rounds_end_iff (fun _ _ _ next => removeRound_shrinks senderaddr iport proto next) l

end natpmp

/-- The result of a removal, the answer to a deletion and the end of the NAT-PMP loop are right
    exactly if messages that delete a rule under the key succeed. -/
theorem nft_removal_right_iff (outcomes : Outcomes) (eport : UInt16) (proto : Int) (s : State)
    (env : SoapEnv) (lookup : Outcome) (buffer : CString) (h : Upnphttp) (senderaddr : CString)
    (iport : UInt16) (rounds : RoundOutcomes) (l : Loop) :
    (ResultRight outcomes eport proto s ↔ Meets outcomes eport proto s) ∧
      (AnswerRight env lookup buffer outcomes h s ↔
        AnswerMeets env lookup buffer outcomes h s) ∧
      (Ends senderaddr iport proto rounds l ↔ ¬ Stuck senderaddr iport proto rounds l) :=
  ⟨resultRight_iff outcomes eport proto s, answerRight_iff env lookup buffer outcomes h s,
    ends_iff senderaddr iport proto rounds l⟩

/-- There is nothing to remove, and no exchange fails. -/
theorem missing_rule_reported_removed :
    (deleteRedirectAndFilterRules (fun _ => .done) 8080 6 (State.start Nft.empty)).1 = 0 ∧
      ¬ ResultRight (fun _ => .done) 8080 6 (State.start Nft.empty) := by
  refine ⟨rfl, ?_⟩
  intro right
  rcases (resultRight_iff _ _ _ _).mp right with redirect | peer
  · exact absurd redirect.1 (by decide)
  · exact absurd peer.1 (by decide)

end FailedDeletions
