import MiniUPnPd.Mappings
import MiniUPnPd.UpnpSoap

/-!
What the result of a deletion says. The removal multiplies two results that are 0 or -1, so
that a failure with a failure beside it reads as success, and it drops the description
whether or not the rule went.
-/
namespace DeleteResults
open Iptc Iptcrdr IptcrdrSpec LeaseFile Mappings UpnpRedirect UpnpRedirectSpec UpnpSoap

section removals
variable (eport : UInt16) (proto : Int)

/-- The NAT chain has lost a rule of the key. -/
def Removed (before after : Netfilter) : Prop :=
  (after.chain .nat).countP (redirectMatches proto eport) <
    (before.chain .nat).countP (redirectMatches proto eport)

/-- The descriptions and expiry times under the key. -/
def described (nf : Netfilter) : List RdrDesc := nf.rdrDescList.filter (descMatches eport proto)

/-- The result is negative exactly if no rule went, and then the description stayed. -/
def ResultRight (nf : Netfilter) : Prop :=
  let deleted := deleteRedirectAndFilterRules eport proto nf
  (deleted.1 < 0 ↔ ¬ Removed eport proto nf deleted.2) ∧
    (¬ Removed eport proto nf deleted.2 →
      described eport proto deleted.2 = described eport proto nf)

/-- Either the first `iptc_init` fails, or there is a rule and the calls up to the commit of
    its removal succeed. -/
def Meets (nf : Netfilter) : Prop :=
  callsSucceed 1 nf.iptcResults = false ∨
    callsSucceed 5 nf.iptcResults = true ∧ ∃ e ∈ nf.chain .nat, redirectMatches proto eport e

theorem removed_iff (nf : Netfilter) :
    Removed eport proto nf (deleteRedirectAndFilterRules eport proto nf).2 ↔
      callsSucceed 5 nf.iptcResults = true ∧ ∃ e ∈ nf.chain .nat, redirectMatches proto eport e := by
  have nat := (deleteRedirectAndFilterRules_exact eport proto nf).2
  simp only [tables_nat] at nat
  rw [Removed, nat]
  cases five : callsSucceed 5 nf.iptcResults with
  | false => simp
  | true =>
    cases search : (nf.chain .nat).find? (redirectMatches proto eport) with
    | none =>
      have none := List.find?_eq_none.mp search
      simp only [↓reduceIte, FirstMatch.eraseP_of_find?_none search, lt_irrefl, true_and, false_iff]
      rintro ⟨e, member, hit⟩
      exact none e member hit
    | some e =>
      have fewer := FirstMatch.countP_eraseP search
      have there : ∃ e ∈ nf.chain .nat, redirectMatches proto eport e :=
        ⟨e, List.mem_of_find?_eq_some search, List.find?_some search⟩
      simp only [↓reduceIte, there, and_true, iff_true]
      omega

theorem resultRight_iff (nf : Netfilter) : ResultRight eport proto nf ↔ Meets eport proto nf := by
  have negative := deleteRedirectAndFilterRules_negative eport proto nf
  have removed := removed_iff eport proto nf
  have descs := (deleteRedirectAndFilterRules_exact eport proto nf).1
  have first := callsSucceed_add 1 4 nf.iptcResults
  constructor
  · intro right
    by_cases gone : Removed eport proto nf (deleteRedirectAndFilterRules eport proto nf).2
    · exact .inr (removed.mp gone)
    · exact .inl (negative.mp (right.1.mpr gone))
  · rintro (failed | done)
    · have stays : ¬ Removed eport proto nf (deleteRedirectAndFilterRules eport proto nf).2 := by
        rw [removed, first, failed]
        simp
      have kept : described eport proto (deleteRedirectAndFilterRules eport proto nf).2 =
          described eport proto nf := by
        simp only [failed, Bool.false_eq_true, ↓reduceIte, tables_descs] at descs
        rw [described, descs, described]
      exact ⟨⟨fun _ => stays, fun _ => negative.mpr failed⟩, fun _ => kept⟩
    · have gone := removed.mpr done
      have opened : callsSucceed 1 nf.iptcResults = true := by
        rw [first] at done
        exact (Bool.and_eq_true_iff.mp done.1).1
      refine ⟨⟨?_, fun stays => absurd gone stays⟩, fun stays => absurd gone stays⟩
      intro below
      simp [negative.mp below] at opened

end removals

/-- A DeletePortMapping that answers success has removed a mapping that was there. -/
def AnswerRight (env : SoapEnv) (h : Upnphttp) (d : Daemon) : Prop :=
  let answered := deletePortMapping env h d
  answered.1 = .done → ∃ eport protocol, deleteArguments env h = .ok (eport, protocol) ∧
    Removed eport (protoAtoi protocol) d.nf answered.2.nf

/-- The removal that the request comes to, if its arguments are good and it is allowed,
    meets the condition. -/
def AnswerMeets (env : SoapEnv) (h : Upnphttp) (d : Daemon) : Prop :=
  ∀ eport protocol, deleteArguments env h = .ok (eport, protocol) →
    (deletionRefused env h eport protocol d).1 = false →
      Meets eport (protoAtoi protocol) (deletionRefused env h eport protocol d).2.nf

theorem deletionRefused_nat (env : SoapEnv) (h : Upnphttp) (eport : UInt16) (protocol : CString)
    (d : Daemon) : (deletionRefused env h eport protocol d).2.nf.chain .nat = d.nf.chain .nat := by
  have same := (lookup_tables d eport (protoAtoi protocol)).1
  unfold deletionRefused upnpGetRedirectionInfos
  split
  · dsimp only
    split
    · exact same
    · split
      · exact same
      · exact same
  · rfl

theorem answer_iff {env : SoapEnv} {h : Upnphttp} {d : Daemon} {eport : UInt16}
    {protocol : CString} (arguments : deleteArguments env h = .ok (eport, protocol))
    (allowed : (deletionRefused env h eport protocol d).1 = false) :
    let mid := (deletionRefused env h eport protocol d).2.nf
    ((deletePortMapping env h d).1 = .done ↔
      ¬ (deleteRedirectAndFilterRules eport (protoAtoi protocol) mid).1 < 0) ∧
    (deletePortMapping env h d).2.nf =
      (deleteRedirectAndFilterRules eport (protoAtoi protocol) mid).2 := by
  simp only [deletePortMapping, arguments, allowed, Bool.false_eq_true, ↓reduceIte,
    upnpDeleteRedirection, upnpDeleteRedir, record_nf, fileRemove_nf, withNf_nf, and_true]
  by_cases below : (deleteRedirectAndFilterRules eport (protoAtoi protocol)
      (deletionRefused env h eport protocol d).2.nf).1 < 0
  · simp [below]
  · simp [below]

theorem answerRight_iff (env : SoapEnv) (h : Upnphttp) (d : Daemon) :
    AnswerRight env h d ↔ AnswerMeets env h d := by
  unfold AnswerRight AnswerMeets
  cases arguments : deleteArguments env h with
  | error reply =>
    have answer : (deletePortMapping env h d).1 = reply := by
      simp only [deletePortMapping, arguments]
    simp [answer, deleteArguments_error arguments]
  | ok given =>
    obtain ⟨eport, protocol⟩ := given
    cases refusal : (deletionRefused env h eport protocol d).1 with
    | true =>
      have answer : (deletePortMapping env h d).1 ≠ .done := by
        simp [deletePortMapping, arguments, refusal]
      simp [answer, refusal]
    | false =>
      obtain ⟨done, after⟩ := answer_iff arguments refusal
      have negative := deleteRedirectAndFilterRules_negative eport (protoAtoi protocol)
        (deletionRefused env h eport protocol d).2.nf
      have removed := removed_iff eport (protoAtoi protocol)
        (deletionRefused env h eport protocol d).2.nf
      have fewer : Removed eport (protoAtoi protocol) d.nf (deletePortMapping env h d).2.nf ↔
          callsSucceed 5 (deletionRefused env h eport protocol d).2.nf.iptcResults = true ∧
            ∃ e ∈ (deletionRefused env h eport protocol d).2.nf.chain .nat,
              redirectMatches (protoAtoi protocol) eport e := by
        rw [← removed, after, Removed, Removed, deletionRefused_nat]
      dsimp only
      rw [done, negative]
      constructor
      · intro right eport' protocol' given allowed
        obtain ⟨rfl, rfl⟩ := Prod.mk.inj (Except.ok.inj given)
        by_cases failed : callsSucceed 1
            (deletionRefused env h eport protocol d).2.nf.iptcResults = false
        · exact .inl failed
        · obtain ⟨eport', protocol', same, gone⟩ := right failed
          obtain ⟨rfl, rfl⟩ := Prod.mk.inj (Except.ok.inj same)
          exact .inr (fewer.mp gone)
      · intro meets opened
        rcases meets eport protocol rfl refusal with failed | rule
        · exact absurd failed opened
        · exact ⟨eport, protocol, rfl, fewer.mpr rule⟩

/-- A removal and a DeletePortMapping say what happened exactly if the condition is met. -/
theorem deletion_right_iff (eport : UInt16) (proto : Int) (nf : Netfilter) (env : SoapEnv)
    (h : Upnphttp) (d : Daemon) :
    (ResultRight eport proto nf ↔ Meets eport proto nf) ∧
      (AnswerRight env h d ↔ AnswerMeets env h d) :=
  ⟨resultRight_iff eport proto nf, answerRight_iff env h d⟩

/-- Nothing is there and no call fails: the result is 1, the product of two failures. -/
theorem missing_mapping_reported_removed :
    (deleteRedirectAndFilterRules 8080 6 Netfilter.empty).1 = 1 ∧
      ¬ ResultRight 8080 6 Netfilter.empty := by
  refine ⟨rfl, ?_⟩
  rw [resultRight_iff]
  rintro (failed | ⟨_, e, member, _⟩)
  · simp [Netfilter.empty, callsSucceed] at failed
  · simp [Netfilter.empty] at member

end DeleteResults
