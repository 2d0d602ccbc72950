import Mathlib.Data.Option.Basic
import MiniUPnPd.Lib.CBuffer
import MiniUPnPd.SdnPortmappings

/-!
The lookups of a build with SDN, and what they write into the buffers of their callers. The
strings of the controller are copied in three ways: after a test of the length that lets a text
through which fills the buffer, with the length of the buffer, and with the length of the text.
-/
namespace SdnRules
open CText CBuffer SdnRedirect SdnPortmappings

/-- The object sent for one mapping. -/
structure GetRequest where
  rhost : CString
  eport : UInt16
  proto : CString

structure RuleController (σ : Type*) extends Controller σ where
  getExtIpAddr : σ → Option HttpMessage × σ
  getPortMapping : GetRequest → σ → Option HttpMessage × σ
  getPortMappingByIndex : Int → σ → Option HttpMessage × σ

/-- A byte as a `char`, which is signed. -/
def charValue (c : Char) : Int := (c.toNat : Int).bmod 256

def differs (a b : Char) : Bool :=
  a ≠ b ∧ (charValue b < 91 ∧ charValue a ≠ charValue b + 32 ∨
    charValue b > 91 ∧ charValue a ≠ charValue b - 32)

def cmpCaseInsensitive (a b : CString) : Int :=
  if a.length ≠ b.length then -1
  else if (a.zip b).any fun (a, b) => differs a b then -1
  else 0

/-- What a lookup hands back; a buffer that it is not given stays `none`. -/
structure RuleInfos where
  eport : UInt16
  proto : Option (List Char)
  iaddr : Option (List Char)
  iport : UInt16
  desc : Option (List Char)
  rhost : Option (List Char)
  leaseduration : Nat

/-- The last lines of `get_redirect_rule`. -/
def writeRule (entry : PortmappingEntry) (iaddr : Option (List Char)) (iaddrlen : Nat)
    (desc : Option (List Char)) (desclen : Nat) : Except Fault (Option RuleInfos) := do
  let iaddr ← strncpy iaddr entry.iaddr iaddrlen
  let desc ← strncpy desc "empty".toList desclen
  .ok (some { eport := entry.eport, proto := none, iaddr, iport := entry.iport, desc, rhost := none
              leaseduration := entry.leaseduration })

/-- The last lines of `get_redirect_rule_by_index`. -/
def writeRuleByIndex (entry : PortmappingEntry) (iaddr : Option (List Char)) (iaddrlen : Nat)
    (proto : Option (List Char)) (desc : Option (List Char)) (desclen : Nat)
    (rhost : Option (List Char)) (rhostlen : Nat) : Except Fault (Option RuleInfos) := do
  let proto ← strncpy proto entry.proto (entry.proto.length + 1)
  let rhost ← strncpy rhost entry.rhost rhostlen
  let iaddr ← strncpy iaddr entry.iaddr iaddrlen
  let desc ← strncpy desc "empty".toList desclen
  .ok (some { eport := entry.eport, proto, iaddr, iport := entry.iport, desc, rhost
              leaseduration := entry.leaseduration })

section functions
variable {σ : Type*} (controller : RuleController σ) (stack : String → Int)

/-- The address in the buffer, if the call succeeds. -/
def getSdnIgdExternalIpAddr (retAddr : Option (List Char)) (maxLen : Nat) (s : σ) :
    Except Fault (Option (Option (List Char))) × σ :=
  let (answer, next) := controller.getExtIpAddr s
  let vars := connRuntimeVars answer
  (if vars.responseCode ≠ .OK_200 then .ok none
    else
      match retrieveStringFromJsonObj vars.response "ext_ip_addr" with
      | none => .ok none
      | some ip => if ip.length ≤ maxLen then (strncpy retAddr ip maxLen).map some else .ok none,
    next)

/-- The mapping in a response, if it is the one that was asked for. -/
def requestedEntry (request : GetRequest) (response : Json) : Option PortmappingEntry := do
  let rhost ← retrieveStringFromJsonObj response "rhost"
  guard (rhost = request.rhost)
  let eport ← retrievePortNumberFromJsonObj (stack "eport") response "eport"
  guard (eport = request.eport)
  let proto ← retrieveStringFromJsonObj response "proto"
  guard (cmpCaseInsensitive proto request.proto = 0)
  let iaddr ← retrieveStringFromJsonObj response "iaddr"
  let iport ← retrievePortNumberFromJsonObj (stack "iport") response "iport"
  let leaseduration ← retrieveUnsignedIntFromJsonObj response "duration"
  some { rhost, eport, proto, iaddr, iport, leaseduration }

/-- The request is built first, and `json_object_new_string` takes the length of the remote
    host. -/
def getRedirectRule (eport : UInt16) (proto : CString) (iaddr : Option (List Char))
    (iaddrlen : Nat) (desc : Option (List Char)) (desclen : Nat) (rhost : Option CString) (s : σ) :
    Except Fault (Option RuleInfos) × σ :=
  match rhost with
  | none => (.error .nullPointer, s)
  | some rhost =>
    let (answer, next) := controller.getPortMapping { rhost, eport, proto } s
    let vars := connRuntimeVars answer
    (if vars.responseCode ≠ .OK_200 then .ok none
      else
        match requestedEntry stack { rhost, eport, proto } vars.response with
        | none => .ok none
        | some entry => writeRule entry iaddr iaddrlen desc desclen,
      next)

/-- The protocol goes into a buffer whose length is not given. -/
def getRedirectRuleByIndex (index : Int) (iaddr : Option (List Char)) (iaddrlen : Nat)
    (proto : Option (List Char)) (desc : Option (List Char)) (desclen : Nat)
    (rhost : Option (List Char)) (rhostlen : Nat) (s : σ) :
    Except Fault (Option RuleInfos) × σ :=
  let (answer, next) := controller.getPortMappingByIndex index s
  let vars := connRuntimeVars answer
  (if vars.responseCode ≠ .OK_200 then .ok none
    else
      match retrieveEntry stack vars.response with
      | none => .ok none
      | some entry => writeRuleByIndex entry iaddr iaddrlen proto desc desclen rhost rhostlen,
    next)

end functions

/-- The entry of a mapping that the controller answers with. -/
def FoundEntry (stack : String → Int) (answer : Option HttpMessage) (entry : PortmappingEntry) :
    Prop :=
  (connRuntimeVars answer).responseCode = .OK_200 ∧
    retrieveEntry stack (connRuntimeVars answer).response = some entry

section texts
variable {jobj : Json} {stack : String → Int} {entry : PortmappingEntry}

theorem retrieveString_plain {key : String} {s : CString}
    (read : retrieveStringFromJsonObj jobj key = some s) : '\x00' ∉ s := by
  rw [retrieveString_field, Option.map_eq_some_iff] at read
  obtain ⟨whole, _, rfl⟩ := read
  intro nul
  simpa using List.mem_takeWhile_imp nul

/-- The strings of an entry are as their readers see them, without a NUL. -/
theorem retrieveEntry_plain (read : retrieveEntry stack jobj = some entry) :
    '\x00' ∉ entry.rhost ∧ '\x00' ∉ entry.proto ∧ '\x00' ∉ entry.iaddr := by
  simp only [retrieveEntry, Option.bind_eq_bind, Option.bind_eq_some_iff] at read
  obtain ⟨rhost, first, eport, _, proto, second, iaddr, third, iport, _, lease, _, same⟩ := read
  obtain rfl := Option.some.inj same
  exact ⟨retrieveString_plain first, retrieveString_plain second, retrieveString_plain third⟩

theorem requestedEntry_iff {request : GetRequest} :
    requestedEntry stack request jobj = some entry ↔
      retrieveEntry stack jobj = some entry ∧ entry.rhost = request.rhost ∧
        entry.eport = request.eport ∧ cmpCaseInsensitive entry.proto request.proto = 0 := by
  simp only [requestedEntry, retrieveEntry, Option.bind_eq_bind, Option.bind_eq_some_iff, guard,
    Option.pure_def, Option.failure_eq_none]
  constructor
  · intro requested
    obtain ⟨rhost, first, _, same, eport, second, _, port, proto, third, _, kind, iaddr, fourth,
      iport, fifth, lease, sixth, whole⟩ := requested
    obtain rfl := Option.some.inj whole
    refine ⟨⟨rhost, first, eport, second, proto, third, iaddr, fourth, iport, fifth, lease, sixth,
      rfl⟩, ?_, ?_, ?_⟩
    · by_contra other
      rw [if_neg other] at same
      cases same
    · by_contra other
      rw [if_neg other] at port
      cases port
    · by_contra other
      rw [if_neg other] at kind
      cases kind
  · intro retrieved
    obtain ⟨⟨rhost, first, eport, second, proto, third, iaddr, fourth, iport, fifth, lease, sixth,
      whole⟩, same, port, kind⟩ := retrieved
    obtain rfl := Option.some.inj whole
    exact ⟨rhost, first, (), if_pos same, eport, second, (), if_pos port, proto, third, (),
      if_pos kind, iaddr, fourth, iport, fifth, lease, sixth, rfl⟩

end texts

section soundness
variable {σ : Type*} (controller : RuleController σ) (stack : String → Int) (s : σ)

theorem externalIp_sound_iff (retAddr : List Char) :
    Sound (getSdnIgdExternalIpAddr controller (some retAddr) retAddr.length s).1 (fun b => [b]) ↔
      ((connRuntimeVars (controller.getExtIpAddr s).1).responseCode = .OK_200 →
        ∀ ip, retrieveStringFromJsonObj (connRuntimeVars (controller.getExtIpAddr s).1).response
          "ext_ip_addr" = some ip → ip.length ≠ retAddr.length) := by
  unfold getSdnIgdExternalIpAddr
  dsimp only
  generalize connRuntimeVars (controller.getExtIpAddr s).1 = vars
  by_cases answered : vars.responseCode = .OK_200
  · simp only [answered, ne_eq, not_true_eq_false, ↓reduceIte, forall_const]
    cases read : retrieveStringFromJsonObj vars.response "ext_ip_addr" with
    | none => simpa using sound_none _
    | some ip =>
      have plain := retrieveString_plain read
      simp only [Option.some.injEq, forall_eq']
      by_cases fits : ip.length ≤ retAddr.length
      · rw [if_pos fits, sound_copy_iff plain]
        omega
      · rw [if_neg fits]
        have longer : ip.length ≠ retAddr.length := by omega
        simpa [longer] using sound_none _
  · simp only [answered, ne_eq, not_false_eq_true, ↓reduceIte, false_implies, iff_true]
    exact sound_none _

theorem empty_plain : '\x00' ∉ "empty".toList := by decide

theorem writeRule_sound_iff {entry : PortmappingEntry} (plain : '\x00' ∉ entry.iaddr)
    (iaddr desc : List Char) :
    Sound (writeRule entry (some iaddr) iaddr.length (some desc) desc.length)
        (fun infos => [infos.iaddr, infos.desc]) ↔
      entry.iaddr.length < iaddr.length ∧ 5 < desc.length := by
  have copied : Sound (writeRule entry (some iaddr) iaddr.length (some desc) desc.length)
      (fun infos => [infos.iaddr, infos.desc]) ↔
      Terminated (padded iaddr.length entry.iaddr) ∧
        Terminated (padded desc.length "empty".toList) := by
    simp only [writeRule, strncpy_whole, bind, Except.bind]
    simp [Sound]
  rw [copied, terminated_padded_iff plain, terminated_padded_iff empty_plain]
  rfl

theorem writeRuleByIndex_sound_iff {entry : PortmappingEntry} (host : '\x00' ∉ entry.rhost)
    (client : '\x00' ∉ entry.iaddr) (iaddr proto desc rhost : List Char) :
    Sound (writeRuleByIndex entry (some iaddr) iaddr.length (some proto) (some desc) desc.length
        (some rhost) rhost.length) (fun infos => [infos.proto, infos.rhost, infos.iaddr, infos.desc]) ↔
      entry.proto.length < proto.length ∧ entry.rhost.length < rhost.length ∧
        entry.iaddr.length < iaddr.length ∧ 5 < desc.length := by
  unfold writeRuleByIndex
  simp only [strncpy_text, strncpy_whole]
  by_cases fits : entry.proto.length < proto.length
  · have ended : Terminated (entry.proto ++ '\x00' :: proto.drop (entry.proto.length + 1)) := by
      simp [Terminated]
    rw [← terminated_padded_iff host, ← terminated_padded_iff client,
      show 5 < desc.length ↔ _ from (terminated_padded_iff empty_plain).symm]
    simp [fits, bind, Except.bind, Sound, ended]
  · simp [fits, bind, Except.bind, Sound]

theorem getRedirectRule_sound_iff (eport : UInt16) (proto rhost : CString)
    (iaddr desc : List Char) :
    Sound (getRedirectRule controller stack eport proto (some iaddr) iaddr.length (some desc)
        desc.length (some rhost) s).1 (fun infos => [infos.iaddr, infos.desc]) ↔
      ∀ entry, FoundEntry stack (controller.getPortMapping { rhost, eport, proto } s).1 entry →
        entry.rhost = rhost → entry.eport = eport → cmpCaseInsensitive entry.proto proto = 0 →
        entry.iaddr.length < iaddr.length ∧ 5 < desc.length := by
  unfold getRedirectRule FoundEntry
  dsimp only
  generalize connRuntimeVars (controller.getPortMapping { rhost, eport, proto } s).1 = vars
  by_cases answered : vars.responseCode = .OK_200
  · simp only [answered, ne_eq, not_true_eq_false, ↓reduceIte, true_and]
    have found := @requestedEntry_iff vars.response stack
    cases requested : requestedEntry stack { rhost, eport, proto } vars.response with
    | none =>
      refine iff_of_true (sound_none _) ?_
      intro entry read host port kind
      have asked := found.mpr (show _ ∧ _ = (GetRequest.mk rhost eport proto).rhost ∧ _ from
        ⟨read, host, port, kind⟩)
      rw [requested] at asked
      cases asked
    | some entry =>
      obtain ⟨read, host, port, kind⟩ := found.mp requested
      obtain ⟨_, _, plain⟩ := retrieveEntry_plain read
      dsimp only
      rw [writeRule_sound_iff plain]
      constructor
      · intro fits other again _ _ _
        rw [read] at again
        obtain rfl := Option.some.inj again
        exact fits
      · intro fits
        exact fits entry read host port kind
  · simp only [answered, ne_eq, not_false_eq_true, ↓reduceIte, false_and, false_implies,
      implies_true, iff_true]
    exact sound_none _

theorem getRedirectRuleByIndex_sound_iff (index : Int) (iaddr proto desc rhost : List Char) :
    Sound (getRedirectRuleByIndex controller stack index (some iaddr) iaddr.length (some proto)
        (some desc) desc.length (some rhost) rhost.length s).1
        (fun infos => [infos.proto, infos.rhost, infos.iaddr, infos.desc]) ↔
      ∀ entry, FoundEntry stack (controller.getPortMappingByIndex index s).1 entry →
        entry.proto.length < proto.length ∧ entry.rhost.length < rhost.length ∧
          entry.iaddr.length < iaddr.length ∧ 5 < desc.length := by
  unfold getRedirectRuleByIndex FoundEntry
  dsimp only
  generalize connRuntimeVars (controller.getPortMappingByIndex index s).1 = vars
  by_cases answered : vars.responseCode = .OK_200
  · simp only [answered, ne_eq, not_true_eq_false, ↓reduceIte, true_and]
    cases read : retrieveEntry stack vars.response with
    | none => simpa using sound_none _
    | some entry =>
      obtain ⟨host, _, client⟩ := retrieveEntry_plain read
      simpa using writeRuleByIndex_sound_iff host client iaddr proto desc rhost
  · simp only [answered, ne_eq, not_false_eq_true, ↓reduceIte, false_and, false_implies,
      implies_true, iff_true]
    exact sound_none _

/-- A lookup stays in the buffers and terminates them exactly if an external address does not
    just fill its buffer, and the strings of a mapping that is handed back are shorter than
    theirs. -/
theorem lookups_sound_iff :
    (∀ retAddr : List Char,
      Sound (getSdnIgdExternalIpAddr controller (some retAddr) retAddr.length s).1 (fun b => [b]) ↔
        ((connRuntimeVars (controller.getExtIpAddr s).1).responseCode = .OK_200 →
          ∀ ip, retrieveStringFromJsonObj (connRuntimeVars (controller.getExtIpAddr s).1).response
            "ext_ip_addr" = some ip → ip.length ≠ retAddr.length)) ∧
    (∀ (eport : UInt16) (proto rhost : CString) (iaddr desc : List Char),
      Sound (getRedirectRule controller stack eport proto (some iaddr) iaddr.length (some desc)
          desc.length (some rhost) s).1 (fun infos => [infos.iaddr, infos.desc]) ↔
        ∀ entry, FoundEntry stack (controller.getPortMapping { rhost, eport, proto } s).1 entry →
          entry.rhost = rhost → entry.eport = eport → cmpCaseInsensitive entry.proto proto = 0 →
          entry.iaddr.length < iaddr.length ∧ 5 < desc.length) ∧
    (∀ (index : Int) (iaddr proto desc rhost : List Char),
      Sound (getRedirectRuleByIndex controller stack index (some iaddr) iaddr.length (some proto)
          (some desc) desc.length (some rhost) rhost.length s).1
          (fun infos => [infos.proto, infos.rhost, infos.iaddr, infos.desc]) ↔
        ∀ entry, FoundEntry stack (controller.getPortMappingByIndex index s).1 entry →
          entry.proto.length < proto.length ∧ entry.rhost.length < rhost.length ∧
            entry.iaddr.length < iaddr.length ∧ 5 < desc.length) :=
  ⟨externalIp_sound_iff controller s, getRedirectRule_sound_iff controller stack s,
    getRedirectRuleByIndex_sound_iff controller stack s⟩

end soundness

/-- The controller of a network that names its protocol with eight letters. -/
def eightLetters : RuleController Unit :=
  { number := fun _ => 1
    addPortMapping := fun _ s => (none, s)
    deletePortMapping := fun _ s => (none, s)
    deletePortMappingRange := fun _ s => (none, s)
    getExtIpAddr := fun s => (none, s)
    getPortMapping := fun _ s => (none, s)
    getPortMappingByIndex := fun _ s =>
      (some { status := "200".toList, body := .object
                [("rhost".toList, .string []), ("eport".toList, .int 80),
                 ("proto".toList, .string "UDP-LITE".toList),
                 ("iaddr".toList, .string "10.0.0.2".toList), ("iport".toList, .int 80),
                 ("duration".toList, .int 0)] }, s) }

/-- The buffers of `GetGenericPortMappingEntry`. -/
theorem eightLetters_unsound :
    ¬ Sound (getRedirectRuleByIndex eightLetters (fun _ => 0) 0 (some (List.replicate 32 '\x00')) 32
        (some (List.replicate 8 '\x00')) (some (List.replicate 64 '\x00')) 64
        (some (List.replicate 40 '\x00')) 40 ()).1
      (fun infos => [infos.proto, infos.rhost, infos.iaddr, infos.desc]) := by
  intro sound
  obtain ⟨r, run, _⟩ := sound
  have stopped : (getRedirectRuleByIndex eightLetters (fun _ => 0) 0
      (some (List.replicate 32 '\x00')) 32 (some (List.replicate 8 '\x00'))
      (some (List.replicate 64 '\x00')) 64 (some (List.replicate 40 '\x00')) 40 ()).1 =
      .error .outside := by rfl
  rw [stopped] at run
  cases run

end SdnRules
