import MiniUPnPd.SdnRules

/-!
The comparison by which a lookup of a build with SDN recognises the protocol it has asked for. The
test of two different characters is made for letters, but takes any characters: it knows only the
distance of the two cases and the character `[` behind the capital letters.
-/
namespace SdnProtocols
open CText SdnRedirect SdnPortmappings SdnRules

/-- The characters of a C string. -/
def Bytes (s : CString) : Prop := ∀ c ∈ s, 0 < c.toNat ∧ c.toNat < 256

/-- The first character passes for the second: any other than `[` for `[`, and what is 32 places
    behind a character in front of `A`, or in front of one behind `[` that is no letter. -/
def Confused (x y : Char) : Prop :=
  y = '[' ∧ x ≠ '[' ∨
  charValue y < 65 ∧ charValue x = charValue y + 32 ∨
  (91 < charValue y ∧ charValue y < 97 ∨ 122 < charValue y) ∧ charValue x = charValue y - 32

def Confusable (a b : CString) : Prop :=
  a.length = b.length ∧ (∀ p ∈ a.zip b, tolower p.1 = tolower p.2 ∨ Confused p.1 p.2) ∧
    ∃ p ∈ a.zip b, Confused p.1 p.2

section characters
variable {x y : Char}

theorem charValue_of_lt (small : x.toNat < 256) :
    charValue x = if x.toNat < 128 then (x.toNat : Int) else x.toNat - 256 := by
  unfold charValue
  rw [Int.bmod_def]
  split <;> split <;> omega

theorem toNat_tolower (x : Char) :
    (tolower x).toNat = if 65 ≤ x.toNat ∧ x.toNat ≤ 90 then x.toNat + 32 else x.toNat := by
  unfold tolower
  split
  · have valid : (x.toNat + 32).isValidChar := by
      unfold Nat.isValidChar
      omega
    rw [Char.ofNat, dif_pos valid]
    rfl
  · rfl

theorem tolower_eq_iff :
    tolower x = tolower y ↔ (tolower x).toNat = (tolower y).toNat := Char.toNat_inj.symm

theorem differs_iff (first : x.toNat < 256) (second : y.toNat < 256) :
    differs x y = false ↔ tolower x = tolower y ∨ Confused x y := by
  have bracket : y = '[' ↔ y.toNat = 91 := Char.toNat_inj.symm
  have other : x = '[' ↔ x.toNat = 91 := Char.toNat_inj.symm
  have same : x = y ↔ x.toNat = y.toNat := Char.toNat_inj.symm
  simp only [differs, Confused, decide_eq_false_iff_not, ne_eq, bracket, other, same,
    tolower_eq_iff, toNat_tolower, charValue_of_lt first, charValue_of_lt second]
  split <;> split <;> split <;> split <;> omega

theorem confused_tolower (first : x.toNat < 256) (second : y.toNat < 256)
    (confused : Confused x y) : tolower x ≠ tolower y := by
  have bracket : y = '[' ↔ y.toNat = 91 := Char.toNat_inj.symm
  have other : x = '[' ↔ x.toNat = 91 := Char.toNat_inj.symm
  simp only [Confused, bracket, other, charValue_of_lt first, charValue_of_lt second, ne_eq]
    at confused
  rw [ne_eq, tolower_eq_iff, toNat_tolower, toNat_tolower]
  split at confused <;> split at confused <;> split <;> split <;> omega

end characters

section strings
variable {a b : CString}

theorem strcaseeq_iff :
    strcaseeq a b = true ↔ a.length = b.length ∧ ∀ p ∈ a.zip b, tolower p.1 = tolower p.2 := by
  rw [strcaseeq, decide_eq_true_iff]
  induction a generalizing b with
  | nil => cases b <;> simp
  | cons x a ih =>
    cases b with
    | nil => simp
    | cons y b =>
      rw [List.map_cons, List.map_cons, List.cons.injEq, ih, List.length_cons, List.length_cons,
        List.zip_cons_cons, List.forall_mem_cons, Nat.add_right_cancel_iff]
      tauto

theorem strcaseeq_symm : strcaseeq a b = strcaseeq b a := by
  unfold strcaseeq
  rw [decide_eq_decide]
  exact eq_comm

theorem zip_bytes (first : Bytes a) (second : Bytes b) {p : Char × Char} (member : p ∈ a.zip b) :
    p.1.toNat < 256 ∧ p.2.toNat < 256 :=
  ⟨(first p.1 (List.of_mem_zip member).1).2, (second p.2 (List.of_mem_zip member).2).2⟩

theorem cmp_values (a b : CString) : cmpCaseInsensitive a b = 0 ∨ cmpCaseInsensitive a b = -1 := by
  unfold cmpCaseInsensitive
  split
  · exact Or.inr rfl
  · split
    · exact Or.inr rfl
    · exact Or.inl rfl

theorem cmp_zero_iff :
    cmpCaseInsensitive a b = 0 ↔
      a.length = b.length ∧ ∀ p ∈ a.zip b, differs p.1 p.2 = false := by
  unfold cmpCaseInsensitive
  by_cases length : a.length = b.length
  · rw [if_neg (not_not_intro length)]
    split
    · rename_i some
      obtain ⟨⟨x, y⟩, member, different⟩ := List.any_eq_true.mp some
      refine iff_of_false (by decide) ?_
      intro all
      have equal : differs x y = false := all.2 (x, y) member
      exact Bool.false_ne_true (equal.symm.trans different)
    · rename_i none
      refine iff_of_true rfl ⟨length, ?_⟩
      intro p member
      by_contra different
      rw [Bool.not_eq_false] at different
      exact none (List.any_eq_true.mpr ⟨p, member, different⟩)
  · rw [if_pos length]
    exact iff_of_false (by decide) fun both => length both.1

/-- The comparison accepts what is equal up to the case, and what is confusable. -/
theorem cmp_zero_cases (first : Bytes a) (second : Bytes b) :
    cmpCaseInsensitive a b = 0 ↔ strcaseeq a b = true ∨ Confusable a b := by
  rw [cmp_zero_iff, strcaseeq_iff, Confusable]
  have taken : ∀ p ∈ a.zip b,
      (differs p.1 p.2 = false ↔ tolower p.1 = tolower p.2 ∨ Confused p.1 p.2) := by
    intro p member
    obtain ⟨low, high⟩ := zip_bytes first second member
    exact differs_iff low high
  constructor
  · intro both
    obtain ⟨length, none⟩ := both
    by_cases some : ∃ p ∈ a.zip b, Confused p.1 p.2
    · exact Or.inr ⟨length, fun p member => (taken p member).mp (none p member), some⟩
    · refine Or.inl ⟨length, ?_⟩
      intro p member
      rcases (taken p member).mp (none p member) with same | confused
      · exact same
      · exact absurd ⟨p, member, confused⟩ some
  · intro either
    rcases either with same | confusable
    · exact ⟨same.1, fun p member => (taken p member).mpr (Or.inl (same.2 p member))⟩
    · exact ⟨confusable.1, fun p member => (taken p member).mpr (confusable.2.1 p member)⟩

theorem confusable_other (first : Bytes a) (second : Bytes b) (confusable : Confusable a b) :
    strcaseeq a b = false := by
  obtain ⟨length, _, p, member, confused⟩ := confusable
  obtain ⟨low, high⟩ := zip_bytes first second member
  rw [Bool.eq_false_iff]
  intro same
  exact confused_tolower low high confused ((strcaseeq_iff.mp same).2 p member)

/-- Between letters alone nothing is confused with the second string. -/
theorem letters_not_confusable
    (letters : ∀ c ∈ b, 65 ≤ c.toNat ∧ c.toNat ≤ 90 ∨ 97 ≤ c.toNat ∧ c.toNat ≤ 122) :
    ¬ Confusable a b := by
  intro confusable
  obtain ⟨_, _, ⟨x, y⟩, member, confused⟩ := confusable
  have letter := letters y (List.of_mem_zip member).2
  have bracket : y = '[' ↔ y.toNat = 91 := Char.toNat_inj.symm
  have small : y.toNat < 256 := by omega
  simp only [Confused, bracket, charValue_of_lt small] at confused
  split at confused <;> omega

end strings

section lookups

/-- An answer with the fields of a lookup. -/
def answerOf (proto : CString) : HttpMessage :=
  { status := "200".toList
    body := .object
      [("rhost".toList, .string []), ("eport".toList, .int 80), ("proto".toList, .string proto),
       ("iaddr".toList, .string "10.0.0.2".toList), ("iport".toList, .int 80),
       ("duration".toList, .int 0)] }

/-- A controller that gives every mapping the same protocol. -/
def answering (proto : CString) : RuleController Unit :=
  { number := fun _ => 1
    addPortMapping := fun _ s => (none, s)
    deletePortMapping := fun _ s => (none, s)
    deletePortMappingRange := fun _ s => (none, s)
    getExtIpAddr := fun s => (none, s)
    getPortMapping := fun _ s => (some (answerOf proto), s)
    getPortMappingByIndex := fun _ s => (none, s) }

/-- A mapping is handed back for the protocol `asked` with an answer that says `answered`. -/
structure Accepted {σ : Type} (controller : RuleController σ) (stack : String → Int) (s : σ)
    (eport : UInt16) (rhost asked answered : CString) (iaddr : Option (List Char))
    (iaddrlen : Nat) (desc : Option (List Char)) (desclen : Nat) : Prop where
  read : retrieveStringFromJsonObj
    (connRuntimeVars (controller.getPortMapping { rhost, eport, proto := asked } s).1).response
    "proto" = some answered
  returned : ∃ infos, (getRedirectRule controller stack eport asked iaddr iaddrlen desc desclen
    (some rhost) s).1 = .ok (some infos)

section runs
variable {σ : Type} {controller : RuleController σ} {stack : String → Int} {s : σ}
  {eport : UInt16} {rhost asked answered : CString} {iaddr desc : Option (List Char)}
  {iaddrlen desclen : Nat}

theorem accepted_compared
    (accepted :
      Accepted controller stack s eport rhost asked answered iaddr iaddrlen desc desclen) :
    cmpCaseInsensitive answered asked = 0 := by
  obtain ⟨read, infos, run⟩ := accepted
  revert read run
  unfold getRedirectRule
  dsimp only
  generalize connRuntimeVars (controller.getPortMapping { rhost, eport, proto := asked } s).1 = vars
  intro read run
  split at run
  · cases run
  · split at run
    · cases run
    · rename_i entry requested
      obtain ⟨retrieved, _, _, kind⟩ := requestedEntry_iff.mp requested
      simp only [retrieveEntry, Option.bind_eq_bind, Option.bind_eq_some_iff] at retrieved
      obtain ⟨_, _, _, _, proto, second, _, _, _, _, _, _, whole⟩ := retrieved
      obtain rfl := Option.some.inj whole
      rw [read] at second
      obtain rfl := Option.some.inj second
      exact kind

theorem getRedirectRule_found {entry : PortmappingEntry}
    (answered : (connRuntimeVars
      (controller.getPortMapping { rhost, eport, proto := asked } s).1).responseCode = .OK_200)
    (requested : requestedEntry stack { rhost, eport, proto := asked } (connRuntimeVars
      (controller.getPortMapping { rhost, eport, proto := asked } s).1).response = some entry)
    (iaddr desc : List Char) :
    ∃ infos, (getRedirectRule controller stack eport asked (some iaddr) iaddr.length (some desc)
      desc.length (some rhost) s).1 = .ok (some infos) := by
  unfold getRedirectRule
  dsimp only
  rw [if_neg (not_not_intro answered), requested]
  simp only [writeRule, CBuffer.strncpy_whole, bind, Except.bind]
  exact ⟨_, rfl⟩

end runs

theorem answering_accepted {a b : CString} (plain : '\x00' ∉ a)
    (compared : cmpCaseInsensitive a b = 0) (iaddr desc : List Char) :
    Accepted (answering a) (fun _ => 0) () 80 [] b a (some iaddr) iaddr.length (some desc)
      desc.length := by
  have read : retrieveStringFromJsonObj (answerOf a).body "proto" = some a := by
    have same : retrieveStringFromJsonObj (answerOf a).body "proto" =
        some (a.takeWhile (· ≠ '\x00')) := rfl
    rw [same, takeWhile_plain.mpr plain]
  have entry : retrieveEntry (fun _ => 0) (answerOf a).body =
      some { rhost := [], eport := 80, proto := a, iaddr := "10.0.0.2".toList, iport := 80,
             leaseduration := 0 } := by
    simp only [retrieveEntry, read, Option.bind_eq_bind, Option.bind_some]
    rfl
  have requested := requestedEntry_iff.mpr
    (show _ ∧ _ = (GetRequest.mk [] 80 b).rhost ∧ _ = (GetRequest.mk [] 80 b).eport ∧ _ from
      ⟨entry, rfl, rfl, compared⟩)
  exact ⟨read, getRedirectRule_found rfl requested iaddr desc⟩

end lookups

theorem bytes_plain {s : CString} (bytes : Bytes s) : '\x00' ∉ s := by
  intro nul
  exact absurd (bytes _ nul).1 (by decide)

/-- The comparison is equality up to the case, and the same in both directions, exactly for
    strings that are not confusable either way, and a lookup takes an answer for the protocol it
    has asked for alone exactly if the answer's is not confusable with it. -/
theorem protocols_compared_iff (a b : CString) (first : Bytes a) (second : Bytes b) :
    (((cmpCaseInsensitive a b = 0 ↔ strcaseeq a b = true) ∧
        cmpCaseInsensitive a b = cmpCaseInsensitive b a) ↔
      ¬ Confusable a b ∧ ¬ Confusable b a) ∧
    ((∀ (σ : Type) (controller : RuleController σ) (stack : String → Int) (s : σ) (eport : UInt16)
        (rhost : CString) (iaddr : Option (List Char)) (iaddrlen : Nat) (desc : Option (List Char))
        (desclen : Nat),
        Accepted controller stack s eport rhost b a iaddr iaddrlen desc desclen →
          strcaseeq a b = true) ↔
      ¬ Confusable a b) := by
  have forward := cmp_zero_cases first second
  have backward := cmp_zero_cases second first
  constructor
  · constructor
    · intro both
      obtain ⟨exactly, same⟩ := both
      constructor
      · intro confusable
        have other := confusable_other first second confusable
        rw [exactly.mp (forward.mpr (Or.inr confusable))] at other
        cases other
      · intro confusable
        have other := confusable_other second first confusable
        rw [strcaseeq_symm, exactly.mp (same.trans (backward.mpr (Or.inr confusable)))] at other
        cases other
    · intro neither
      obtain ⟨clear, clear'⟩ := neither
      have here : cmpCaseInsensitive a b = 0 ↔ strcaseeq a b = true := by
        rw [forward]
        exact or_iff_left clear
      have there : cmpCaseInsensitive b a = 0 ↔ strcaseeq a b = true := by
        rw [backward, strcaseeq_symm]
        exact or_iff_left clear'
      refine ⟨here, ?_⟩
      have values := cmp_values a b
      have values' := cmp_values b a
      have equal := here.trans there.symm
      omega
  · constructor
    · intro lookups confusable
      have compared := forward.mpr (Or.inr confusable)
      have same := lookups Unit (answering a) (fun _ => 0) () 80 [] (some []) 0 (some []) 0
        (answering_accepted (bytes_plain first) compared [] [])
      rw [confusable_other first second confusable] at same
      cases same
    · intro clear σ controller stack s eport rhost iaddr iaddrlen desc desclen accepted
      rcases forward.mp (accepted_compared accepted) with same | confusable
      · exact same
      · exact absurd confusable clear

theorem protocols_compared_tcp :
    ((cmpCaseInsensitive "tcp".toList "TCP".toList = 0 ↔
        strcaseeq "tcp".toList "TCP".toList = true) ∧
      cmpCaseInsensitive "tcp".toList "TCP".toList =
        cmpCaseInsensitive "TCP".toList "tcp".toList) := by
  have first : Bytes "tcp".toList := by
    intro c member
    have all : "tcp".toList.all (fun c => 0 < c.toNat ∧ c.toNat < 256) = true := by decide
    exact of_decide_eq_true (List.all_eq_true.mp all c member)
  have second : Bytes "TCP".toList := by
    intro c member
    have all : "TCP".toList.all (fun c => 0 < c.toNat ∧ c.toNat < 256) = true := by decide
    exact of_decide_eq_true (List.all_eq_true.mp all c member)
  have letters : ∀ t ∈ ["tcp".toList, "TCP".toList], ∀ c ∈ t,
      65 ≤ c.toNat ∧ c.toNat ≤ 90 ∨ 97 ≤ c.toNat ∧ c.toNat ≤ 122 := by
    intro t member c inside
    have all : ["tcp".toList, "TCP".toList].all (fun t => t.all fun c =>
        65 ≤ c.toNat ∧ c.toNat ≤ 90 ∨ 97 ≤ c.toNat ∧ c.toNat ≤ 122) = true := by decide
    exact of_decide_eq_true (List.all_eq_true.mp (List.all_eq_true.mp all t member) c inside)
  exact (protocols_compared_iff "tcp".toList "TCP".toList first second).1.mpr
    ⟨letters_not_confusable (letters _ (by simp)), letters_not_confusable (letters _ (by simp))⟩

/-- Any protocol of three letters passes for three brackets, but not the other way round. -/
theorem brackets_taken :
    cmpCaseInsensitive "TCP".toList "[[[".toList = 0 ∧
      strcaseeq "TCP".toList "[[[".toList = false ∧
      cmpCaseInsensitive "[[[".toList "TCP".toList = -1 ∧
      Accepted (answering "TCP".toList) (fun _ => 0) () 80 [] "[[[".toList "TCP".toList
        (some (List.replicate 32 '\x00')) 32 (some (List.replicate 64 '\x00')) 64 := by
  have taken : cmpCaseInsensitive "TCP".toList "[[[".toList = 0 := by decide
  have accepted := answering_accepted (by decide) taken (List.replicate 32 '\x00')
    (List.replicate 64 '\x00')
  rw [List.length_replicate, List.length_replicate] at accepted
  exact ⟨taken, by decide, by decide, accepted⟩

end SdnProtocols
