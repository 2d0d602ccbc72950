import MiniUPnPd.MinixmlReads
import MiniUPnPd.UpnpReplyParse

/-!
SOAP bodies: an envelope around a body around the element of an action, whose arguments are
elements with text. Each tag may have a namespace, attributes in quotes and white space in
all places where XML allows it. What the parser of names and values makes of such a body is
read off the list of its arguments.
-/
namespace SoapBodies
open CText Minixml MinixmlText MinixmlReads UpnpReplyParse Scan Scan.Parse

/-- No character of a name is white space, ends a word or has a meaning in XML. -/
def nameChar (c : Char) : Bool :=
  !wordEnd c && !([':', '=', '<', '!', '?', '\'', '"', '\x00'].contains c)

structure Name where
  text : List Char
  nonempty : text ≠ []
  chars : ∀ c ∈ text, nameChar c = true

/-- A name with its namespace, if there is one. -/
def qname (ns : Option Name) (name : Name) : List Char :=
  match ns with
  | none => name.text
  | some space => space.text ++ ':' :: name.text

structure Spaces where
  text : List Char
  white : White text

/-- An attribute with the white space in front of it. -/
structure Att where
  gap : Spaces
  apart : gap.text ≠ []
  ns : Option Name
  name : Name
  before : Spaces
  after : Spaces
  quote : Char
  quotes : quote = '\'' ∨ quote = '"'
  value : List Char
  inside : quote ∉ value

def Att.text (a : Att) : List Char :=
  a.gap.text ++
    (qname a.ns a.name ++ a.before.text ++
      '=' :: (a.after.text ++ a.quote :: (a.value ++ [a.quote])))

/-- What a tag has around its name, and the white space behind the tag. -/
structure Markup where
  ns : Option Name
  atts : List Att
  last : Spaces

/-- A start tag without the characters that close it. -/
def Markup.opening (m : Markup) (name : Name) : List Char :=
  '<' :: (qname m.ns name ++ (m.atts.flatMap Att.text ++ m.last.text))

def closingTag (m : Markup) (name : Name) (last : Spaces) : List Char :=
  '<' :: '/' :: (qname m.ns name ++ last.text ++ ['>'])

/-- An element with text alone. An empty one may be written with a single tag. -/
structure Argument where
  name : Name
  value : List Char
  textual : '<' ∉ value ∧ '\x00' ∉ value
  markup : Markup
  short : Bool
  shortEmpty : short = true → value = []
  lastEnd : Spaces
  behind : Spaces

def Argument.text (a : Argument) : List Char :=
  (if a.short then a.markup.opening a.name ++ ['/', '>']
    else a.markup.opening a.name ++ '>' :: (a.value ++ closingTag a.markup a.name a.lastEnd)) ++
      a.behind.text

/-- The markup of an element around others, and the white space behind its two tags. -/
structure Level where
  markup : Markup
  inner : Spaces
  lastEnd : Spaces
  behind : Spaces

def Level.opening (l : Level) (name : Name) : List Char :=
  l.markup.opening name ++ '>' :: l.inner.text

def Level.closing (l : Level) (name : Name) : List Char :=
  closingTag l.markup name l.lastEnd ++ l.behind.text

structure Body where
  envelope : Level
  body : Level
  level : Level
  action : Name
  args : List Argument

def envelopeName : Name :=
  ⟨['E', 'n', 'v', 'e', 'l', 'o', 'p', 'e'], List.cons_ne_nil _ _, List.all_eq_true.mp (by decide)⟩

def bodyName : Name :=
  ⟨['B', 'o', 'd', 'y'], List.cons_ne_nil _ _, List.all_eq_true.mp (by decide)⟩

def Body.text (d : Body) : List Char :=
  d.envelope.opening envelopeName ++ (d.body.opening bodyName ++ (d.level.opening d.action ++
    (d.args.flatMap Argument.text ++ (d.level.closing d.action ++
      (d.body.closing bodyName ++ d.envelope.closing envelopeName)))))

section tags
variable {ns : Option Name} {name : Name}

theorem nameChar_goesOn {c : Char} (inside : nameChar c = true) : wordEnd c = false := by
  simp only [nameChar, Bool.and_eq_true, Bool.not_eq_true'] at inside
  exact inside.1

theorem nameChar_other {c : Char} (inside : nameChar c = true) :
    c ≠ ':' ∧ c ≠ '=' ∧ c ≠ '<' ∧ c ≠ '!' ∧ c ≠ '?' ∧ c ≠ '\x00' := by
  simp only [nameChar, Bool.and_eq_true, Bool.not_eq_true', List.contains_eq_mem,
    decide_eq_false_iff_not, List.mem_cons, not_or] at inside
  tauto

/-- A name without a colon is counted up to its end. -/
theorem elementName_plain {w e r : List Char} {c : Char} (i : Nat)
    (inside : ∀ d ∈ w, nameChar d = true) (stop : wordEnd c = true) :
    elementName i e (w ++ c :: r) = pure (i + w.length, e, c :: r) := by
  induction w generalizing i with
  | nil => exact elementName_stop stop
  | cons d w ih =>
    have goesOn := nameChar_goesOn (inside d List.mem_cons_self)
    have rest := ih (i + 1) fun f member => inside f (List.mem_cons_of_mem d member)
    have step : elementName i e (d :: (w ++ c :: r)) = elementName (i + 1) e (w ++ c :: r) := by
      cases w with
      | nil => exact elementName_next goesOn (wordEnd_noColon stop)
      | cons f w => exact elementName_next goesOn (nameChar_other (inside f (by simp))).1
    rw [List.cons_append, step, rest, List.length_cons]
    congr 2
    omega

/-- Up to a colon, nothing of a name counts. -/
theorem elementName_space {w e t : List Char} (i : Nat) (nonempty : w ≠ [])
    (inside : ∀ d ∈ w, nameChar d = true) :
    elementName i e (w ++ ':' :: t) = elementName 0 t t := by
  induction w generalizing i with
  | nil => exact absurd rfl nonempty
  | cons d w ih =>
    have goesOn := nameChar_goesOn (inside d List.mem_cons_self)
    cases w with
    | nil => exact elementName_colon goesOn
    | cons f w =>
      have noColon := (nameChar_other (inside f (by simp))).1
      rw [List.cons_append, List.cons_append, elementName_next goesOn noColon]
      exact ih (i + 1) (by simp) fun g member => inside g (List.mem_cons_of_mem d member)

theorem elementName_qname (ns : Option Name) (name : Name) {c : Char} {r : List Char} (stop : wordEnd c = true) :
    elementName 0 (qname ns name ++ c :: r) (qname ns name ++ c :: r) =
      pure (name.text.length, name.text ++ c :: r, c :: r) := by
  cases ns with
  | none =>
    have read := elementName_plain (e := name.text ++ c :: r) (r := r) 0 name.chars stop
    rw [Nat.zero_add] at read
    exact read
  | some space =>
    have read := elementName_plain (e := name.text ++ c :: r) (r := r) 0 name.chars stop
    rw [Nat.zero_add] at read
    simp only [qname, List.append_assoc, List.cons_append]
    rw [elementName_space 0 space.nonempty space.chars, read]

theorem qname_head (ns : Option Name) (name : Name) :
    ∃ c t, qname ns name = c :: t ∧ nameChar c = true := by
  have first (n : Name) : ∃ c t, n.text = c :: t ∧ nameChar c = true := by
    obtain ⟨c, t, whole⟩ := List.exists_cons_of_ne_nil n.nonempty
    exact ⟨c, t, whole, n.chars c (by simp [whole])⟩
  cases ns with
  | none => exact first name
  | some space =>
    obtain ⟨c, t, whole, inside⟩ := first space
    exact ⟨c, t ++ ':' :: name.text, by simp [qname, whole], inside⟩

theorem qname_other {c : Char} (member : c ∈ qname ns name) : wordEnd c = false ∧ c ≠ '=' := by
  have one (n : Name) (inside : c ∈ n.text) : wordEnd c = false ∧ c ≠ '=' :=
    ⟨nameChar_goesOn (n.chars c inside), (nameChar_other (n.chars c inside)).2.1⟩
  cases ns with
  | none => exact one name member
  | some space =>
    rcases List.mem_append.mp member with early | late
    · exact one space early
    · rcases List.mem_cons.mp late with rfl | inside
      · decide
      · exact one name inside

theorem attributes_spaces {g a : List Char} (gap : White g) (rest : Attributes a) :
    Attributes (g ++ a) := by
  induction g with
  | nil => exact rest
  | cons c g ih =>
    exact .white (gap c List.mem_cons_self)
      (ih fun d member => gap d (List.mem_cons_of_mem c member))

theorem attribute_text (a : Att) :
    Attribute (qname a.ns a.name ++ a.before.text ++
      '=' :: (a.after.text ++ a.quote :: (a.value ++ [a.quote]))) := by
  refine .quoted ⟨?_, ?_⟩ a.after.white a.quotes a.inside
  · intro member
    rcases List.mem_append.mp member with early | late
    · exact (qname_other early).2 rfl
    · exact absurd (a.before.white '=' late) (by decide)
  · intro c head
    obtain ⟨d, t, whole, inside⟩ := qname_head a.ns a.name
    rw [whole, List.cons_append, List.head?_cons, Option.mem_some_iff] at head
    subst head
    exact nameChar_goesOn inside

theorem attributes_text (m : Markup) : Attributes (m.atts.flatMap Att.text ++ m.last.text) := by
  induction m.atts with
  | nil =>
    have alone := attributes_spaces m.last.white .none
    rwa [List.append_nil] at alone
  | cons a atts ih =>
    rw [List.flatMap_cons, List.append_assoc, Att.text, List.append_assoc]
    exact attributes_spaces a.gap.white (.one (attribute_text a) ih)

/-- The first character behind a name in a start tag ends the name. -/
theorem markup_head (m : Markup) {c : Char} {t : List Char} (close : wordEnd c = true) :
    ∃ d r, m.atts.flatMap Att.text ++ m.last.text ++ c :: t = d :: r ∧ wordEnd d = true := by
  have white {d : Char} (gap : isWhiteSpace d = true) : wordEnd d = true := by
    rw [wordEnd, gap]
    rfl
  cases m.atts with
  | nil =>
    cases spaces : m.last.text with
    | nil => exact ⟨c, t, rfl, close⟩
    | cons d g => exact ⟨d, g ++ c :: t, rfl, white (m.last.white d (by simp [spaces]))⟩
  | cons a atts =>
    obtain ⟨d, g, gap⟩ := List.exists_cons_of_ne_nil a.apart
    obtain ⟨r, whole⟩ : ∃ r, (a :: atts).flatMap Att.text ++ m.last.text ++ c :: t = d :: r := by
      simp only [List.flatMap_cons, Att.text, gap, List.cons_append]
      exact ⟨_, rfl⟩
    exact ⟨d, r, whole, white (a.gap.white d (by simp [gap]))⟩

theorem opening_ahead (m : Markup) (name : Name) (t : List Char) : TagAhead (m.opening name ++ t) := by
  obtain ⟨d, r, whole, inside⟩ := qname_head m.ns name
  obtain ⟨-, -, -, noBang, noQuestion, -⟩ := nameChar_other inside
  refine ⟨?_, d, r ++ (m.atts.flatMap Att.text ++ m.last.text) ++ t, ?_, noQuestion⟩
  · rintro ⟨u, start⟩
    simp only [commentOpen, Markup.opening, whole, List.cons_append, List.cons.injEq] at start
    exact noBang start.2.1.symm
  · simp only [Markup.opening, whole, List.cons_append]

/-- A start tag calls for its name, whatever follows. -/
theorem eltRound_opening (m : Markup) (name : Name) {c : Char} (t : List Char) (close : c = '/' ∨ c = '>') :
    eltRound parser (m.opening name ++ c :: t) =
      { calls := .starteltfunc (name.text ++ (m.atts.flatMap Att.text ++ m.last.text ++ c :: t))
            name.text.length :: (if c ≠ '/' then content parser (c :: t) else pure (c :: t)).calls
        result := (if c ≠ '/' then content parser (c :: t) else pure (c :: t)).result } := by
  have stop : wordEnd c = true := by rcases close with rfl | rfl <;> decide
  obtain ⟨d, r, rest, ends⟩ := markup_head m (t := t) stop
  have named := elementName_qname m.ns name (r := r) ends
  have attributes : parseatt parser (d :: r).length (d :: r) = pure (c :: t) := by
    rw [← rest]
    exact eq_pure (parseatt_calls rfl _ _) (parseatt_reads (attributes_text m) close le_rfl)
  have tail : (m.opening name ++ c :: t).tail = qname m.ns name ++ d :: r := by
    rw [← rest]
    simp [Markup.opening]
  have positive : 0 < name.text.length := List.length_pos_iff.mpr name.nonempty
  rw [eltRound_tag (opening_ahead m name (c :: t)), tail, rest]
  unfold tag
  rw [named, pure_then]
  dsimp only
  have started : callIf parser.starteltfunc (Call.starteltfunc (name.text ++ d :: r)
      name.text.length) =
        { calls := [Call.starteltfunc (name.text ++ d :: r) name.text.length]
          result := .ok () } := rfl
  rw [if_pos positive, bind_of_ok started, attributes, pure_then]
  rfl

/-- An end tag is passed with a single call. -/
theorem eltRound_closing (m : Markup) (name : Name) (last : Spaces) (t : List Char) :
    ∃ e k, eltRound parser (closingTag m name last ++ t) =
      { calls := [.endeltfunc e k], result := .ok t } := by
  have noBracket : ∀ c ∈ qname m.ns name ++ last.text, decide (c = '>') = false := by
    intro c member
    have other : c ≠ '>' := by
      rintro rfl
      rcases List.mem_append.mp member with early | late
      · exact absurd (qname_other early).1 (by decide)
      · exact absurd (last.white '>' late) (by decide)
    simpa using other
  have whole : closingTag m name last ++ t =
      '<' :: '/' :: (qname m.ns name ++ last.text ++ '>' :: t) := by
    simp [closingTag]
  have ahead : TagAhead ('<' :: '/' :: (qname m.ns name ++ last.text ++ '>' :: t)) := by
    refine ⟨?_, '/', _, rfl, by decide⟩
    rintro ⟨u, start⟩
    simp [commentOpen] at start
  have moved : (advance 0 ('/' :: (qname m.ns name ++ last.text ++ '>' :: t)) :
      Parse Call (List Char)) = pure (qname m.ns name ++ last.text ++ '>' :: t) := by
    apply eq_pure (advance_calls 0 _)
    refine advance_ok_iff.mpr ⟨rfl, ?_⟩
    rw [List.tail_cons, List.length_append, List.length_cons]
    omega
  have found : (scan 1 0 (here fun c => decide (c = '>')) 0
      (qname m.ns name ++ last.text ++ '>' :: t) : Parse Call (Nat × List Char)) =
        pure (0 + (qname m.ns name ++ last.text).length, '>' :: t) :=
    scan_passes 0 (passes_here_iff.mpr noBracket) rfl (by simp) (by simp) (by simp)
  refine ⟨qname m.ns name ++ last.text ++ '>' :: t, 0 + (qname m.ns name ++ last.text).length, ?_⟩
  rw [whole, eltRound_tag ahead, List.tail_cons]
  unfold tag
  rw [elementName_stop (by decide), pure_then]
  dsimp only
  rw [if_neg (by decide)]
  change endTag parser _ = _
  unfold endTag
  rw [moved, pure_then, found, pure_then]
  rfl

end tags

/-- The name as it is recorded. -/
def Name.key (n : Name) : CString := n.text.take 63

/-- The data between two tags that no text is kept from. -/
def between (entries : List NameValue) (curelt : CString) (topelt : Bool) : NameValueParserData :=
  { lHead := entries, curelt, portListing := none, topelt, cdata := none, cdatalen := 0 }

section runs
variable {entries : List NameValue} {curelt : CString} {topelt : Bool}

theorem name_noNul (n : Name) : '\x00' ∉ n.text := fun member =>
  (nameChar_other (n.chars _ member)).2.2.2.2.2 rfl

theorem startElt_between (n : Name) (t : List Char) :
    nameValueParserStartElt (between entries curelt topelt) (n.text ++ t) n.text.length =
      between entries n.key true := by
  have cut : (n.text ++ t).take (min n.text.length 63) = n.text.take 63 := by
    rw [List.take_append_of_le_length (Nat.min_le_left _ _), Nat.min_comm, ← List.take_take,
      List.take_length]
  have text : untilNul (n.text.take 63) = n.text.take 63 :=
    untilNul_text fun member => name_noNul n (List.mem_of_mem_take member)
  simp only [nameValueParserStartElt, between, cut, text, Name.key]

theorem endElt_between (other : curelt ≠ newPortListing) :
    nameValueParserEndElt (between entries curelt topelt) =
      between (if topelt then { name := curelt.take 63, value := [] } :: entries else entries)
        curelt false := by
  cases topelt with
  | false => rfl
  | true => simp [nameValueParserEndElt, between, cdataValue, other]

/-- White space between tags and what an element has inside in front of another. -/
theorem leads_opening (l : Level) (n : Name) {d : Char} {t : List Char} (noSlash : d ≠ '/')
    (noBang : d ≠ '!') :
    Leads (l.opening n ++ '<' :: d :: t) (between entries curelt topelt) ('<' :: d :: t)
      (between entries n.key true) := by
  have noTag : '<' ∉ l.inner.text := fun member => absurd (l.inner.white '<' member) (by decide)
  have noCdata : ¬ CdataAhead ('<' :: d :: t) := by
    rintro ⟨-, u, start⟩
    simp only [cdataOpen, List.cons_append, List.cons.injEq] at start
    exact noBang start.2.1.symm
  have read := eltRound_opening l.markup n (l.inner.text ++ '<' :: d :: t) (.inr rfl)
  rw [if_pos (by decide), content_plain noTag fun _ => noCdata, if_neg fun both => noSlash both.2]
    at read
  have whole : l.opening n ++ '<' :: d :: t =
      l.markup.opening n ++ '>' :: (l.inner.text ++ '<' :: d :: t) := by
    simp [Level.opening]
  rw [whole]
  have run : Leads _ (between entries curelt topelt) _ _ :=
    leads_round (tagAhead_long (opening_ahead l.markup n _)) read
  rw [List.foldl_cons, callback, startElt_between] at run
  exact run

theorem leads_closing (m : Markup) (n : Name) (last behind : Spaces) (t : List Char)
    (other : curelt ≠ newPortListing) :
    Leads (closingTag m n last ++ behind.text ++ t) (between entries curelt topelt) t
      (between (if topelt then { name := curelt.take 63, value := [] } :: entries else entries)
        curelt false) := by
  have noTag : '<' ∉ behind.text := fun member => absurd (behind.white '<' member) (by decide)
  obtain ⟨e, k, read⟩ := eltRound_closing m n last (behind.text ++ t)
  have run : Leads _ (between entries curelt topelt) _ _ :=
    leads_round (by simp [closingTag]) read
  rw [List.foldl_cons, callback, endElt_between other] at run
  rw [List.append_assoc]
  exact leads_trans run (leads_skip noTag)

/-- What is recorded for an argument that is recorded. -/
def Argument.entry (a : Argument) : NameValue := { name := a.name.key, value := a.value.take 127 }

theorem key_listing {n : Name} (other : n.text ≠ newPortListing) : n.key ≠ newPortListing := by
  intro same
  apply other
  have short : n.text.length ≤ 63 := by
    by_contra long
    have length : n.key.length = 63 := by
      rw [Name.key, List.length_take]
      omega
    rw [same] at length
    exact absurd length (by decide)
  rw [← same, Name.key, List.take_of_length_le short]

theorem key_take (n : Name) : n.key.take 63 = n.key := by
  rw [Name.key, List.take_take, Nat.min_self]

/-- The text of an element that ends is what is recorded of it. -/
theorem endElt_text (a : Argument) (t : List Char) (other : a.name.key ≠ newPortListing) :
    nameValueParserEndElt (nameValueParserGetData (between entries a.name.key true)
      (a.value ++ t) a.value.length) = between (a.entry :: entries) a.name.key false := by
  have cut : (a.value ++ t).take (min a.value.length 127) = a.value.take 127 := by
    rw [List.take_append_of_le_length (Nat.min_le_left _ _), Nat.min_comm, ← List.take_take,
      List.take_length]
  have text : untilNul (a.value.take 127) = a.value.take 127 :=
    untilNul_text fun member => a.textual.2 (List.mem_of_mem_take member)
  have got : nameValueParserGetData (between entries a.name.key true) (a.value ++ t)
      a.value.length =
        { between entries a.name.key true with
          cdata := some (a.value ++ t), cdatalen := a.value.length } := if_neg other
  rw [got]
  simp [nameValueParserEndElt, between, cdataValue, other, cut, text, Argument.entry, key_take]

theorem leads_full (a : Argument) (t : List Char) (full : a.short = false)
    (other : a.name.key ≠ newPortListing) :
    Leads (a.text ++ t) (between entries curelt topelt) t
      (between (a.entry :: entries) a.name.key false) := by
  obtain ⟨r, tag⟩ : ∃ r, closingTag a.markup a.name a.lastEnd ++ a.behind.text ++ t =
      '<' :: '/' :: r := ⟨_, rfl⟩
  have noCdata : ¬ CdataAhead ('<' :: '/' :: r) := by
    rintro ⟨-, u, start⟩
    simp [cdataOpen] at start
  have whole : a.text ++ t = a.markup.opening a.name ++ '>' :: (a.value ++ '<' :: '/' :: r) := by
    simp [Argument.text, full, ← tag]
  have noTag : '<' ∉ a.behind.text := fun member => absurd (a.behind.white '<' member) (by decide)
  obtain ⟨e, k, closes⟩ := eltRound_closing a.markup a.name a.lastEnd (a.behind.text ++ t)
  have read := eltRound_opening a.markup a.name (a.value ++ '<' :: '/' :: r) (.inr rfl)
  rw [if_pos (by decide), content_plain a.textual.1 fun _ => noCdata] at read
  have long := tagAhead_long (opening_ahead a.markup a.name
    ('>' :: (a.value ++ '<' :: '/' :: r)))
  rw [whole]
  refine leads_trans (leads_round long read) ?_
  rw [List.append_assoc] at tag
  rw [← tag]
  refine leads_trans (leads_round (by simp [closingTag]) closes) ?_
  have ends : nameValueParserEndElt (List.foldl callback (between entries curelt topelt)
      (.starteltfunc (a.name.text ++ (a.markup.atts.flatMap Att.text ++ a.markup.last.text ++
        '>' :: (a.value ++ '<' :: '/' :: r))) a.name.text.length ::
          (if (0 < a.value.length ∧ parser.datafunc = true) ∧ '/' = '/' then
            [.datafunc (a.value ++ '<' :: '/' :: r) a.value.length] else []))) =
        between (a.entry :: entries) a.name.key false := by
    rw [List.foldl_cons, callback, startElt_between]
    split
    · exact endElt_text a _ other
    · rename_i noText
      have empty : a.value = [] := by simpa [parser] using noText
      rw [List.foldl_nil, endElt_between other]
      simp [Argument.entry, key_take, empty]
  rw [List.foldl_cons, List.foldl_nil, callback, tag, ends]
  exact leads_skip noTag

/-- An element that is a single tag leaves its name and the flag behind. -/
theorem leads_short (a : Argument) (t : List Char) (short : a.short = true) :
    Leads (a.text ++ t) (between entries curelt topelt) t (between entries a.name.key true) := by
  have whole : a.text ++ t =
      a.markup.opening a.name ++ '/' :: ('>' :: (a.behind.text ++ t)) := by
    simp [Argument.text, short]
  have noTag : '<' ∉ '/' :: '>' :: a.behind.text := by
    simp only [List.mem_cons, not_or]
    exact ⟨by decide, by decide, fun member => absurd (a.behind.white '<' member) (by decide)⟩
  have read := eltRound_opening a.markup a.name ('>' :: (a.behind.text ++ t)) (.inl rfl)
  rw [if_neg (by decide)] at read
  have run : Leads _ (between entries curelt topelt) _ _ :=
    leads_round (tagAhead_long (opening_ahead a.markup a.name _)) read
  rw [pure_calls, List.foldl_cons, List.foldl_nil, callback, startElt_between] at run
  rw [whole]
  exact leads_trans run (leads_skip noTag)

/-- An opening bracket with a character of a name behind it. -/
theorem opening_head (m : Markup) (n : Name) (t : List Char) :
    ∃ d r, m.opening n ++ t = '<' :: d :: r ∧ d ≠ '/' ∧ d ≠ '!' := by
  obtain ⟨d, r, whole, inside⟩ := qname_head m.ns n
  refine ⟨d, r ++ (m.atts.flatMap Att.text ++ m.last.text) ++ t, ?_, ?_,
    (nameChar_other inside).2.2.2.1⟩
  · simp [Markup.opening, whole]
  · rintro rfl
    exact absurd (nameChar_goesOn inside) (by decide)

theorem leads_level (l : Level) (n : Name) {t : List Char} {m : Markup} {n' : Name}
    (next : ∃ r, t = m.opening n' ++ r) :
    Leads (l.opening n ++ t) (between entries curelt topelt) t (between entries n.key true) := by
  obtain ⟨r, rfl⟩ := next
  obtain ⟨d, r', whole, noSlash, noBang⟩ := opening_head m n' r
  rw [whole]
  exact leads_opening l n noSlash noBang

theorem argument_opens (a : Argument) (t : List Char) :
    ∃ r, a.text ++ t = a.markup.opening a.name ++ r := by
  unfold Argument.text
  split
  · exact ⟨_, by rw [List.append_assoc, List.append_assoc]⟩
  · exact ⟨_, by rw [List.append_assoc, List.append_assoc]⟩

/-- One argument after the other. What the last single tag leaves behind is overwritten. -/
theorem leads_arguments (args : List Argument) (t : List Char) (entries : List NameValue)
    (curelt : CString) (topelt : Bool) (names : ∀ a ∈ args, a.name.text ≠ newPortListing) :
    ∃ c b, Leads (args.flatMap Argument.text ++ t) (between entries curelt topelt) t
      (between (((args.filter fun a => !a.short).map Argument.entry).reverse ++ entries) c b) := by
  induction args generalizing entries curelt topelt with
  | nil => exact ⟨curelt, topelt, leads_refl⟩
  | cons a args ih =>
    have later : ∀ b ∈ args, b.name.text ≠ newPortListing := fun b member =>
      names b (List.mem_cons_of_mem a member)
    have whole : (a :: args).flatMap Argument.text ++ t =
        a.text ++ (args.flatMap Argument.text ++ t) := by
      rw [List.flatMap_cons, List.append_assoc]
    rw [whole]
    cases spelled : a.short with
    | true =>
      obtain ⟨c, b, rest⟩ := ih entries a.name.key true later
      refine ⟨c, b, leads_trans (leads_short a _ spelled) ?_⟩
      simpa [spelled] using rest
    | false =>
      have other := key_listing (names a List.mem_cons_self)
      obtain ⟨c, b, rest⟩ := ih (a.entry :: entries) a.name.key false later
      refine ⟨c, b, leads_trans (leads_full a _ spelled other) ?_⟩
      simpa [spelled] using rest

/-- The last argument is recorded at its end tag or at that of the action. -/
theorem leads_last (l : Level) (n : Name) (a : Argument) (t : List Char)
    (other : a.name.text ≠ newPortListing) :
    Leads (a.text ++ (l.closing n ++ t)) (between entries curelt topelt) t
      (between (a.entry :: entries) a.name.key false) := by
  have key := key_listing other
  cases spelled : a.short with
  | true =>
    refine leads_trans (leads_short a _ spelled) ?_
    have run : Leads _ (between entries a.name.key true) _ _ :=
      leads_closing l.markup n l.lastEnd l.behind t key
    have empty : a.entry = { name := a.name.key.take 63, value := [] } := by
      simp [Argument.entry, a.shortEmpty spelled, key_take]
    rw [if_pos rfl, ← empty] at run
    exact run
  | false =>
    refine leads_trans (leads_full a _ spelled key) ?_
    exact leads_closing l.markup n l.lastEnd l.behind t key

/-- What an action leaves of its arguments: the last of them and the others that have two tags, the
    last first. -/
theorem leads_action (l : Level) (n : Name) {args init : List Argument} {last : Argument}
    (whole : args = init ++ [last]) (names : ∀ a ∈ args, a.name.text ≠ newPortListing)
    (t : List Char) :
    Leads (args.flatMap Argument.text ++ (l.closing n ++ t)) (between [] curelt topelt) t
      (between (last.entry :: ((init.filter fun a => !a.short).map Argument.entry).reverse)
        last.name.key false) := by
  have lastName := names last (by simp [whole])
  have initNames : ∀ a ∈ init, a.name.text ≠ newPortListing := by
    intro a member
    exact names a (by simp [whole, member])
  obtain ⟨c, b, first⟩ := leads_arguments init (last.text ++ (l.closing n ++ t)) [] curelt topelt
    initNames
  have split : args.flatMap Argument.text ++ (l.closing n ++ t) =
      init.flatMap Argument.text ++ (last.text ++ (l.closing n ++ t)) := by
    simp [whole]
  rw [List.append_nil, ← split] at first
  exact leads_trans first (leads_last l n last t lastName)

theorem level_opens (l : Level) (n : Name) (t : List Char) :
    ∃ r, l.opening n ++ t = l.markup.opening n ++ r :=
  ⟨_, List.append_assoc _ _ _⟩

theorem leads_openings (d : Body) (nonempty : d.args ≠ []) (t : List Char) :
    Leads (d.envelope.opening envelopeName ++ (d.body.opening bodyName ++
        (d.level.opening d.action ++ (d.args.flatMap Argument.text ++ t)))) .cleared
      (d.args.flatMap Argument.text ++ t) (between [] d.action.key true) := by
  obtain ⟨a, args, whole⟩ := List.exists_cons_of_ne_nil nonempty
  have first : ∃ r, d.args.flatMap Argument.text ++ t = a.markup.opening a.name ++ r := by
    rw [whole, List.flatMap_cons, List.append_assoc]
    exact argument_opens a _
  change Leads _ (between [] [] false) _ _
  apply leads_trans (leads_level d.envelope envelopeName (level_opens d.body bodyName _))
  apply leads_trans (leads_level d.body bodyName (level_opens d.level d.action _))
  exact leads_level d.level d.action first

theorem leads_closings (d : Body) (other : curelt ≠ newPortListing) :
    Leads (d.body.closing bodyName ++ (d.envelope.closing envelopeName ++ []))
      (between entries curelt false) [] (between entries curelt false) := by
  have body : Leads _ (between entries curelt false) _ _ :=
    leads_closing d.body.markup bodyName d.body.lastEnd d.body.behind
      (d.envelope.closing envelopeName ++ []) other
  have envelope : Leads _ (between entries curelt false) _ _ :=
    leads_closing d.envelope.markup envelopeName d.envelope.lastEnd d.envelope.behind [] other
  exact leads_trans body envelope

/-- With two tags each, all arguments are left. -/
theorem leads_fields (l : Level) (n : Name) {args : List Argument} (nonempty : args ≠ [])
    (full : ∀ a ∈ args, a.short = false) (names : ∀ a ∈ args, a.name.text ≠ newPortListing)
    (t : List Char) :
    ∃ c, Leads (args.flatMap Argument.text ++ (l.closing n ++ t)) (between [] curelt topelt) t
      (between (args.map Argument.entry).reverse c false) := by
  obtain ⟨init, last, whole⟩ := (List.eq_nil_or_concat' args).resolve_left nonempty
  have kept : (init.filter fun a => !a.short) = init := by
    apply List.filter_eq_self.mpr
    intro a member
    simp [full a (by simp [whole, member])]
  have run : Leads _ (between [] curelt topelt) _ _ := leads_action l n whole names t
  rw [kept] at run
  have all : last.entry :: (init.map Argument.entry).reverse = (args.map Argument.entry).reverse := by
    simp [whole]
  rw [all] at run
  exact ⟨last.name.key, run⟩

/-- The list that is left of a body with arguments. -/
theorem parsed_entries (d : Body) {init : List Argument} {last : Argument}
    (whole : d.args = init ++ [last]) (names : ∀ a ∈ d.args, a.name.text ≠ newPortListing) :
    (parseNameValue d.text).lHead =
      last.entry :: ((init.filter fun a => !a.short).map Argument.entry).reverse := by
  have lastName := names last (by simp [whole])
  have text : d.text = d.envelope.opening envelopeName ++ (d.body.opening bodyName ++
      (d.level.opening d.action ++ (d.args.flatMap Argument.text ++ (d.level.closing d.action ++
        (d.body.closing bodyName ++ (d.envelope.closing envelopeName ++ [])))))) := by
    rw [List.append_nil]
    rfl
  have opened := leads_openings d (by simp [whole]) (d.level.closing d.action ++
    (d.body.closing bodyName ++ (d.envelope.closing envelopeName ++ [])))
  have inner : Leads _ (between [] d.action.key true) _ _ :=
    leads_action d.level d.action whole names
      (d.body.closing bodyName ++ (d.envelope.closing envelopeName ++ []))
  have run := leads_trans opened (leads_trans inner (leads_closings d (key_listing lastName)))
  rw [← text] at run
  rw [leads_parsed run (by simp)]
  rfl

end runs

end SoapBodies
