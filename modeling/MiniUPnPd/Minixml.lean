import MiniUPnPd.Lib.Scan
import MiniUPnPd.Lib.CString

/-!
The XML parser of the SOAP requests. `xmlend` is the end of the list that a pointer is. The
callbacks have no part in the parsing, and are recorded as they are called, each pointer with
its length.
-/
namespace Minixml
open Scan Scan.Parse

def isWhiteSpace (c : Char) : Bool := c = ' ' || c = '\t' || c = '\r' || c = '\n'

/-- What a name and a value without quotes end with. -/
def wordEnd (c : Char) : Bool := isWhiteSpace c || c = '>' || c = '/'

def commentOpen : List Char := ['<', '!', '-', '-']

def commentClose : List Char := ['-', '-', '>']

def cdataOpen : List Char := ['<', '!', '[', 'C', 'D', 'A', 'T', 'A', '[']

def cdataClose : List Char := [']', ']', '>']

inductive Call where
  | starteltfunc (name : List Char) (len : Nat)
  | endeltfunc (name : List Char) (len : Nat)
  | datafunc (data : List Char) (len : Nat)
  | attfunc (attname : List Char) (attnamelen : Nat) (attvalue : List Char) (attvaluelen : Nat)
  deriving DecidableEq

/-- The callbacks of `struct xmlparser` that are set. -/
structure Xmlparser where
  starteltfunc : Bool
  endeltfunc : Bool
  datafunc : Bool
  attfunc : Bool

/-- An attribute, from the first character of its name to the last of its value or the quote
    after it. -/
def parseAttribute (p : Xmlparser) (attname : List Char) : Parse Call (List Char) := do
  let (attnamelen, xml) ← scan 1 0 (here fun c => c = '=' || isWhiteSpace c) 0 attname
  let (_, xml) ← scan 1 0 (here (· = '=')) 0 xml
  let (_, xml) ← scan 1 0 (here (!isWhiteSpace ·)) 0 xml.tail
  let sep ← peek xml
  if sep = '\'' || sep = '"' then
    let attvalue ← advance 0 xml
    let (attvaluelen, xml) ← scan 1 0 (here (· = sep)) 0 attvalue
    callIf p.attfunc (.attfunc attname attnamelen attvalue attvaluelen)
    pure xml
  else
    let attvalue := xml
    let (attvaluelen, xml) ← scan 1 0 (here wordEnd) 0 xml
    callIf p.attfunc (.attfunc attname attnamelen attvalue attvaluelen)
    pure xml

/-- The end of the buffer is the return value -1, upon which `parseelt` returns too. -/
def parseatt (p : Xmlparser) : (fuel : Nat) → List Char → Parse Call (List Char)
  | _, [] => .ended
  | 0, _ => .unfinished
  | fuel + 1, c :: t =>
      if c = '/' || c = '>' then pure (c :: t)
      else if isWhiteSpace c then parseatt p fuel t
      else do
        let xml ← parseAttribute p (c :: t)
        parseatt p fuel xml.tail

/-- The name of an element with its length `i`, which both start anew after a colon. -/
def elementName : Nat → List Char → List Char → Parse Call (Nat × List Char × List Char)
  | _, _, [] => .outside
  | i, elementname, c :: t =>
      if wordEnd c then pure (i, elementname, c :: t)
      else match t with
        | [] => .ended
        | ':' :: t => elementName 0 t t
        | d :: t => elementName (i + 1) elementname (d :: t)

section elementName
variable {i : Nat} {name t : List Char} {c d : Char}

theorem elementName_stop (stop : wordEnd c = true) :
    elementName i name (c :: t) = pure (i, name, c :: t) := by
  rw [elementName.eq_def]
  simp only [stop, if_true]

theorem elementName_last (goesOn : wordEnd c = false) : elementName i name [c] = .ended := by
  rw [elementName.eq_def]
  simp only [goesOn, Bool.false_eq_true, if_false]

theorem elementName_colon (goesOn : wordEnd c = false) :
    elementName i name (c :: ':' :: t) = elementName 0 t t := by
  rw [elementName.eq_def]
  simp only [goesOn, Bool.false_eq_true, if_false]

theorem elementName_next (goesOn : wordEnd c = false) (noColon : d ≠ ':') :
    elementName i name (c :: d :: t) = elementName (i + 1) name (d :: t) := by
  rw [elementName.eq_def]
  simp only [goesOn, Bool.false_eq_true, if_false]

end elementName

/-- What follows the bracket at the end of a start tag, up to the next tag. -/
def content (p : Xmlparser) (xml : List Char) : Parse Call (List Char) := do
  let data ← advance 0 xml
  let (i, xml) ← scan 1 0 (here (!isWhiteSpace ·)) 0 data
  if 12 ≤ xml.length && cdataOpen.isPrefixOf xml then
    let data := xml.drop 9
    let (i, xml) ← scan 3 3 (cdataClose.isPrefixOf ·) 0 data
    callIf (0 < i && p.datafunc) (.datafunc data i)
    let (_, xml) ← scan 1 0 (here (· = '<')) 0 xml
    pure xml
  else
    let (i, xml) ← scan 1 1 (here (· = '<')) i xml
    if 0 < i && p.datafunc then
      let c ← peek xml.tail
      callIf (c = '/') (.datafunc data i)
    pure xml

/-- The name of an end tag, which may have any form, and its bracket. -/
def endTag (p : Xmlparser) (xml : List Char) : Parse Call (List Char) := do
  let elementname ← advance 0 xml
  let (i, xml) ← scan 1 0 (here (· = '>')) 0 elementname
  callIf p.endeltfunc (.endeltfunc elementname i)
  pure xml.tail

/-- A tag, from the character after its opening bracket. -/
def tag (p : Xmlparser) (xml : List Char) : Parse Call (List Char) := do
  let (i, elementname, xml) ← elementName 0 xml xml
  if 0 < i then
    callIf p.starteltfunc (.starteltfunc elementname i)
    let xml ← parseatt p xml.length xml
    let c ← peek xml
    if c ≠ '/' then content p xml else pure xml
  else
    let c ← peek xml
    if c = '/' then endTag p xml else pure xml

/-- From the last character of `<!--` to the one after the comment. -/
def comment (xml : List Char) : Parse Call (List Char) := do
  let xml ← advance 3 xml
  let (_, xml) ← scan 3 3 (commentClose.isPrefixOf ·) 0 xml
  pure (xml.drop 3)

/-- One round of the loop of `parseelt`, with two characters left or more. -/
def eltRound (p : Xmlparser) (xml : List Char) : Parse Call (List Char) :=
  if commentOpen.isPrefixOf xml then comment (xml.drop 3)
  else match xml with
    | '<' :: c :: t => if c = '?' then pure (c :: t) else tag p (c :: t)
    | xml => pure xml.tail

/-- The function returns at the end of the buffer and nowhere else. -/
def parseelt (p : Xmlparser) : (fuel : Nat) → List Char → Parse Call Unit
  | 0, xml => if 2 ≤ xml.length then .unfinished else .ended
  | fuel + 1, xml =>
      if 2 ≤ xml.length then do
        let xml ← eltRound p xml
        parseelt p fuel xml
      else .ended

def parsexml (p : Xmlparser) (buffer : List Char) : Parse Call Unit :=
  parseelt p buffer.length buffer

/-- The pointers of a call with their lengths. -/
def Call.spans : Call → List (List Char × Nat)
  | .starteltfunc name len => [(name, len)]
  | .endeltfunc name len => [(name, len)]
  | .datafunc data len => [(data, len)]
  | .attfunc attname attnamelen attvalue attvaluelen =>
      [(attname, attnamelen), (attvalue, attvaluelen)]

def Call.Inside (buffer : List Char) (c : Call) : Prop :=
  ∀ span ∈ c.spans, span.1 <:+ buffer ∧ span.2 ≤ span.1.length

section inside
variable {p : Xmlparser} {buffer : List Char}

/-- A pointer further on than `xml`, or as far, with a character to read. -/
def Onward (xml r : List Char) : Prop := r <:+ xml ∧ r ≠ []

theorem onward_trans {xml r s : List Char} (first : Onward xml r) (second : Onward r s) :
    Onward xml s :=
  ⟨second.1.trans first.1, second.2⟩

theorem onward_tail {xml r : List Char} (onward : Onward xml r) :
    r.tail <:+ xml ∧ r.tail.length < xml.length := by
  obtain ⟨suffix, nonempty⟩ := onward
  refine ⟨(List.tail_suffix r).trans suffix, ?_⟩
  have shorter := suffix.length_le
  have positive := List.length_pos_iff.mpr nonempty
  rw [List.length_tail]
  omega

theorem scan_onward {inside : Call → Prop} {width margin : Nat} {stop : List Char → Bool} (i : Nat)
    (xml : List Char) :
    Ensures inside (fun a => Onward xml a.2 ∧ a.1 + a.2.length = i + xml.length)
      (scan width margin stop i xml) := by
  apply ensures_weaken (scan_ensures i xml)
  rintro ⟨j, r⟩ ⟨w, rfl, count, nonempty⟩
  refine ⟨⟨List.suffix_append w r, nonempty⟩, ?_⟩
  simp only [List.length_append] at count ⊢
  omega

/-- The name starts at the pointer or after a colon, and ends where the pointer arrives. -/
theorem elementName_ensures {inside : Call → Prop} {i : Nat} {name xml : List Char}
    (behind : xml <:+ name) (count : i + xml.length = name.length) :
    Ensures inside
      (fun a => a.2.1 <:+ name ∧ a.1 + a.2.2.length = a.2.1.length ∧ Onward xml a.2.2)
      (elementName i name xml) := by
  induction i, name, xml using elementName.induct with
  | case1 i name => exact ensures_outside
  | case2 i name c t stop =>
    rw [elementName_stop stop]
    exact ensures_pure ⟨List.suffix_refl _, count, List.suffix_refl _, by simp⟩
  | case3 i name c goesOn =>
    rw [elementName_last (by simpa using goesOn)]
    exact ensures_ended
  | case4 i name c goesOn t ih =>
    rw [elementName_colon (by simpa using goesOn)]
    have further : t <:+ c :: ':' :: t := ⟨[c, ':'], rfl⟩
    apply ensures_weaken (ih (List.suffix_refl _) (by omega))
    rintro ⟨j, e, r⟩ ⟨suffix, length, onward⟩
    exact ⟨suffix.trans (further.trans behind), length, onward.1.trans further, onward.2⟩
  | case5 i name c goesOn d t noColon ih =>
    rw [elementName_next (by simpa using goesOn) (by simpa using noColon)]
    have further : d :: t <:+ c :: d :: t := List.suffix_cons c (d :: t)
    have moved : i + 1 + (d :: t).length = name.length := by
      simp only [List.length_cons] at count ⊢
      omega
    apply ensures_weaken (ih (further.trans behind) moved)
    rintro ⟨j, e, r⟩ ⟨suffix, length, onward⟩
    exact ⟨suffix, length, onward.1.trans further, onward.2⟩

theorem inside_single {ptr : List Char} {len : Nat} {c : Call} (one : c.spans = [(ptr, len)])
    (within : ptr <:+ buffer) (short : len ≤ ptr.length) : c.Inside buffer := by
  intro span member
  rw [one, List.mem_singleton] at member
  subst member
  exact ⟨within, short⟩

theorem content_ensures {xml : List Char} (within : xml <:+ buffer) :
    Ensures (Call.Inside buffer) (· <:+ xml) (content p xml) := by
  unfold content
  apply ensures_bind (advance_ensures 0 xml)
  rintro data ⟨rfl, -⟩
  have inBuffer : xml.tail <:+ buffer := (List.tail_suffix xml).trans within
  apply ensures_bind (scan_onward 0 xml.tail)
  rintro ⟨white, text⟩ ⟨onText, whiteLength⟩
  have onward : text <:+ xml := onText.1.trans (List.tail_suffix xml)
  dsimp only
  split
  · have start : text.drop 9 <:+ xml := (List.drop_suffix 9 text).trans onward
    apply ensures_bind (scan_onward 0 (text.drop 9))
    rintro ⟨i, close⟩ ⟨onClose, length⟩
    apply ensures_bind (ensures_callIf (inside_single rfl (start.trans within) (by omega)))
    rintro - -
    apply ensures_bind (scan_onward 0 close)
    rintro ⟨_, next⟩ ⟨onNext, -⟩
    exact ensures_pure (onNext.1.trans (onClose.1.trans start))
  · apply ensures_bind (scan_onward white text)
    rintro ⟨i, next⟩ ⟨onNext, length⟩
    have arrived : next <:+ xml := onNext.1.trans onward
    dsimp only
    split
    · apply ensures_bind (peek_ensures next.tail)
      rintro c -
      have short : i ≤ xml.tail.length := by
        simp only at length whiteLength
        omega
      apply ensures_bind (ensures_callIf (inside_single rfl inBuffer short))
      rintro - -
      exact ensures_pure arrived
    · exact ensures_pure arrived

/-- A property of the calls of a parser that a buffer is given to. -/
structure Handles (inside : Call → Prop) (p : Xmlparser) (buffer : List Char) : Prop where
  starteltfunc : ∀ name len, name <:+ buffer → len ≤ name.length → inside (.starteltfunc name len)
  endeltfunc : ∀ name len, name <:+ buffer → len ≤ name.length → inside (.endeltfunc name len)
  attfunc : ∀ attname attnamelen attvalue attvaluelen, attname <:+ buffer →
    attnamelen ≤ attname.length → attvalue <:+ buffer → attvaluelen ≤ attvalue.length →
      inside (.attfunc attname attnamelen attvalue attvaluelen)
  content : ∀ xml, xml <:+ buffer → Ensures inside (· <:+ xml) (content p xml)

theorem inside_handles (p : Xmlparser) (buffer : List Char) :
    Handles (Call.Inside buffer) p buffer where
  starteltfunc _ _ within short := inside_single rfl within short
  endeltfunc _ _ within short := inside_single rfl within short
  attfunc _ _ _ _ name nameShort value valueShort := by
    simp only [Call.Inside, Call.spans, List.mem_cons, List.not_mem_nil, or_false,
      forall_eq_or_imp, forall_eq]
    exact ⟨⟨name, nameShort⟩, value, valueShort⟩
  content _ within := content_ensures within

section handled
variable {inside : Call → Prop} (handles : Handles inside p buffer)
include handles

theorem parseAttribute_ensures {xml : List Char} (within : xml <:+ buffer) :
    Ensures inside (Onward xml) (parseAttribute p xml) := by
  unfold parseAttribute
  apply ensures_bind (scan_onward 0 xml)
  rintro ⟨attnamelen, name⟩ ⟨onName, nameLength⟩
  apply ensures_bind (scan_onward 0 name)
  rintro ⟨_, sign⟩ ⟨onSign, -⟩
  apply ensures_bind (scan_onward 0 sign.tail)
  rintro ⟨_, value⟩ ⟨onValue, -⟩
  have onward : Onward xml value :=
    ⟨onValue.1.trans (onward_tail (onward_trans onName onSign)).1, onValue.2⟩
  apply ensures_bind (peek_ensures value)
  rintro sep -
  split
  · apply ensures_bind (advance_ensures 0 value)
    rintro attvalue ⟨rfl, -⟩
    apply ensures_bind (scan_onward 0 value.tail)
    rintro ⟨attvaluelen, quote⟩ ⟨onQuote, valueLength⟩
    have behind : Onward xml quote :=
      ⟨onQuote.1.trans (onward_tail onward).1, onQuote.2⟩
    apply ensures_bind (ensures_callIf ?_)
    · rintro - -
      exact ensures_pure behind
    · exact handles.attfunc _ _ _ _ within (by omega) ((onward_tail onward).1.trans within) (by omega)
  · apply ensures_bind (scan_onward 0 value)
    rintro ⟨attvaluelen, last⟩ ⟨onLast, valueLength⟩
    apply ensures_bind (ensures_callIf ?_)
    · rintro - -
      exact ensures_pure (onward_trans onward onLast)
    · exact handles.attfunc _ _ _ _ within (by omega) (onward.1.trans within) (by omega)

/-- Each round moves the pointer. -/
theorem parseatt_ensures {fuel : Nat} {xml : List Char} (within : xml <:+ buffer)
    (enough : xml.length ≤ fuel) :
    Ensures inside (Onward xml) (parseatt p fuel xml) := by
  induction fuel generalizing xml with
  | zero =>
    have empty := List.length_eq_zero_iff.mp (Nat.le_zero.mp enough)
    subst empty
    exact ensures_ended
  | succ fuel ih =>
    cases xml with
    | nil => exact ensures_ended
    | cons c t =>
      have rest : t <:+ c :: t := List.suffix_cons c t
      have shorter : t.length ≤ fuel := by
        rw [List.length_cons] at enough
        omega
      unfold parseatt
      split_ifs
      · exact ensures_pure ⟨List.suffix_refl _, by simp⟩
      · apply ensures_weaken (ih (rest.trans within) shorter)
        intro r onward
        exact ⟨onward.1.trans rest, onward.2⟩
      · apply ensures_bind (parseAttribute_ensures handles within)
        intro r onward
        obtain ⟨further, less⟩ := onward_tail onward
        apply ensures_weaken (ih (further.trans within) (by omega))
        intro s later
        exact ⟨later.1.trans further, later.2⟩

theorem endTag_ensures {xml : List Char} (within : xml <:+ buffer) :
    Ensures inside (· <:+ xml) (endTag p xml) := by
  unfold endTag
  apply ensures_bind (advance_ensures 0 xml)
  rintro name ⟨rfl, -⟩
  have inBuffer : xml.tail <:+ buffer := (List.tail_suffix xml).trans within
  apply ensures_bind (scan_onward 0 xml.tail)
  rintro ⟨i, bracket⟩ ⟨onBracket, length⟩
  apply ensures_bind (ensures_callIf (handles.endeltfunc _ _ inBuffer (by omega)))
  rintro - -
  exact ensures_pure ((onward_tail onBracket).1.trans (List.tail_suffix xml))

theorem tag_ensures {xml : List Char} (within : xml <:+ buffer) :
    Ensures inside (· <:+ xml) (tag p xml) := by
  unfold tag
  apply ensures_bind (elementName_ensures (List.suffix_refl xml) (Nat.zero_add _))
  rintro ⟨i, name, rest⟩ ⟨nameIn, length, onRest⟩
  have inBuffer : rest <:+ buffer := onRest.1.trans within
  dsimp only
  split
  · have call : inside (.starteltfunc name i) :=
      handles.starteltfunc _ _ (nameIn.trans within) (by dsimp only at length; omega)
    apply ensures_bind (ensures_callIf call)
    rintro - -
    apply ensures_bind (parseatt_ensures handles inBuffer le_rfl)
    intro close onClose
    have further : close <:+ xml := onClose.1.trans onRest.1
    apply ensures_bind (peek_ensures close)
    rintro c -
    split
    · apply ensures_weaken (handles.content close (further.trans within))
      intro next arrived
      exact arrived.trans further
    · exact ensures_pure further
  · apply ensures_bind (peek_ensures rest)
    rintro c -
    split
    · apply ensures_weaken (endTag_ensures handles inBuffer)
      intro next arrived
      exact arrived.trans onRest.1
    · exact ensures_pure onRest.1

omit handles in
theorem comment_ensures (xml : List Char) :
    Ensures inside (· <:+ xml.tail) (comment xml) := by
  unfold comment
  apply ensures_bind (advance_ensures 3 xml)
  rintro start ⟨rfl, -⟩
  apply ensures_bind (scan_onward 0 xml.tail)
  rintro ⟨_, close⟩ ⟨onClose, -⟩
  exact ensures_pure ((List.drop_suffix 3 close).trans onClose.1)

/-- Every round moves the pointer by a character or more. -/
theorem eltRound_ensures {xml : List Char} (within : xml <:+ buffer) :
    Ensures inside (· <:+ xml.tail) (eltRound p xml) := by
  unfold eltRound
  split
  · apply ensures_weaken (comment_ensures (xml.drop 3))
    intro next arrived
    rw [List.tail_drop] at arrived
    have further : xml.drop (3 + 1) <:+ xml.tail := by
      rw [← List.drop_one, Nat.add_comm, ← List.drop_drop]
      exact List.drop_suffix 3 (xml.drop 1)
    exact arrived.trans further
  · split
    · rename_i c t _
      have rest : c :: t <:+ buffer := (List.suffix_cons '<' (c :: t)).trans within
      split
      · exact ensures_pure (List.suffix_refl _)
      · exact tag_ensures handles rest
    · exact ensures_pure (List.suffix_refl _)

theorem parseelt_ensures {fuel : Nat} {xml : List Char} (within : xml <:+ buffer)
    (enough : xml.length ≤ fuel) :
    Ensures inside (fun _ => False) (parseelt p fuel xml) := by
  induction fuel generalizing xml with
  | zero =>
    have short : ¬ 2 ≤ xml.length := by omega
    rw [parseelt, if_neg short]
    exact ensures_ended
  | succ fuel ih =>
    unfold parseelt
    split
    · apply ensures_bind (eltRound_ensures handles within)
      intro next arrived
      have shorter := arrived.length_le
      rw [List.length_tail] at shorter
      exact ih (arrived.trans ((List.tail_suffix xml).trans within)) (by omega)
    · exact ensures_ended

/-- The parser returns, unless it reads outside the buffer. -/
theorem parsexml_ensures : Ensures inside (fun _ => False) (parsexml p buffer) :=
  parseelt_ensures handles (List.suffix_refl _) le_rfl

end handled

end inside

end Minixml
