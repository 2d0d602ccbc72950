import MiniUPnPd.SoapBodies

/-!
Where the values of a SOAP body come from. A value is the text of an element up to the next tag,
or the part of a CDATA section that is left of it.
-/
namespace SoapValues
open CText Minixml MinixmlText Scan Scan.Parse SoapBodies UpnpReplyParse

/-- The data is text without a tag, or what a CDATA section of the buffer has inside. -/
def Lifted (buffer data : List Char) (len : Nat) : Prop :=
  '<' ∉ data.take len ∨ cdataOpen ++ data <:+ buffer ∧ cdataClose <+: data.drop len

def LiftedCall (buffer : List Char) : Call → Prop
  | .datafunc data len => Lifted buffer data len
  | .starteltfunc _ _ | .endeltfunc _ _ | .attfunc _ _ _ _ => True

section calls
variable {p : Xmlparser} {buffer : List Char}

theorem content_lifted {xml : List Char} (within : xml <:+ buffer) :
    Ensures (LiftedCall buffer) (· <:+ xml) (content p xml) := by
  unfold content
  apply ensures_bind (advance_ensures 0 xml)
  rintro data ⟨rfl, -⟩
  have inXml := List.tail_suffix xml
  apply ensures_bind (scan_stops 0 xml.tail)
  rintro ⟨white, text⟩ ⟨gap, whole, count, blank, -, -⟩
  dsimp only at whole count blank
  have onward : text <:+ xml := List.IsSuffix.trans ⟨gap, whole.symm⟩ inXml
  dsimp only
  split
  · rename_i opens
    simp only [Bool.and_eq_true, List.isPrefixOf_iff_prefix] at opens
    obtain ⟨rest, start⟩ := opens.2
    have inner : text.drop 9 = rest := by rw [← start]; rfl
    apply ensures_bind (scan_stops 0 (text.drop 9))
    rintro ⟨i, close⟩ ⟨w, inside, length, -, closed, -⟩
    dsimp only at inside length closed
    have call : LiftedCall buffer (.datafunc (text.drop 9) i) := by
      right
      constructor
      · rw [inner, start]
        exact onward.trans within
      · rw [List.isPrefixOf_iff_prefix] at closed
        rw [inside, length, Nat.zero_add, List.drop_left]
        exact closed
    apply ensures_bind (ensures_callIf call)
    rintro - -
    apply ensures_bind (scan_ensures 0 close)
    rintro ⟨_, next⟩ ⟨v, skipped, -, -⟩
    refine ensures_pure (List.IsSuffix.trans ⟨v, skipped.symm⟩ ?_)
    have inText : close <:+ text.drop 9 := ⟨w, inside.symm⟩
    exact inText.trans ((List.drop_suffix 9 text).trans onward)
  · apply ensures_bind (scan_stops white text)
    rintro ⟨i, next⟩ ⟨w, rest, length, plain, -, -⟩
    dsimp only at rest length plain
    have arrived : next <:+ xml := List.IsSuffix.trans ⟨w, rest.symm⟩ onward
    dsimp only
    split
    · apply ensures_bind (peek_ensures next.tail)
      rintro c -
      have call : LiftedCall buffer (.datafunc xml.tail i) := by
        left
        have cut : xml.tail.take i = gap ++ w := by
          rw [whole, rest, length, count, Nat.zero_add, ← List.length_append, ← List.append_assoc,
            List.take_left]
        rw [cut, List.mem_append, not_or]
        refine ⟨?_, noTag_of_passes plain⟩
        intro member
        have white := passes_here_iff.mp blank '<' member
        exact absurd white (by decide)
      apply ensures_bind (ensures_callIf call)
      rintro - -
      exact ensures_pure arrived
    · exact ensures_pure arrived

theorem lifted_handles (p : Xmlparser) (buffer : List Char) :
    Handles (LiftedCall buffer) p buffer where
  starteltfunc _ _ _ _ := trivial
  endeltfunc _ _ _ _ := trivial
  attfunc _ _ _ _ _ _ _ _ := trivial
  content _ within := content_lifted within

end calls

/-- A value is empty, or was read from such data. -/
def Source (buffer : List Char) (value : CString) : Prop :=
  value = [] ∨ ∃ data len, Lifted buffer data len ∧ value = untilNul (data.take (min len 127))

structure Sourced (buffer : List Char) (data : NameValueParserData) : Prop where
  entries : ∀ nv ∈ data.lHead, Source buffer nv.value
  cdata : ∀ cdata ∈ data.cdata, Lifted buffer cdata data.cdatalen

section values
variable {buffer : List Char} {data : NameValueParserData} {value : CString}

theorem cdataValue_source (sourced : Sourced buffer data) : Source buffer (cdataValue data) := by
  unfold cdataValue
  cases here : data.cdata with
  | none => exact .inl rfl
  | some cdata => exact .inr ⟨cdata, data.cdatalen, sourced.cdata cdata here, rfl⟩

theorem callback_sourced (sourced : Sourced buffer data) {c : Call}
    (lifted : LiftedCall buffer c) : Sourced buffer (callback data c) := by
  cases c with
  | starteltfunc name len => exact ⟨sourced.entries, by simp [callback, nameValueParserStartElt]⟩
  | attfunc _ _ _ _ => exact sourced
  | datafunc datas len =>
    simp only [callback, nameValueParserGetData]
    split
    · exact ⟨sourced.entries, sourced.cdata⟩
    · refine ⟨sourced.entries, ?_⟩
      intro cdata same
      cases same
      exact lifted
  | endeltfunc _ _ =>
    simp only [callback, nameValueParserEndElt]
    split
    · refine ⟨?_, by simp⟩
      intro nv member
      dsimp only at member
      split at member
      · rcases List.mem_cons.mp member with rfl | old
        · exact cdataValue_source sourced
        · exact sourced.entries nv old
      · exact sourced.entries nv member
    · exact sourced

theorem callbacks_sourced {calls : List Call} (lifted : ∀ c ∈ calls, LiftedCall buffer c)
    (sourced : Sourced buffer data) : Sourced buffer (calls.foldl callback data) := by
  induction calls generalizing data with
  | nil => exact sourced
  | cons c calls ih =>
    apply ih fun d member => lifted d (List.mem_cons_of_mem c member)
    exact callback_sourced sourced (lifted c List.mem_cons_self)

theorem parsed_sourced {fuel : Nat} (enough : buffer.length ≤ fuel)
    (sourced : Sourced buffer data) :
    Sourced buffer ((parseelt parser fuel buffer).calls.foldl callback data) := by
  have known := parseelt_ensures (lifted_handles parser buffer) (List.suffix_refl buffer) enough
  exact callbacks_sourced known.calls sourced

theorem source_noNul (source : Source buffer value) : '\x00' ∉ value := by
  intro nul
  rcases source with rfl | ⟨data, len, _, rfl⟩
  · cases nul
  · have other := List.mem_takeWhile_imp nul
    simp at other

theorem parsed_noNul (buffer : List Char) :
    ∀ nv ∈ (parseNameValue buffer).lHead, '\x00' ∉ nv.value := by
  have start : Sourced buffer .cleared := by
    constructor
    · intro nv member
      cases member
    · intro cdata member
      cases member
  intro nv member
  exact source_noNul ((parsed_sourced le_rfl start).entries nv member)

/-- A text around a value has the brackets of no CDATA section, so the value has no tag. -/
theorem source_noTag {pre behind : List Char} (opened : '[' ∉ pre) (closed : ']' ∉ behind)
    (source : Source (pre ++ value ++ behind) value) : '<' ∉ value := by
  rcases source with rfl | ⟨data, len, plain | ⟨⟨u, whole⟩, w, ends⟩, same⟩
  · exact List.not_mem_nil
  · intro tag
    rw [same] at tag
    have inside := (List.takeWhile_prefix _).mem tag
    rw [Nat.min_comm, ← List.take_take] at inside
    exact plain (List.mem_of_mem_take inside)
  · have short : value.length ≤ len := by
      have cut : value.length ≤ (data.take (min len 127)).length := by
        rw [same]
        exact (List.takeWhile_prefix _).length_le
      rw [List.length_take] at cut
      omega
    have bracket : (pre ++ (value ++ behind))[u.length + 2]? = some '[' := by
      rw [← List.append_assoc, ← whole, List.getElem?_append_right (by omega)]
      simp [cdataOpen]
    have close : (pre ++ value ++ behind)[u.length + 9 + len]? = some ']' := by
      have first : data[len]? = some ']' := by
        have head : (data.drop len)[0]? = some ']' := by rw [← ends]; rfl
        rwa [List.getElem?_drop, Nat.add_zero] at head
      have skipped : u.length + 9 + len - u.length - cdataOpen.length = len := by
        simp only [cdataOpen, List.length_cons, List.length_nil]
        omega
      rw [← whole, List.getElem?_append_right (by omega),
        List.getElem?_append_right (by simp [cdataOpen]; omega), skipped]
      exact first
    -- the opening starts in the value at the earliest, and the end is in it at the latest
    have start : pre.length ≤ u.length + 2 := by
      by_contra early
      rw [List.getElem?_append_left (by omega)] at bracket
      exact opened (List.mem_of_getElem? bracket)
    have stop : u.length + 9 + len < (pre ++ value).length := by
      by_contra late
      rw [List.getElem?_append_right (by omega)] at close
      exact closed (List.mem_of_getElem? close)
    rw [List.length_append] at stop
    omega

end values

end SoapValues
