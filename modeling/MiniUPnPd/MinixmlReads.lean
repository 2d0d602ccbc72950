import MiniUPnPd.MinixmlText
import Mathlib.Logic.Relation

/-!
Which buffers the parser reads past the end of: those that end in the middle of a round of its
loop, in one of three places.
-/
namespace MinixmlReads
open Minixml MinixmlText Scan Scan.Parse

/-- A bracket that opens a start tag or an end tag. -/
def TagAhead (s : List Char) : Prop :=
  ¬ commentOpen <+: s ∧ ∃ d t, s = '<' :: d :: t ∧ d ≠ '?'

/-- A tag up to the end of its name. -/
def Opens (named : Bool) (s rest : List Char) : Prop :=
  TagAhead s ∧ ∃ w c r, TagName named w ∧ wordEnd c = true ∧ rest = c :: r ∧ s = '<' :: (w ++ rest)

/-- From one round of the loop to the next. -/
inductive Round : List Char → List Char → Prop where
  | comment {w r : List Char}
      (inside : Passes (commentClose.isPrefixOf ·) w (commentClose ++ r)) (more : r ≠ []) :
      Round (commentOpen ++ (w ++ (commentClose ++ r))) r
  | character {c d : Char} {t : List Char} (other : c ≠ '<' ∨ d = '?') :
      Round (c :: d :: t) (d :: t)
  | blank {s r : List Char} {c : Char} (opens : Opens false s (c :: r)) (noSlash : c ≠ '/') :
      Round s (c :: r)
  | endTag {s n r : List Char} (opens : Opens false s ('/' :: (n ++ '>' :: r)))
      (inside : '>' ∉ n) : Round s r
  | selfClosing {s a r : List Char} (opens : Opens true s (a ++ '/' :: r))
      (atts : Attributes a) : Round s ('/' :: r)
  | startTag {s a t y : List Char} (opens : Opens true s (a ++ '>' :: t)) (atts : Attributes a)
      (text : Text t y) : Round s y

/-- A round that the end of the buffer cuts short in one of three places: behind a colon in the
    name of a tag, behind the equals sign of an attribute, or behind the first bracket after
    white space that follows a start tag, where text is called for. -/
inductive Cut (datafunc : Bool) : List Char → Prop where
  | name {w : List Char} (ahead : TagAhead ('<' :: w)) (colon : TagName false w) :
      Cut datafunc ('<' :: w)
  | att {s a u : List Char} (opens : Opens true s (a ++ (u ++ ['=']))) (atts : Attributes a)
      (name : AttName u) : Cut datafunc s
  | text {s a g : List Char} (called : datafunc = true) (opens : Opens true s (a ++ '>' :: (g ++ ['<'])))
      (atts : Attributes a) (gap : White g) (nonempty : g ≠ []) : Cut datafunc s

section rounds
variable {p : Xmlparser} {s y : List Char}

theorem opens_tail {named : Bool} {rest : List Char} (opens : Opens named s rest) :
    ∃ w c r, s.tail = w ++ c :: r ∧ TagName named w ∧ wordEnd c = true ∧ rest = c :: r := by
  obtain ⟨-, w, c, r, name, stop, rfl, rfl⟩ := opens
  exact ⟨w, c, r, rfl, name, stop, rfl⟩

theorem tag_named {rest : List Char} (opens : Opens true s rest) :
    (tag p s.tail).result = (parseatt p rest.length rest >>= fun xml => peek xml >>= fun c =>
      if c ≠ '/' then content p xml else pure xml).result := by
  obtain ⟨w, c, r, whole, name, stop, rfl⟩ := opens_tail opens
  obtain ⟨j, e, read, counted⟩ := elementName_reads name 0 s.tail (r := r) stop
  rw [← whole] at read
  have positive : 0 < j := by
    rw [counted]
    cases name <;> simp
  unfold tag
  rw [bind_result read]
  dsimp only
  rw [if_pos positive, bind_result (callIf_result _ _)]

theorem tag_unnamed {rest : List Char} (opens : Opens false s rest) :
    (tag p s.tail).result =
      (peek rest >>= fun c => if c = '/' then endTag p rest else pure rest).result := by
  obtain ⟨w, c, r, whole, name, stop, rfl⟩ := opens_tail opens
  obtain ⟨j, e, read, counted⟩ := elementName_reads name 0 s.tail (r := r) stop
  rw [← whole] at read
  have zero : ¬ 0 < j := by
    rw [counted]
    cases name <;> simp
  unfold tag
  rw [bind_result read]
  dsimp only
  rw [if_neg zero]

/-- The name of a tag ends before the buffer does, or with it. -/
theorem tagAhead_cases (ahead : TagAhead s) :
    (∃ named rest, Opens named s rest) ∨ ∃ named w, s = '<' :: w ∧ TagName named w := by
  obtain ⟨d, t, rfl, -⟩ := ahead.2
  rcases tagName_cases 0 [] (d :: t) with ⟨named, w, c, r, name, stop, whole⟩ | ⟨named, name⟩
  · exact .inl ⟨named, c :: r, ahead, w, c, r, name, stop, rfl, by rw [whole]⟩
  · exact .inr ⟨named, d :: t, rfl, name⟩

theorem tag_cut {named : Bool} {w : List Char} (name : TagName named w) :
    (tag p w).result = if named then .ended else .outside := by
  have read := elementName_cut name 0 w
  unfold tag
  change (andThen (elementName 0 w w) _).result = _
  unfold andThen
  rw [read]
  cases named <;> rfl

/-- A start tag is read with all that follows it up to the next. -/
theorem named_outside_iff {rest : List Char} (opens : Opens true s rest) :
    (tag p s.tail).result = .outside ↔
      (∃ a u, Attributes a ∧ AttName u ∧ rest = a ++ (u ++ ['='])) ∨
        p.datafunc = true ∧
          ∃ a g, Attributes a ∧ White g ∧ g ≠ [] ∧ rest = a ++ '>' :: (g ++ ['<']) := by
  rw [tag_named opens]
  constructor
  · intro read
    rcases bind_outside_iff.mp read with early | ⟨xml, first, read⟩
    · exact .inl ((parseatt_outside_iff le_rfl).mp early)
    obtain ⟨a, c, r, atts, close, whole, rfl⟩ := parseatt_ok first
    rw [bind_result rfl] at read
    rcases close with rfl | rfl
    · simp at read
    · rw [if_pos (by decide)] at read
      obtain ⟨called, g, gap, nonempty, rfl⟩ := content_outside read
      exact .inr ⟨called, a, g, atts, gap, nonempty, whole⟩
  · rintro (cut | ⟨called, a, g, atts, gap, nonempty, rfl⟩)
    · exact bind_outside_iff.mpr (.inl ((parseatt_outside_iff le_rfl).mpr cut))
    · rw [bind_result (parseatt_reads atts (.inr rfl) le_rfl), bind_result rfl,
        if_pos (by decide)]
      exact content_cut called gap nonempty

theorem endTag_not_outside {rest : List Char} : (endTag p rest).result ≠ .outside := by
  intro read
  unfold endTag at read
  rcases bind_outside_iff.mp read with early | ⟨name, moved, read⟩
  · exact advance_not_outside early
  obtain ⟨rfl, long⟩ := advance_ok_iff.mp moved
  rcases bind_outside_iff.mp read with early | ⟨_, _, read⟩
  · rcases (scan_outside_iff 0 rest.tail (by simp)).mp early with empty | short
    · simp [empty] at long
    · omega
  · simp [bind_outside_iff] at read

theorem unnamed_not_outside {rest : List Char} (opens : Opens false s rest) :
    (tag p s.tail).result ≠ .outside := by
  obtain ⟨w, c, r, -, -, -, rfl⟩ := opens_tail opens
  rw [tag_unnamed opens, bind_result rfl]
  split
  · exact endTag_not_outside
  · simp

theorem tag_outside_iff (ahead : TagAhead s) :
    (tag p s.tail).result = .outside ↔ Cut p.datafunc s := by
  constructor
  · intro read
    rcases tagAhead_cases ahead with ⟨named, rest, opens⟩ | ⟨named, w, rfl, name⟩
    · cases named with
      | false => exact absurd read (unnamed_not_outside opens)
      | true =>
        rcases (named_outside_iff opens).mp read with
          ⟨a, u, atts, name, rfl⟩ | ⟨called, a, g, atts, gap, nonempty, rfl⟩
        · exact .att opens atts name
        · exact .text called opens atts gap nonempty
    · rw [List.tail_cons, tag_cut name] at read
      cases named with
      | false => exact .name ahead name
      | true => simp at read
  · intro cut
    cases cut with
    | name ahead colon =>
      rw [List.tail_cons, tag_cut colon]
      rfl
    | att opens atts name =>
      exact (named_outside_iff opens).mpr (.inl ⟨_, _, atts, name, rfl⟩)
    | text called opens atts gap nonempty =>
      exact (named_outside_iff opens).mpr (.inr ⟨called, _, _, atts, gap, nonempty, rfl⟩)

/-- The bracket at the end of an end tag is passed. -/
theorem endTag_ok_iff {b : Char} {t : List Char} :
    (endTag p (b :: t)).result = .ok y ↔ ∃ n, '>' ∉ n ∧ t = n ++ '>' :: y := by
  have noBracket (n : List Char) : (∀ c ∈ n, decide (c = '>') = false) ↔ '>' ∉ n := by
    constructor
    · intro apart member
      have other := apart '>' member
      simp at other
    · intro apart c member
      have other : c ≠ '>' := by
        rintro rfl
        exact apart member
      simpa using other
  constructor
  · intro read
    unfold endTag at read
    obtain ⟨name, moved, read⟩ := bind_ok_iff.mp read
    obtain ⟨same, -⟩ := advance_ok_iff.mp moved
    obtain rfl : t = name := same.symm
    obtain ⟨⟨i, xml⟩, found, read⟩ := bind_ok_iff.mp read
    obtain ⟨n, c, r, rfl, rfl, -, inside, close⟩ := scan_here_iff.mp found
    obtain rfl : c = '>' := by simpa using close
    obtain ⟨-, -, reached⟩ := bind_ok_iff.mp read
    obtain rfl : r = y := by simpa using reached
    exact ⟨n, (noBracket n).mp inside, rfl⟩
  · rintro ⟨n, inside, rfl⟩
    have moved : (advance 0 (b :: (n ++ '>' :: y)) : Parse Call (List Char)).result =
        .ok (n ++ '>' :: y) := by
      refine advance_ok_iff.mpr ⟨rfl, ?_⟩
      rw [List.tail_cons, List.length_append, List.length_cons]
      omega
    have found : (scan 1 0 (here fun c => decide (c = '>')) 0 (n ++ '>' :: y) :
        Parse Call (Nat × List Char)).result = .ok (n.length, '>' :: y) :=
      scan_here_iff.mpr ⟨n, '>', y, rfl, rfl, by simp, (noBracket n).mpr inside, by simp⟩
    unfold endTag
    exact bind_ok_iff.mpr ⟨_, moved, bind_ok_iff.mpr ⟨_, found, bind_ok_iff.mpr ⟨(), rfl, rfl⟩⟩⟩

theorem comment_ok_iff {b : Char} {t : List Char} :
    (comment (b :: t)).result = .ok y ↔
      y ≠ [] ∧ ∃ w, Passes (commentClose.isPrefixOf ·) w (commentClose ++ y) ∧
        t = w ++ (commentClose ++ y) := by
  have three : commentClose.length = 3 := rfl
  constructor
  · intro read
    unfold comment at read
    obtain ⟨start, moved, read⟩ := bind_ok_iff.mp read
    obtain ⟨same, long⟩ := advance_ok_iff.mp moved
    obtain rfl : t = start := same.symm
    obtain ⟨⟨i, xml⟩, found, reached⟩ := bind_ok_iff.mp read
    obtain ⟨w, rfl, -, passed, close, -, -, clear⟩ := scan_ok_iff.mp found
    obtain ⟨r, rfl⟩ := List.isPrefixOf_iff_prefix.mp close
    obtain rfl : r = y := by simpa [commentClose] using reached
    refine ⟨?_, w, passed, rfl⟩
    rintro rfl
    cases w with
    | nil => simp [three] at long
    | cons c w =>
      have room := clear (by simp)
      simp [three] at room
  · rintro ⟨more, w, passed, rfl⟩
    have positive := List.length_pos_iff.mpr more
    have moved : (advance 3 (b :: (w ++ (commentClose ++ y))) : Parse Call (List Char)).result =
        .ok (w ++ (commentClose ++ y)) := by
      refine advance_ok_iff.mpr ⟨rfl, ?_⟩
      simp only [List.tail_cons, List.length_append, three]
      omega
    have found : (scan 3 3 (commentClose.isPrefixOf ·) 0 (w ++ (commentClose ++ y)) :
        Parse Call (Nat × List Char)).result = .ok (0 + w.length, commentClose ++ y) := by
      refine scan_ok_iff.mpr ⟨w, rfl, rfl, passed, ?_, by simp [commentClose], ?_, ?_⟩
      · exact List.isPrefixOf_iff_prefix.mpr (List.prefix_append commentClose y)
      · simp [three]
      · intro _
        simp only [List.length_append, three]
        omega
    unfold comment
    exact bind_ok_iff.mpr ⟨_, moved, bind_ok_iff.mpr ⟨_, found, rfl⟩⟩

theorem comment_not_outside {xml : List Char} : (comment xml).result ≠ .outside := by
  intro read
  unfold comment at read
  rcases bind_outside_iff.mp read with early | ⟨start, moved, read⟩
  · exact advance_not_outside early
  obtain ⟨rfl, long⟩ := advance_ok_iff.mp moved
  rcases bind_outside_iff.mp read with early | ⟨_, _, read⟩
  · rcases (scan_outside_iff 0 xml.tail (by simp)).mp early with empty | short
    · simp [empty] at long
    · omega
  · simp at read

/-- What a round is about. -/
theorem eltRound_cases (long : 2 ≤ s.length) :
    (∃ t, s = commentOpen ++ t ∧ eltRound p s = comment ('-' :: t)) ∨
      (TagAhead s ∧ eltRound p s = tag p s.tail) ∨
      ∃ c d t, s = c :: d :: t ∧ (c ≠ '<' ∨ d = '?') ∧ eltRound p s = pure (d :: t) := by
  by_cases start : commentOpen <+: s
  · left
    obtain ⟨t, rfl⟩ := start
    refine ⟨t, rfl, ?_⟩
    unfold eltRound
    rw [if_pos (List.isPrefixOf_iff_prefix.mpr (List.prefix_append commentOpen t))]
    rfl
  · right
    have noComment : ¬ commentOpen.isPrefixOf s = true := by
      rw [List.isPrefixOf_iff_prefix]
      exact start
    match s, long with
    | c :: d :: t, _ =>
      unfold eltRound
      rw [if_neg noComment]
      by_cases bracket : c = '<'
      · subst bracket
        by_cases question : d = '?'
        · exact .inr ⟨'<', d, t, rfl, .inr question, if_pos question⟩
        · exact .inl ⟨⟨start, d, t, rfl, question⟩, if_neg question⟩
      · refine .inr ⟨c, d, t, rfl, .inl bracket, ?_⟩
        split
        · rename_i same
          exact absurd (List.cons.inj same).1 bracket
        · rfl

theorem cut_ahead {datafunc : Bool} (cut : Cut datafunc s) : TagAhead s := by
  cases cut with
  | name ahead _ => exact ahead
  | att opens _ _ => exact opens.1
  | text _ opens _ _ _ => exact opens.1

theorem tagAhead_long (ahead : TagAhead s) : 2 ≤ s.length := by
  obtain ⟨d, t, rfl, -⟩ := ahead.2
  simp

theorem tagAhead_other {c d : Char} {t : List Char} (other : c ≠ '<' ∨ d = '?') :
    ¬ TagAhead (c :: d :: t) := by
  rintro ⟨-, d', t', same, noQuestion⟩
  obtain ⟨rfl, rest⟩ := List.cons.inj same
  obtain ⟨rfl, rfl⟩ := List.cons.inj rest
  rcases other with bracket | question
  · exact bracket rfl
  · exact noQuestion question

theorem eltRound_outside_iff (long : 2 ≤ s.length) :
    (eltRound p s).result = .outside ↔ Cut p.datafunc s := by
  rcases eltRound_cases (p := p) long with
    ⟨t, rfl, same⟩ | ⟨ahead, same⟩ | ⟨c, d, t, rfl, other, same⟩
  · rw [same]
    constructor
    · intro read
      exact absurd read comment_not_outside
    · intro cut
      exact absurd (List.prefix_append commentOpen t) (cut_ahead cut).1
  · rw [same]
    exact tag_outside_iff ahead
  · rw [same]
    constructor
    · intro read
      simp at read
    · intro cut
      exact absurd (cut_ahead cut) (tagAhead_other other)

theorem tag_ok (ahead : TagAhead s) (read : (tag p s.tail).result = .ok y)
    (more : 2 ≤ y.length) : Round s y := by
  rcases tagAhead_cases ahead with ⟨named, rest, opens⟩ | ⟨named, w, rfl, name⟩
  · cases named with
    | true =>
      rw [tag_named opens] at read
      obtain ⟨xml, first, read⟩ := bind_ok_iff.mp read
      obtain ⟨a, c, r, atts, close, rfl, rfl⟩ := parseatt_ok first
      rw [bind_result rfl] at read
      rcases close with rfl | rfl
      · obtain rfl : '/' :: r = y := by simpa using read
        exact .selfClosing opens atts
      · rw [if_pos (by decide)] at read
        exact .startTag opens atts (content_ok read more)
    | false =>
      obtain ⟨w, c, r, -, -, -, rfl⟩ := opens_tail opens
      rw [tag_unnamed opens, bind_result rfl] at read
      split at read
      · rename_i slash
        subst slash
        obtain ⟨n, inside, rfl⟩ := endTag_ok_iff.mp read
        exact .endTag opens inside
      · rename_i noSlash
        obtain rfl : c :: r = y := by simpa using read
        exact .blank opens noSlash
  · rw [List.tail_cons, tag_cut name] at read
    cases named <;> simp at read

theorem eltRound_ok (long : 2 ≤ s.length) (read : (eltRound p s).result = .ok y)
    (more : 2 ≤ y.length) : Round s y := by
  rcases eltRound_cases (p := p) long with
    ⟨t, rfl, same⟩ | ⟨ahead, same⟩ | ⟨c, d, t, rfl, other, same⟩
  · rw [same] at read
    obtain ⟨nonempty, w, inside, rfl⟩ := comment_ok_iff.mp read
    exact .comment inside nonempty
  · rw [same] at read
    exact tag_ok ahead read more
  · rw [same] at read
    obtain rfl : d :: t = y := by simpa using read
    exact .character other

theorem eltRound_tag (ahead : TagAhead s) : eltRound p s = tag p s.tail := by
  rcases eltRound_cases (p := p) (tagAhead_long ahead) with
    ⟨t, rfl, -⟩ | ⟨-, same⟩ | ⟨c, d, t, rfl, other, -⟩
  · exact absurd (List.prefix_append commentOpen t) ahead.1
  · exact same
  · exact absurd ahead (tagAhead_other other)

theorem eltRound_reads (round : Round s y) : (eltRound p s).result = .ok y := by
  cases round with
  | @comment w r inside more =>
    have start : commentOpen.isPrefixOf (commentOpen ++ (w ++ (commentClose ++ y))) = true :=
      List.isPrefixOf_iff_prefix.mpr (List.prefix_append _ _)
    unfold eltRound
    rw [if_pos start]
    exact comment_ok_iff.mpr ⟨more, w, inside, rfl⟩
  | @character c d t other =>
    rcases eltRound_cases (p := p) (s := c :: d :: t) (by simp) with
      ⟨u, same, -⟩ | ⟨ahead, -⟩ | ⟨c', d', t', same, -, reads⟩
    · simp only [commentOpen, List.cons_append, List.cons.injEq] at same
      rcases other with bracket | question
      · exact absurd same.1 bracket
      · rw [question] at same
        exact absurd same.2.1 (by decide)
    · exact absurd ahead (tagAhead_other other)
    · obtain ⟨rfl, rest⟩ := List.cons.inj same
      obtain ⟨rfl, rfl⟩ := List.cons.inj rest
      rw [reads, pure_result]
  | @blank s r c opens noSlash =>
    rw [eltRound_tag opens.1, tag_unnamed opens, bind_result rfl, if_neg noSlash, pure_result]
  | endTag opens inside =>
    rw [eltRound_tag opens.1, tag_unnamed opens, bind_result rfl, if_pos rfl]
    exact endTag_ok_iff.mpr ⟨_, inside, rfl⟩
  | selfClosing opens atts =>
    rw [eltRound_tag opens.1, tag_named opens, bind_result (parseatt_reads atts (.inl rfl) le_rfl),
      bind_result rfl, if_neg (by decide), pure_result]
  | startTag opens atts text =>
    rw [eltRound_tag opens.1, tag_named opens, bind_result (parseatt_reads atts (.inr rfl) le_rfl),
      bind_result rfl, if_pos (by decide)]
    exact content_reads text

/-- A round starts with two characters or more. -/
theorem round_long (round : Round s y) : 2 ≤ s.length := by
  cases round with
  | comment _ _ => simp [commentOpen]
  | character _ => simp
  | blank opens _ => exact tagAhead_long opens.1
  | endTag opens _ => exact tagAhead_long opens.1
  | selfClosing opens _ => exact tagAhead_long opens.1
  | startTag opens _ _ => exact tagAhead_long opens.1

end rounds

/-- The buffer is cut short after some rounds of the loop. -/
def CutShort (datafunc : Bool) (buffer : List Char) : Prop :=
  ∃ r, Relation.ReflTransGen Round buffer r ∧ Cut datafunc r

theorem cutShort_iff {datafunc : Bool} {s : List Char} :
    CutShort datafunc s ↔ Cut datafunc s ∨ ∃ r, Round s r ∧ CutShort datafunc r := by
  constructor
  · rintro ⟨r, run, cut⟩
    rcases Relation.ReflTransGen.cases_head run with rfl | ⟨t, first, rest⟩
    · exact .inl cut
    · exact .inr ⟨t, first, r, rest, cut⟩
  · rintro (cut | ⟨t, first, r, rest, cut⟩)
    · exact ⟨s, .refl, cut⟩
    · exact ⟨r, .head first rest, cut⟩

theorem cutShort_long {datafunc : Bool} {s : List Char} (short : CutShort datafunc s) :
    2 ≤ s.length := by
  rcases cutShort_iff.mp short with cut | ⟨r, first, -⟩
  · exact tagAhead_long (cut_ahead cut)
  · exact round_long first

theorem parseelt_outside_iff {p : Xmlparser} {fuel : Nat} {s : List Char}
    (enough : s.length ≤ fuel) :
    (parseelt p fuel s).result = .outside ↔ CutShort p.datafunc s := by
  induction fuel generalizing s with
  | zero =>
    have short : ¬ 2 ≤ s.length := by omega
    rw [parseelt, if_neg short]
    constructor
    · intro read
      simp at read
    · intro cut
      exact absurd (cutShort_long cut) short
  | succ fuel ih =>
    by_cases long : 2 ≤ s.length
    · have shorter {y : List Char} (read : (eltRound p s).result = .ok y) : y.length ≤ fuel := by
        have moved := (eltRound_ensures (inside_handles p s) (List.suffix_refl s)).reached y read
        have less := moved.length_le
        rw [List.length_tail] at less
        omega
      rw [parseelt, if_pos long, cutShort_iff, bind_outside_iff, eltRound_outside_iff long]
      apply or_congr_right
      constructor
      · rintro ⟨y, read, later⟩
        have cut := (ih (shorter read)).mp later
        exact ⟨y, eltRound_ok long read (cutShort_long cut), cut⟩
      · rintro ⟨y, round, cut⟩
        have read := eltRound_reads (p := p) round
        exact ⟨y, read, (ih (shorter read)).mpr cut⟩
    · rw [parseelt, if_neg long]
      constructor
      · intro read
        simp at read
      · intro cut
        exact absurd (cutShort_long cut) long

/-- The parser returns without a read outside the buffer, and every pointer that it hands out
    lies inside with its length. -/
structure StaysInside (p : Xmlparser) (buffer : List Char) : Prop where
  returns : (parsexml p buffer).result = .ended
  calls : ∀ c ∈ (parsexml p buffer).calls, c.Inside buffer

theorem staysInside_iff (p : Xmlparser) (buffer : List Char) :
    StaysInside p buffer ↔ ¬ CutShort p.datafunc buffer := by
  have known : Ensures (Call.Inside buffer) (fun _ => False) (parsexml p buffer) :=
    parsexml_ensures (inside_handles p buffer)
  rw [← parseelt_outside_iff (p := p) le_rfl]
  constructor
  · rintro ⟨returns, -⟩ outside
    rw [parsexml, outside] at returns
    simp at returns
  · intro inside
    refine ⟨?_, known.calls⟩
    cases reached : (parsexml p buffer).result with
    | ok a => exact absurd (known.reached a reached) not_false
    | ended => rfl
    | outside => exact absurd reached inside
    | unfinished => exact absurd reached known.finished

/-- A tag that is cut short behind the colon of its name. -/
theorem colon_outside :
    ¬ ∀ (p : Xmlparser) (buffer : List Char), StaysInside p buffer := by
  intro all
  have inside := all ⟨true, true, true, false⟩ ['<', 's', ':']
  exact absurd inside.returns (by decide)

end MinixmlReads
