import MiniUPnPd.Minixml

/-!
The text that the parser goes through, described apart from it: names, attributes and what
follows a start tag. Each part of the parser reads the texts described and no others, and
reads outside the buffer where it is cut short in one of a few ways.
-/
namespace MinixmlText
open Minixml Scan Scan.Parse

def White (g : List Char) : Prop := ∀ c ∈ g, isWhiteSpace c = true

/-- The text of a name, in which each character may be followed by a colon that belongs to
    it. The flag says that there is a character after the last of these colons. -/
inductive TagName : Bool → List Char → Prop where
  | none : TagName false []
  | last {c : Char} (goesOn : wordEnd c = false) : TagName true [c]
  | next {c d : Char} {w : List Char} {named : Bool} (goesOn : wordEnd c = false)
      (noColon : d ≠ ':') (rest : TagName named (d :: w)) : TagName named (c :: d :: w)
  | colon {c : Char} {w : List Char} {named : Bool} (goesOn : wordEnd c = false)
      (rest : TagName named w) : TagName named (c :: ':' :: w)

section names
variable {named : Bool} {w : List Char}

theorem wordEnd_noColon {c : Char} (stop : wordEnd c = true) : c ≠ ':' := by
  intro colon
  subst colon
  exact absurd stop (by decide)

theorem elementName_reads (name : TagName named w) (i : Nat) (e : List Char) {c : Char}
    {r : List Char} (stop : wordEnd c = true) :
    ∃ j e', (elementName i e (w ++ c :: r)).result = .ok (j, e', c :: r) ∧
      (0 < j ↔ if w = [] then 0 < i else named = true) := by
  induction name generalizing i e with
  | none =>
    refine ⟨i, e, ?_, by simp⟩
    rw [List.nil_append, elementName_stop stop, pure_result]
  | last goesOn =>
    refine ⟨i + 1, e, ?_, by simp⟩
    rw [List.singleton_append, elementName_next goesOn (wordEnd_noColon stop),
      elementName_stop stop, pure_result]
  | next goesOn noColon rest ih =>
    obtain ⟨j, e', read, counted⟩ := ih (i + 1) e
    refine ⟨j, e', ?_, by simpa using counted⟩
    rw [List.cons_append, List.cons_append, elementName_next goesOn noColon]
    exact read
  | @colon d w named goesOn rest ih =>
    obtain ⟨j, e', read, counted⟩ := ih 0 (w ++ c :: r)
    refine ⟨j, e', ?_, ?_⟩
    · rw [List.cons_append, List.cons_append, elementName_colon goesOn]
      exact read
    · rw [counted]
      cases rest <;> simp

/-- A name that the buffer ends in. Behind a colon the end is not checked. -/
theorem elementName_cut (name : TagName named w) (i : Nat) (e : List Char) :
    (elementName i e w).result = if named then .ended else .outside := by
  induction name generalizing i e with
  | none => rfl
  | last goesOn =>
    rw [elementName_last goesOn]
    rfl
  | next goesOn noColon rest ih =>
    rw [elementName_next goesOn noColon]
    exact ih (i + 1) e
  | colon goesOn rest ih =>
    rw [elementName_colon goesOn]
    exact ih 0 _

/-- A text begins with a name, or is one. The cases are those of `elementName`, whatever its
    other arguments. -/
theorem tagName_cases (i : Nat) (e s : List Char) :
    (∃ named w c r, TagName named w ∧ wordEnd c = true ∧ s = w ++ c :: r) ∨
      ∃ named, TagName named s := by
  induction i, e, s using elementName.induct with
  | case1 => exact .inr ⟨false, .none⟩
  | case2 i e c t stop => exact .inl ⟨false, [], c, t, .none, stop, rfl⟩
  | case3 i e c goesOn => exact .inr ⟨true, .last (by simpa using goesOn)⟩
  | case4 i e c goesOn t ih =>
    have passed : wordEnd c = false := by simpa using goesOn
    rcases ih with ⟨named, w, d, r, name, stop, rfl⟩ | ⟨named, name⟩
    · exact .inl ⟨named, c :: ':' :: w, d, r, .colon passed name, stop, rfl⟩
    · exact .inr ⟨named, .colon passed name⟩
  | case5 i e c goesOn d t noColon ih =>
    have passed : wordEnd c = false := by simpa using goesOn
    have other : d ≠ ':' := by simpa using noColon
    rcases ih with ⟨named, w, f, r, name, stop, whole⟩ | ⟨named, name⟩
    · left
      cases w with
      | nil =>
        obtain ⟨rfl, rfl⟩ := List.cons.inj whole
        exact ⟨true, [c], d, t, .last passed, stop, rfl⟩
      | cons g w =>
        obtain ⟨rfl, rfl⟩ := List.cons.inj whole
        exact ⟨named, c :: d :: w, f, r, .next passed other name, stop, rfl⟩
    · exact .inr ⟨named, .next passed other name⟩

end names

/-- The name of an attribute, with all that stands before the equals sign. -/
structure AttName (u : List Char) : Prop where
  noSign : '=' ∉ u
  starts : ∀ c ∈ u.head?, wordEnd c = false

/-- An attribute up to its equals sign and the white space behind, then the value with the
    character that ends it. -/
inductive Attribute : List Char → Prop where
  | quoted {u g v : List Char} {q : Char} (name : AttName u) (gap : White g)
      (quote : q = '\'' ∨ q = '"') (inside : q ∉ v) :
      Attribute (u ++ '=' :: (g ++ q :: (v ++ [q])))
  | plain {u g v : List Char} {x : Char} (name : AttName u) (gap : White g)
      (starts : ∀ c ∈ (v ++ [x]).head?, c ≠ '\'' ∧ c ≠ '"' ∧ isWhiteSpace c = false)
      (inside : ∀ c ∈ v, wordEnd c = false) (close : wordEnd x = true) :
      Attribute (u ++ '=' :: (g ++ (v ++ [x])))

inductive Attributes : List Char → Prop where
  | none : Attributes []
  | white {c : Char} {a : List Char} (gap : isWhiteSpace c = true) (rest : Attributes a) :
      Attributes (c :: a)
  | one {x a : List Char} (first : Attribute x) (rest : Attributes a) : Attributes (x ++ a)

section attributes
variable {p : Xmlparser}

/-- Both loops over the name: the first may stop at white space, the second goes on to the
    equals sign. -/
theorem sign_found {ι : Type} {u t : List Char} (noSign : '=' ∉ u) :
    ∃ i r j, (scan 1 0 (here fun c => c = '=' || isWhiteSpace c) 0 (u ++ '=' :: t) :
        Parse ι (Nat × List Char)).result = .ok (i, r) ∧
      (scan 1 0 (here (· = '=')) 0 r : Parse ι (Nat × List Char)).result = .ok (j, '=' :: t) := by
  induction u with
  | nil =>
    refine ⟨0, '=' :: t, 0, scan_here_iff.mpr ?_, scan_here_iff.mpr ?_⟩
    · exact ⟨[], '=', t, rfl, rfl, rfl, by simp, by simp⟩
    · exact ⟨[], '=', t, rfl, rfl, rfl, by simp, by simp⟩
  | cons d u ih =>
    have noSign' : '=' ∉ u := fun member => noSign (List.mem_cons_of_mem d member)
    have other : d ≠ '=' := by
      rintro rfl
      exact noSign List.mem_cons_self
    by_cases white : isWhiteSpace d = true
    · refine ⟨0, d :: u ++ '=' :: t, (d :: u).length, scan_here_iff.mpr ?_, scan_here_iff.mpr ?_⟩
      · exact ⟨[], d, u ++ '=' :: t, rfl, rfl, rfl, by simp, by simp [white]⟩
      · refine ⟨d :: u, '=', t, rfl, rfl, by simp, ?_, by simp⟩
        intro c member
        have apart : c ≠ '=' := by
          rintro rfl
          exact noSign member
        simpa using apart
    · obtain ⟨i, r, j, first, second⟩ := ih noSign'
      obtain ⟨w, c, s, whole, rfl, -, passed, stops⟩ := scan_here_iff.mp first
      refine ⟨(d :: w).length, c :: s, j, scan_here_iff.mpr ?_, second⟩
      refine ⟨d :: w, c, s, by rw [List.cons_append, whole, List.cons_append], rfl, by simp, ?_,
        stops⟩
      intro f member
      rcases List.mem_cons.mp member with rfl | later
      · simp [other, white]
      · exact passed f later

theorem name_found {s : List Char} {i j : Nat} {r sign : List Char}
    (starts : ∀ c ∈ s.head?, wordEnd c = false)
    (first : (scan 1 0 (here fun c => c = '=' || isWhiteSpace c) 0 s :
      Parse Call (Nat × List Char)).result = .ok (i, r))
    (second : (scan 1 0 (here (· = '=')) 0 r : Parse Call (Nat × List Char)).result =
      .ok (j, sign)) :
    ∃ u t, AttName u ∧ sign = '=' :: t ∧ s = u ++ '=' :: t := by
  obtain ⟨w, c, t, rfl, rfl, -, passed, -⟩ := scan_here_iff.mp first
  obtain ⟨w', c', t', whole, rfl, -, passed', equals⟩ := scan_here_iff.mp second
  have sign : c' = '=' := by simpa using equals
  subst sign
  have name : w ++ c :: t = (w ++ w') ++ '=' :: t' := by rw [whole, List.append_assoc]
  refine ⟨w ++ w', t', ⟨?_, ?_⟩, rfl, name⟩
  · intro member
    rcases List.mem_append.mp member with early | late
    · have other := passed '=' early
      simp at other
    · have other := passed' '=' late
      simp at other
  · intro f head
    apply starts f
    rw [name]
    cases both : w ++ w' with
    | nil => simp [both] at head
    | cons g' rest => simpa [both] using head

/-- The three loops in front of the value. -/
theorem value_found {s : List Char} {i j k : Nat} {r sign value : List Char}
    (starts : ∀ c ∈ s.head?, wordEnd c = false)
    (first : (scan 1 0 (here fun c => c = '=' || isWhiteSpace c) 0 s :
      Parse Call (Nat × List Char)).result = .ok (i, r))
    (second : (scan 1 0 (here (· = '=')) 0 r : Parse Call (Nat × List Char)).result =
      .ok (j, sign))
    (third : (scan 1 0 (here (!isWhiteSpace ·)) 0 sign.tail :
      Parse Call (Nat × List Char)).result = .ok (k, value)) :
    ∃ u g c t, AttName u ∧ White g ∧ value = c :: t ∧ isWhiteSpace c = false ∧
      s = u ++ '=' :: (g ++ c :: t) := by
  obtain ⟨u, t, name, rfl, rfl⟩ := name_found starts first second
  obtain ⟨g, c, rest, whole, rfl, -, gap, solid⟩ := scan_here_iff.mp third
  rw [List.tail_cons] at whole
  subst whole
  refine ⟨u, g, c, rest, name, ?_, rfl, by simpa using solid, rfl⟩
  intro f member
  simpa using gap f member

theorem parseAttribute_ok {s y : List Char} (starts : ∀ c ∈ s.head?, wordEnd c = false)
    (read : (parseAttribute p s).result = .ok y) : ∃ x, Attribute x ∧ s = x ++ y.tail := by
  unfold parseAttribute at read
  obtain ⟨⟨i, r⟩, first, read⟩ := bind_ok_iff.mp read
  obtain ⟨⟨j, sign⟩, second, read⟩ := bind_ok_iff.mp read
  obtain ⟨⟨k, value⟩, third, read⟩ := bind_ok_iff.mp read
  obtain ⟨u, g, c, t, name, gap, rfl, solid, rfl⟩ := value_found starts first second third
  obtain ⟨sep, peeked, read⟩ := bind_ok_iff.mp read
  obtain rfl : c = sep := by simpa [peek] using peeked
  split at read
  · rename_i quote
    obtain ⟨start, moved, read⟩ := bind_ok_iff.mp read
    obtain ⟨⟨l, close⟩, found, read⟩ := bind_ok_iff.mp read
    obtain ⟨-, -, reached⟩ := bind_ok_iff.mp read
    obtain ⟨v, q, rest, whole, rfl, -, inside, same⟩ := scan_here_iff.mp found
    obtain rfl : (q :: rest : List Char) = y := by simpa using reached
    obtain ⟨start_eq, -⟩ := advance_ok_iff.mp moved
    have quote_eq : q = c := by simpa using same
    subst start_eq quote_eq whole
    refine ⟨u ++ '=' :: (g ++ q :: (v ++ [q])), .quoted name gap (by simpa using quote) ?_, ?_⟩
    · intro member
      have other := inside q member
      simp at other
    · simp
  · rename_i noQuote
    obtain ⟨⟨l, close⟩, found, read⟩ := bind_ok_iff.mp read
    obtain ⟨-, -, reached⟩ := bind_ok_iff.mp read
    obtain ⟨v, x, rest, whole, rfl, -, inside, close⟩ := scan_here_iff.mp found
    obtain rfl : (x :: rest : List Char) = y := by simpa using reached
    refine ⟨u ++ '=' :: (g ++ (v ++ [x])), .plain name gap ?_ inside close, ?_⟩
    · intro f head
      have first : f = c := by
        cases v with
        | nil => simp_all
        | cons d v => simp_all
      subst first
      simp only [Bool.or_eq_true, decide_eq_true_eq, not_or] at noQuote
      exact ⟨noQuote.1, noQuote.2, solid⟩
    · simp [whole]

/-- The loop over white space, and what it leaves. -/
theorem gap_found {ι : Type} {g t : List Char} {c : Char} (gap : White g)
    (solid : isWhiteSpace c = false) :
    (scan 1 0 (here (!isWhiteSpace ·)) 0 (g ++ c :: t) : Parse ι (Nat × List Char)).result =
      .ok (g.length, c :: t) := by
  apply scan_here_iff.mpr
  refine ⟨g, c, t, rfl, rfl, by simp, ?_, by simp [solid]⟩
  intro d member
  simp [gap d member]

theorem parseAttribute_reads {x : List Char} (text : Attribute x) (r : List Char) :
    ∃ y, (parseAttribute p (x ++ r)).result = .ok y ∧ y.tail = r := by
  cases text with
  | @quoted u g v q name gap quote inside =>
    have whole : u ++ '=' :: (g ++ q :: (v ++ [q])) ++ r =
        u ++ '=' :: (g ++ q :: (v ++ q :: r)) := by simp
    obtain ⟨i, s, j, first, second⟩ :=
      sign_found (ι := Call) (t := g ++ q :: (v ++ q :: r)) name.noSign
    have solid : isWhiteSpace q = false := by rcases quote with rfl | rfl <;> decide
    have third := gap_found (ι := Call) (t := v ++ q :: r) gap solid
    refine ⟨q :: r, ?_, rfl⟩
    rw [whole]
    unfold parseAttribute
    refine bind_ok_iff.mpr ⟨_, first, bind_ok_iff.mpr ⟨_, second, bind_ok_iff.mpr ⟨_, third, ?_⟩⟩⟩
    refine bind_ok_iff.mpr ⟨q, rfl, ?_⟩
    rw [if_pos (by simpa using quote)]
    have moved : (advance 0 (q :: (v ++ q :: r)) : Parse Call (List Char)).result =
        .ok (v ++ q :: r) := by
      refine advance_ok_iff.mpr ⟨rfl, ?_⟩
      rw [List.tail_cons, List.length_append, List.length_cons]
      omega
    refine bind_ok_iff.mpr ⟨_, moved, bind_ok_iff.mpr ⟨(v.length, q :: r), ?_, rfl⟩⟩
    apply scan_here_iff.mpr
    refine ⟨v, q, r, rfl, rfl, by simp, ?_, by simp⟩
    intro d member
    have other : d ≠ q := by
      rintro rfl
      exact inside member
    simpa using other
  | @plain u g v x name gap starts inside close =>
    have whole : u ++ '=' :: (g ++ (v ++ [x])) ++ r = u ++ '=' :: (g ++ (v ++ x :: r)) := by simp
    obtain ⟨c, t, value⟩ : ∃ c t, v ++ x :: r = c :: t := by
      cases v with
      | nil => exact ⟨x, r, rfl⟩
      | cons d v => exact ⟨d, v ++ x :: r, rfl⟩
    have head : c ∈ (v ++ [x]).head? := by
      cases v with
      | nil => simp_all
      | cons d v => simp_all
    obtain ⟨single, double, solid⟩ := starts c head
    obtain ⟨i, s, j, first, second⟩ := sign_found (ι := Call) (t := g ++ c :: t) name.noSign
    have third := gap_found (ι := Call) (t := t) gap solid
    refine ⟨x :: r, ?_, rfl⟩
    rw [whole, value]
    unfold parseAttribute
    refine bind_ok_iff.mpr ⟨_, first, bind_ok_iff.mpr ⟨_, second, bind_ok_iff.mpr ⟨_, third, ?_⟩⟩⟩
    refine bind_ok_iff.mpr ⟨c, rfl, ?_⟩
    rw [if_neg (by simp [single, double])]
    refine bind_ok_iff.mpr ⟨(v.length, x :: r), ?_, rfl⟩
    apply scan_here_iff.mpr
    exact ⟨v, x, r, value.symm, rfl, by simp, inside, close⟩

/-- The one read without a check is the one behind the equals sign. -/
theorem parseAttribute_outside_iff {s : List Char} (nonempty : s ≠ [])
    (starts : ∀ c ∈ s.head?, wordEnd c = false) :
    (parseAttribute p s).result = .outside ↔ ∃ u, AttName u ∧ s = u ++ ['='] := by
  constructor
  · intro read
    unfold parseAttribute at read
    rcases bind_outside_iff.mp read with early | ⟨⟨i, r⟩, first, read⟩
    · rcases (scan_outside_iff 0 s (by simp)).mp early with rfl | short
      · exact absurd rfl nonempty
      · exact absurd (List.length_eq_zero_iff.mp (Nat.lt_one_iff.mp short)) nonempty
    obtain ⟨w, c, t, whole, rfl, -⟩ := scan_here_iff.mp first
    rcases bind_outside_iff.mp read with early | ⟨⟨j, sign⟩, second, read⟩
    · have none := (scan_outside_iff 0 (c :: t) (by simp)).mp early
      simp at none
    rcases bind_outside_iff.mp read with early | ⟨⟨k, value⟩, third, read⟩
    · obtain ⟨u, t', name, rfl, rfl⟩ := name_found starts first second
      have none := (scan_outside_iff 0 _ (by simp)).mp early
      have empty : t' = [] := by simpa using none
      exact ⟨u, name, by rw [empty]⟩
    obtain ⟨u, g, d, t'', name, gap, rfl, solid, rfl⟩ := value_found starts first second third
    exfalso
    rcases bind_outside_iff.mp read with early | ⟨sep, -, read⟩
    · simp [peek] at early
    split at read
    · rcases bind_outside_iff.mp read with early | ⟨start, moved, read⟩
      · exact advance_not_outside early
      · rcases bind_outside_iff.mp read with early | ⟨a, -, read⟩
        · have none := (scan_outside_iff 0 start (by simp)).mp early
          obtain ⟨rfl, long⟩ := advance_ok_iff.mp moved
          rw [List.tail_cons] at long
          rcases none with empty | short
          · simp [empty] at long
          · omega
        · simp [bind_outside_iff] at read
    · rcases bind_outside_iff.mp read with early | ⟨a, -, read⟩
      · have none := (scan_outside_iff 0 _ (by simp)).mp early
        simp at none
      · simp [bind_outside_iff] at read
  · rintro ⟨u, name, rfl⟩
    obtain ⟨i, r, j, first, second⟩ := sign_found (ι := Call) (t := []) name.noSign
    unfold parseAttribute
    refine bind_outside_iff.mpr (.inr ⟨_, first, bind_outside_iff.mpr (.inr ⟨_, second, ?_⟩)⟩)
    exact bind_outside_iff.mpr (.inl rfl)

theorem attribute_starts {x : List Char} (text : Attribute x) :
    ∃ c t, x = c :: t ∧ wordEnd c = false := by
  cases text with
  | @quoted u g v q name =>
    cases u with
    | nil => exact ⟨'=', _, rfl, by decide⟩
    | cons c u => exact ⟨c, _, rfl, name.starts c rfl⟩
  | @plain u g v x name =>
    cases u with
    | nil => exact ⟨'=', _, rfl, by decide⟩
    | cons c u => exact ⟨c, _, rfl, name.starts c rfl⟩

/-- A round of `parseatt` at an attribute. -/
theorem parseatt_attribute {fuel : Nat} {c : Char} {t : List Char} (starts : wordEnd c = false) :
    parseatt p (fuel + 1) (c :: t) = parseAttribute p (c :: t) >>= fun xml =>
      parseatt p fuel xml.tail := by
  simp only [wordEnd, Bool.or_eq_false_iff] at starts
  rw [parseatt, if_neg (by simp [starts]), if_neg (by simp [starts])]

theorem parseatt_white {fuel : Nat} {c : Char} {t : List Char} (white : isWhiteSpace c = true) :
    parseatt p (fuel + 1) (c :: t) = parseatt p fuel t := by
  have inner : ¬ (decide (c = '/') || decide (c = '>')) = true := by
    intro close
    rcases Bool.or_eq_true_iff.mp close with slash | bracket
    · rw [of_decide_eq_true slash] at white
      exact absurd white (by decide)
    · rw [of_decide_eq_true bracket] at white
      exact absurd white (by decide)
  rw [parseatt, if_neg inner, if_pos white]

theorem parseatt_reads {a r : List Char} {c : Char} (text : Attributes a)
    (close : c = '/' ∨ c = '>') {fuel : Nat} (enough : (a ++ c :: r).length ≤ fuel) :
    (parseatt p fuel (a ++ c :: r)).result = .ok (c :: r) := by
  induction text generalizing fuel with
  | none =>
    cases fuel with
    | zero => simp at enough
    | succ fuel =>
      rw [List.nil_append, parseatt, if_pos (by simpa using close)]
      rfl
  | white gap rest ih =>
    cases fuel with
    | zero => simp at enough
    | succ fuel =>
      rw [List.cons_append, parseatt_white gap]
      exact ih (by simpa using enough)
  | @one x a first rest ih =>
    cases fuel with
    | zero => simp at enough
    | succ fuel =>
      obtain ⟨y, read, tail⟩ := parseAttribute_reads (p := p) first (a ++ c :: r)
      obtain ⟨d, t, rfl, starts⟩ := attribute_starts first
      rw [List.append_assoc, List.cons_append, parseatt_attribute starts]
      refine bind_ok_iff.mpr ⟨y, read, ?_⟩
      rw [tail]
      apply ih
      simp only [List.length_append, List.length_cons] at enough ⊢
      omega

/-- Without a callback for attributes nothing is called up to the end of a tag. -/
theorem parseAttribute_calls (unset : p.attfunc = false) (s : List Char) :
    (parseAttribute p s).calls = [] := by
  unfold parseAttribute
  apply bind_calls (scan_calls 0 s)
  rintro ⟨_, name⟩
  apply bind_calls (scan_calls 0 name)
  rintro ⟨_, sign⟩
  apply bind_calls (scan_calls 0 sign.tail)
  rintro ⟨_, value⟩
  apply bind_calls (peek_calls value)
  intro sep
  split
  · apply bind_calls (advance_calls 0 value)
    intro start
    apply bind_calls (scan_calls 0 start)
    rintro ⟨_, close⟩
    apply bind_calls (by simp [callIf, unset])
    intro _
    rfl
  · apply bind_calls (scan_calls 0 value)
    rintro ⟨_, close⟩
    apply bind_calls (by simp [callIf, unset])
    intro _
    rfl

theorem parseatt_calls (unset : p.attfunc = false) (fuel : Nat) (s : List Char) :
    (parseatt p fuel s).calls = [] := by
  induction fuel generalizing s with
  | zero => cases s <;> rfl
  | succ fuel ih =>
    cases s with
    | nil => rfl
    | cons c t =>
      unfold parseatt
      split_ifs
      · rfl
      · exact ih t
      · exact bind_calls (parseAttribute_calls unset (c :: t)) fun xml => ih xml.tail

theorem wordEnd_cases {c : Char} (stop : wordEnd c = true) :
    isWhiteSpace c = true ∨ c = '/' ∨ c = '>' := by
  simp only [wordEnd, Bool.or_eq_true, decide_eq_true_eq] at stop
  rcases stop with (white | bracket) | slash
  · exact .inl white
  · exact .inr (.inr bracket)
  · exact .inr (.inl slash)

theorem parseatt_ok {fuel : Nat} {s y : List Char} (read : (parseatt p fuel s).result = .ok y) :
    ∃ a c r, Attributes a ∧ (c = '/' ∨ c = '>') ∧ s = a ++ c :: r ∧ y = c :: r := by
  induction fuel generalizing s with
  | zero => cases s <;> simp [parseatt] at read
  | succ fuel ih =>
    cases s with
    | nil => simp [parseatt] at read
    | cons c t =>
      by_cases starts : wordEnd c = false
      · rw [parseatt_attribute starts] at read
        obtain ⟨z, first, read⟩ := bind_ok_iff.mp read
        obtain ⟨x, text, whole⟩ := parseAttribute_ok (by simp [starts]) first
        obtain ⟨a, d, r, rest, close, tail, last⟩ := ih read
        refine ⟨x ++ a, d, r, .one text rest, close, ?_, last⟩
        rw [whole, tail, List.append_assoc]
      · rcases wordEnd_cases (by simpa using starts) with white | close
        · rw [parseatt_white white] at read
          obtain ⟨a, d, r, rest, close, rfl, last⟩ := ih read
          exact ⟨c :: a, d, r, .white white rest, close, rfl, last⟩
        · rw [parseatt, if_pos (by simpa using close)] at read
          obtain rfl : c :: t = y := by simpa using read
          exact ⟨[], c, t, .none, close, rfl, rfl⟩

theorem parseatt_outside_iff {fuel : Nat} {s : List Char} (enough : s.length ≤ fuel) :
    (parseatt p fuel s).result = .outside ↔
      ∃ a u, Attributes a ∧ AttName u ∧ s = a ++ (u ++ ['=']) := by
  constructor
  · intro read
    clear enough
    induction fuel generalizing s with
    | zero => cases s <;> simp [parseatt] at read
    | succ fuel ih =>
      cases s with
      | nil => simp [parseatt] at read
      | cons c t =>
        by_cases starts : wordEnd c = false
        · rw [parseatt_attribute starts] at read
          rcases bind_outside_iff.mp read with early | ⟨z, first, read⟩
          · obtain ⟨u, name, whole⟩ :=
              (parseAttribute_outside_iff (by simp) (by simp [starts])).mp early
            exact ⟨[], u, .none, name, whole⟩
          · obtain ⟨x, text, whole⟩ := parseAttribute_ok (by simp [starts]) first
            obtain ⟨a, u, rest, name, tail⟩ := ih read
            refine ⟨x ++ a, u, .one text rest, name, ?_⟩
            rw [whole, tail, List.append_assoc]
        · rcases wordEnd_cases (by simpa using starts) with white | close
          · rw [parseatt_white white] at read
            obtain ⟨a, u, rest, name, rfl⟩ := ih read
            exact ⟨c :: a, u, .white white rest, name, rfl⟩
          · rw [parseatt, if_pos (by simpa using close)] at read
            simp at read
  · rintro ⟨a, u, text, name, rfl⟩
    induction text generalizing fuel with
    | none =>
      cases fuel with
      | zero => simp at enough
      | succ fuel =>
        have nonempty : u ++ ['='] ≠ [] := by simp
        obtain ⟨c, t, whole⟩ := List.exists_cons_of_ne_nil nonempty
        have starts : wordEnd c = false := by
          cases u with
          | nil =>
            obtain ⟨rfl, -⟩ := List.cons.inj whole
            decide
          | cons d u =>
            obtain ⟨rfl, -⟩ := List.cons.inj whole
            exact name.starts d rfl
        have read := (parseAttribute_outside_iff (p := p) nonempty (by simp [whole, starts])).mpr
          ⟨u, name, rfl⟩
        rw [List.nil_append, whole, parseatt_attribute starts, ← whole]
        exact bind_outside_iff.mpr (.inl read)
    | white gap rest ih =>
      cases fuel with
      | zero => simp at enough
      | succ fuel =>
        rw [List.cons_append, parseatt_white gap]
        exact ih (by simpa using enough)
    | @one x a first rest ih =>
      cases fuel with
      | zero => simp at enough
      | succ fuel =>
        obtain ⟨y, read, tail⟩ := parseAttribute_reads (p := p) first (a ++ (u ++ ['=']))
        obtain ⟨d, t, rfl, starts⟩ := attribute_starts first
        rw [List.append_assoc, List.cons_append, parseatt_attribute starts]
        refine bind_outside_iff.mpr (.inr ⟨y, read, ?_⟩)
        rw [tail]
        apply ih
        simp only [List.length_append, List.length_cons] at enough ⊢
        omega

end attributes

def CdataAhead (s : List Char) : Prop := 12 ≤ s.length ∧ cdataOpen <+: s

/-- What follows the bracket of a start tag, up to a bracket with more behind it. -/
inductive Text : List Char → List Char → Prop where
  | plain {t r : List Char} (noTag : '<' ∉ t) (more : r ≠ [])
      (noCdata : White t → ¬ CdataAhead ('<' :: r)) : Text (t ++ '<' :: r) ('<' :: r)
  | cdata {g d t r : List Char} (gap : White g)
      (inside : Passes (cdataClose.isPrefixOf ·) d (t ++ '<' :: r))
      (close : cdataClose <+: t ++ '<' :: r) (noTag : '<' ∉ t) (more : r ≠ []) :
      Text (g ++ (cdataOpen ++ (d ++ (t ++ '<' :: r)))) ('<' :: r)

section content
variable {p : Xmlparser}

theorem here_bracket {r : List Char} (found : here (fun c => decide (c = '<')) r = true) :
    ∃ t, r = '<' :: t := by
  cases r with
  | nil => exact absurd found (by simp [here])
  | cons c t =>
    obtain rfl : c = '<' := by simpa [here] using found
    exact ⟨t, rfl⟩

theorem white_found {s r : List Char} {i : Nat}
    (found : (scan 1 0 (here (!isWhiteSpace ·)) 0 s : Parse Call (Nat × List Char)).result =
      .ok (i, r)) :
    ∃ g c t, White g ∧ isWhiteSpace c = false ∧ s = g ++ c :: t ∧ r = c :: t ∧ i = g.length := by
  obtain ⟨g, c, t, whole, rest, count, gap, solid⟩ := scan_here_iff.mp found
  refine ⟨g, c, t, ?_, by simpa using solid, whole, rest, by simpa using count⟩
  intro d member
  simpa using gap d member

theorem noTag_of_passes {w r : List Char}
    (passed : Passes (here fun c => decide (c = '<')) w r) : '<' ∉ w := by
  intro member
  have other := passes_here_iff.mp passed '<' member
  simp at other

/-- The end of a CDATA section has no opening bracket in it. -/
theorem close_before {t r : List Char} (close : cdataClose <+: t ++ '<' :: r) : 3 ≤ t.length := by
  obtain ⟨u, start⟩ := close
  match t with
  | [] => simp [cdataClose] at start
  | [_] => simp [cdataClose] at start
  | [_, _] => simp [cdataClose] at start
  | _ :: _ :: _ :: t => simp

theorem more_of_length {c : Char} {r : List Char} (more : 2 ≤ (c :: r).length) : r ≠ [] := by
  rintro rfl
  simp at more

theorem white_split (t : List Char) :
    ∃ g w, t = g ++ w ∧ White g ∧ ∀ c ∈ w.head?, isWhiteSpace c = false := by
  refine ⟨t.takeWhile isWhiteSpace, t.dropWhile isWhiteSpace,
    List.takeWhile_append_dropWhile.symm, List.all_eq_true.mp List.all_takeWhile, ?_⟩
  intro c head
  have stops := List.head?_dropWhile_not isWhiteSpace t
  rw [Option.mem_def.mp head] at stops
  simpa using stops

/-- The look at the character behind the bracket is not checked where no text has been passed
    after white space. -/
theorem content_outside {b : Char} {s : List Char} (read : (content p (b :: s)).result = .outside) :
    p.datafunc = true ∧ ∃ g, White g ∧ g ≠ [] ∧ s = g ++ ['<'] := by
  unfold content at read
  rcases bind_outside_iff.mp read with early | ⟨data, moved, read⟩
  · exact absurd early advance_not_outside
  obtain ⟨same, long⟩ := advance_ok_iff.mp moved
  obtain rfl : s = data := same.symm
  rw [List.tail_cons] at long
  rcases bind_outside_iff.mp read with early | ⟨⟨i, xml⟩, first, read⟩
  · have none := (scan_outside_iff 0 s (by simp)).mp early
    rcases none with rfl | short
    · simp at long
    · omega
  obtain ⟨g, c, t, gap, solid, rfl, rfl, rfl⟩ := white_found first
  dsimp only at read
  split at read
  · rename_i cdata
    simp only [Bool.and_eq_true, decide_eq_true_eq] at cdata
    exfalso
    rcases bind_outside_iff.mp read with early | ⟨⟨j, close⟩, found, read⟩
    · have none := (scan_outside_iff 0 _ (by simp)).mp early
      have short : ((c :: t).drop 9).length < 3 := by
        rcases none with empty | short
        · rw [empty]
          simp
        · exact short
      rw [List.length_drop] at short
      omega
    · obtain ⟨-, -, -, -, -, nonempty, -⟩ := scan_ok_iff.mp found
      rcases bind_outside_iff.mp read with early | ⟨_, _, read⟩
      · simp at early
      · rcases bind_outside_iff.mp read with early | ⟨_, _, read⟩
        · have none := (scan_outside_iff 0 close (by simp)).mp early
          rcases none with empty | short
          · exact nonempty empty
          · exact nonempty (List.length_eq_zero_iff.mp (Nat.lt_one_iff.mp short))
        · simp at read
  · rcases bind_outside_iff.mp read with early | ⟨⟨j, xml⟩, found, read⟩
    · have none := (scan_outside_iff g.length (c :: t) (by simp)).mp early
      simp at none
    obtain ⟨w, whole, rfl, -, bracket, -, -, clear⟩ := scan_ok_iff.mp found
    obtain ⟨r, rfl⟩ := here_bracket bracket
    dsimp only at read
    split at read
    · rename_i called
      simp only [Bool.and_eq_true, decide_eq_true_eq] at called
      rcases bind_outside_iff.mp read with early | ⟨d, -, read⟩
      · have last : r = [] := by
          cases r with
          | nil => rfl
          | cons d r => simp [peek] at early
        subst last
        have noText : w = [] := by
          by_contra passed
          have room := clear passed
          simp at room
        subst noText
        obtain ⟨rfl, rfl⟩ := List.cons.inj whole
        refine ⟨called.2, g, gap, ?_, rfl⟩
        rintro rfl
        simp at called
      · simp [bind_outside_iff] at read
    · simp at read

theorem content_cut {b : Char} {g : List Char} (set : p.datafunc = true) (gap : White g)
    (nonempty : g ≠ []) : (content p (b :: (g ++ ['<']))).result = .outside := by
  have long : 0 < g.length := List.length_pos_iff.mpr nonempty
  have moved : (advance 0 (b :: (g ++ ['<'])) : Parse Call (List Char)).result =
      .ok (g ++ ['<']) := advance_ok_iff.mpr ⟨rfl, by simp⟩
  have white := gap_found (ι := Call) (t := []) (c := '<') gap (by decide)
  have stop : (scan 1 1 (here fun c => decide (c = '<')) g.length ['<'] :
      Parse Call (Nat × List Char)).result = .ok (g.length, ['<']) :=
    scan_ok_iff.mpr ⟨[], rfl, rfl, trivial, by decide, by simp, by simp, by simp⟩
  unfold content
  refine bind_outside_iff.mpr (.inr ⟨_, moved, bind_outside_iff.mpr (.inr ⟨_, white, ?_⟩)⟩)
  dsimp only
  rw [if_neg (by simp)]
  refine bind_outside_iff.mpr (.inr ⟨_, stop, ?_⟩)
  dsimp only
  rw [if_pos (by simpa using ⟨long, set⟩)]
  exact bind_outside_iff.mpr (.inl rfl)

theorem content_ok {b : Char} {s y : List Char} (read : (content p (b :: s)).result = .ok y)
    (more : 2 ≤ y.length) : Text s y := by
  unfold content at read
  obtain ⟨data, moved, read⟩ := bind_ok_iff.mp read
  obtain ⟨same, -⟩ := advance_ok_iff.mp moved
  obtain rfl : s = data := same.symm
  obtain ⟨⟨i, xml⟩, first, read⟩ := bind_ok_iff.mp read
  obtain ⟨g, c, t, gap, solid, rfl, rfl, rfl⟩ := white_found first
  dsimp only at read
  split at read
  · rename_i cdata
    simp only [Bool.and_eq_true, decide_eq_true_eq, List.isPrefixOf_iff_prefix] at cdata
    obtain ⟨u, start⟩ := cdata.2
    obtain ⟨⟨j, close⟩, found, read⟩ := bind_ok_iff.mp read
    obtain ⟨-, -, read⟩ := bind_ok_iff.mp read
    obtain ⟨⟨k, next⟩, bracket, reached⟩ := bind_ok_iff.mp read
    obtain rfl : next = y := by simpa using reached
    obtain ⟨d, whole, -, passed, closes, -⟩ := scan_ok_iff.mp found
    obtain ⟨w, rfl, -, passed', stops, -⟩ := scan_ok_iff.mp bracket
    obtain ⟨r, rfl⟩ := here_bracket stops
    have body : c :: t = cdataOpen ++ (d ++ (w ++ '<' :: r)) := by
      rw [← whole, ← start]
      rfl
    have noTag := noTag_of_passes passed'
    rw [body]
    exact .cdata gap passed (List.isPrefixOf_iff_prefix.mp closes) noTag (more_of_length more)
  · rename_i noCdata
    obtain ⟨⟨j, xml⟩, found, read⟩ := bind_ok_iff.mp read
    obtain ⟨w, whole, rfl, passed, bracket, -⟩ := scan_ok_iff.mp found
    obtain ⟨r, rfl⟩ := here_bracket bracket
    have reached : '<' :: r = y := by
      dsimp only at read
      split at read
      · obtain ⟨d, -, read⟩ := bind_ok_iff.mp read
        obtain ⟨-, -, read⟩ := bind_ok_iff.mp read
        simpa using read
      · simpa using read
    subst reached
    have noTag : '<' ∉ g ++ w := by
      intro member
      rcases List.mem_append.mp member with early | late
      · exact absurd (gap '<' early) (by decide)
      · exact noTag_of_passes passed late
    rw [whole, ← List.append_assoc]
    apply Text.plain noTag (more_of_length more)
    intro white ahead
    cases w with
    | nil =>
      rw [List.nil_append] at whole
      rw [whole] at noCdata
      apply noCdata
      simp only [Bool.and_eq_true, decide_eq_true_eq, List.isPrefixOf_iff_prefix]
      exact ahead
    | cons d w =>
      obtain ⟨rfl, -⟩ := List.cons.inj whole
      have also := white c (by simp)
      rw [solid] at also
      exact absurd also (by decide)

/-- Text outside a CDATA section is passed on where an end tag follows it. -/
theorem content_plain {b d : Char} {t r : List Char} (noTag : '<' ∉ t)
    (noCdata : White t → ¬ CdataAhead ('<' :: d :: r)) :
    content p (b :: (t ++ '<' :: d :: r)) =
      { calls := if (0 < t.length ∧ p.datafunc = true) ∧ d = '/' then
          [.datafunc (t ++ '<' :: d :: r) t.length] else []
        result := .ok ('<' :: d :: r) } := by
  obtain ⟨g, w, rfl, gap, starts⟩ := white_split t
  obtain ⟨c, v, body⟩ : ∃ c v, w ++ '<' :: d :: r = c :: v := by
    cases w with
    | nil => exact ⟨'<', d :: r, rfl⟩
    | cons f w => exact ⟨f, w ++ '<' :: d :: r, rfl⟩
  have solid : isWhiteSpace c = false := by
    cases w with
    | nil =>
      obtain ⟨rfl, -⟩ := List.cons.inj body
      decide
    | cons f w =>
      obtain ⟨rfl, -⟩ := List.cons.inj body
      exact starts f rfl
  have whole : g ++ w ++ '<' :: d :: r = g ++ c :: v := by rw [List.append_assoc, body]
  have moved : (advance 0 (b :: (g ++ c :: v)) : Parse Call (List Char)) = pure (g ++ c :: v) := by
    apply eq_pure (advance_calls 0 _)
    refine advance_ok_iff.mpr ⟨rfl, ?_⟩
    rw [List.tail_cons, List.length_append, List.length_cons]
    omega
  have white : (scan 1 0 (here (!isWhiteSpace ·)) 0 (g ++ c :: v) :
      Parse Call (Nat × List Char)) = pure (g.length, c :: v) :=
    eq_pure (scan_calls 0 _) (gap_found gap solid)
  have stop : (scan 1 1 (here fun c => decide (c = '<')) g.length (c :: v) :
      Parse Call (Nat × List Char)) = pure (g.length + w.length, '<' :: d :: r) := by
    rw [← body]
    refine scan_passes g.length (passes_here_iff.mpr ?_) rfl (by simp) (by simp) (by simp)
    intro f member
    have other : f ≠ '<' := by
      rintro rfl
      exact noTag (List.mem_append_right g member)
    simpa using other
  have noCall : ¬ (decide (12 ≤ (c :: v).length) && cdataOpen.isPrefixOf (c :: v)) = true := by
    intro ahead
    simp only [Bool.and_eq_true, decide_eq_true_eq, List.isPrefixOf_iff_prefix] at ahead
    cases w with
    | nil =>
      rw [← body, List.nil_append] at ahead
      exact noCdata (by simpa using gap) ahead
    | cons f w =>
      obtain ⟨rfl, -⟩ := List.cons.inj body
      obtain ⟨u, start⟩ := ahead.2
      obtain ⟨bracket, -⟩ := List.cons.inj start
      apply noTag
      rw [← bracket]
      simp
  rw [whole]
  unfold content
  rw [moved, pure_then, white, pure_then]
  dsimp only
  rw [if_neg noCall, stop, pure_then, ← List.length_append]
  dsimp only
  by_cases called : 0 < (g ++ w).length ∧ p.datafunc = true
  · rw [if_pos (by simpa using called)]
    by_cases slash : d = '/'
    · rw [if_pos ⟨called, slash⟩]
      subst slash
      rfl
    · rw [if_neg fun both => slash both.2]
      have silent : (callIf (decide (d = '/')) (Call.datafunc (g ++ c :: v) (g ++ w).length) :
          Parse Call Unit) = pure () := by
        simp [callIf, slash]
        rfl
      change (callIf (decide (d = '/')) _ >>= fun _ => pure ('<' :: d :: r)) = _
      rw [silent]
      rfl
  · rw [if_neg (by simpa using called), if_neg fun both => called both.1]
    rfl

theorem content_reads {b : Char} {s y : List Char} (text : Text s y) :
    (content p (b :: s)).result = .ok y := by
  cases text with
  | @plain t r noTag more noCdata =>
    obtain ⟨d, r, rfl⟩ := List.exists_cons_of_ne_nil more
    rw [content_plain noTag noCdata]
  | @cdata g d t r gap inside close noTag more =>
    have moved : (advance 0 (b :: (g ++ (cdataOpen ++ (d ++ (t ++ '<' :: r))))) :
        Parse Call (List Char)).result = .ok (g ++ (cdataOpen ++ (d ++ (t ++ '<' :: r)))) := by
      refine advance_ok_iff.mpr ⟨rfl, ?_⟩
      simp only [List.tail_cons, List.length_append, List.length_cons]
      omega
    have white : (scan 1 0 (here (!isWhiteSpace ·)) 0 (g ++ (cdataOpen ++ (d ++ (t ++ '<' :: r)))) :
        Parse Call (Nat × List Char)).result =
          .ok (g.length, cdataOpen ++ (d ++ (t ++ '<' :: r))) := gap_found gap (by decide)
    have long := List.length_pos_iff.mpr more
    have past : 3 ≤ t.length := close_before close
    have closed : (scan 3 3 (cdataClose.isPrefixOf ·) 0 (d ++ (t ++ '<' :: r)) :
        Parse Call (Nat × List Char)).result = .ok (0 + d.length, t ++ '<' :: r) := by
      refine scan_ok_iff.mpr ⟨d, rfl, rfl, inside, List.isPrefixOf_iff_prefix.mpr close, by simp,
        close.length_le, ?_⟩
      intro _
      simp only [List.length_append, List.length_cons]
      omega
    have stop : (scan 1 0 (here fun c => decide (c = '<')) 0 (t ++ '<' :: r) :
        Parse Call (Nat × List Char)).result = .ok (0 + t.length, '<' :: r) := by
      refine scan_ok_iff.mpr ⟨t, rfl, rfl, passes_here_iff.mpr ?_, rfl, by simp, by simp, by simp⟩
      intro c member
      have other : c ≠ '<' := by
        rintro rfl
        exact noTag member
      simpa using other
    have ahead : (decide (12 ≤ (cdataOpen ++ (d ++ (t ++ '<' :: r))).length) &&
        cdataOpen.isPrefixOf (cdataOpen ++ (d ++ (t ++ '<' :: r)))) = true := by
      have start : cdataOpen <+: cdataOpen ++ (d ++ (t ++ '<' :: r)) := List.prefix_append _ _
      have nine : cdataOpen.length = 9 := rfl
      simp only [Bool.and_eq_true, decide_eq_true_eq, List.isPrefixOf_iff_prefix,
        List.length_append, List.length_cons, nine]
      exact ⟨by omega, start⟩
    unfold content
    refine bind_ok_iff.mpr ⟨_, moved, bind_ok_iff.mpr ⟨_, white, ?_⟩⟩
    dsimp only
    rw [if_pos ahead]
    exact bind_ok_iff.mpr ⟨_, closed, bind_ok_iff.mpr ⟨(), rfl, bind_ok_iff.mpr ⟨_, stop, rfl⟩⟩⟩

end content

end MinixmlText
