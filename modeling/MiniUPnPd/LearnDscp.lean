import MiniUPnPd.Lib.CPointer

/-!
The lines that tell which DSCP value an application gets. The name is searched for its closing
quote beyond the end of the line, and numbers are cut to a byte before they are compared. A line
that is accepted although it is not of the documented form has one of these at one of its tokens.
-/
namespace LearnDscp
open CPointer CText

section source

/-- What `app_name` points to. -/
inductive AppName
  | null
  | copy (name : CString)
  | dangling
  | initial
  deriving DecidableEq

def free : AppName → AppName
  | .null => .null
  | _ => .dangling

structure DscpValues where
  appName : AppName
  appNameLen : UInt32
  delay : UInt8
  loss : UInt8
  jitter : UInt8
  dscpValue : UInt8
  deriving DecidableEq

/-- How the function is left before its end. -/
inductive Exit
  | outside
  | refused
  | cleanup (v : DscpValues)

def set_learn_dscp : CString := "set_learn_dscp".toList

/-- The text behind the first token and the opening quote. -/
def readFirst (p : CString) : Except Exit CString :=
  match memeq set_learn_dscp (p.dropWhile isspace) with
  | .error _ => .error .outside
  | .ok false => .error .refused
  | .ok true =>
    match ((p.dropWhile isspace).drop set_learn_dscp.length).dropWhile isspace with
    | '"' :: p => .ok p
    | _ => .error .refused

/-- The name up to the closing quote, which is not searched for its end only. -/
def readName (v : DscpValues) (p : CString) : Except Exit (DscpValues × CString) :=
  match next (p.dropWhile (· ≠ '"')) with
  | .error _ => .error .outside
  | .ok q =>
    let name := p.takeWhile (· ≠ '"')
    .ok ({ v with
      appName := if name.length ≠ 0 then .copy name else .null
      appNameLen := UInt32.ofNat name.length }, q)

/-- The tokens for delay, loss and jitter, each stored by `set`. -/
def readLevel (set : UInt8 → DscpValues) (v : DscpValues) (p : CString) :
    Except Exit (DscpValues × CString) :=
  let p := p.dropWhile isspace
  let q := p.dropWhile Char.isDigit
  if ¬ starts Char.isDigit p then .error (.cleanup v)
  else if starts isspace q then
    let value := UInt8.ofInt (atoi (p.takeWhile Char.isDigit))
    if value ≥ 3 then .error (.cleanup (set value))
    else
      match next q with
      | .error _ => .error .outside
      | .ok p => .ok (set value, p)
  else .error (.cleanup v)

def toupper (c : Char) : Char :=
  if 97 ≤ c.toNat ∧ c.toNat ≤ 122 then Char.ofNat (c.toNat - 32) else c

def isalpha (c : Char) : Bool :=
  (65 ≤ c.toNat && c.toNat ≤ 90) || (97 ≤ c.toNat && c.toNat ≤ 122)

/-- `toupper(*p) == a && toupper(*(p+1)) == b` -/
def pair (a b : Char) (p : CString) : Bool :=
  match p with
  | c :: d :: _ => toupper c = a ∧ toupper d = b
  | _ => false

def afValue (n : Int) : Option UInt8 :=
  if n = 11 then some 10 else if n = 12 then some 12 else if n = 13 then some 14
  else if n = 21 then some 18 else if n = 22 then some 20 else if n = 23 then some 22
  else if n = 31 then some 26 else if n = 32 then some 28 else if n = 33 then some 30
  else if n = 41 then some 34 else if n = 42 then some 36 else if n = 43 then some 38
  else none

def csValue (n : Int) : Option UInt8 :=
  if n = 1 then some 8 else if n = 2 then some 16 else if n = 3 then some 24
  else if n = 4 then some 32 else if n = 5 then some 40 else if n = 6 then some 48
  else if n = 7 then some 56 else none

/-- A class behind its two letters. -/
def readClass (table : Int → Option UInt8) (p : CString) : Option UInt8 :=
  if p = [] then some 0 else if ¬ starts Char.isDigit p then none else table (atoi p)

/-- The value of the last token, which is cut off behind its letters and digits. -/
def readDscp (token : CString) : Option UInt8 :=
  if pair 'A' 'F' token then readClass afValue (token.drop 2)
  else if pair 'C' 'S' token then readClass csValue (token.drop 2)
  else if pair 'E' 'F' token then some 46
  else some (UInt8.ofInt (atoi token))

def isalnum (c : Char) : Bool := c.isDigit || isalpha c

def readLast (v : DscpValues) (p : CString) : Except Exit DscpValues :=
  let p := p.dropWhile isspace
  if ¬ starts Char.isDigit p ∧ ¬ pair 'A' 'F' p ∧ ¬ pair 'C' 'S' p ∧ ¬ pair 'E' 'F' p then
    .error (.cleanup v)
  else
    let q := p.dropWhile isalnum
    if starts isspace q ∨ q = [] then
      match readDscp (p.takeWhile isalnum) with
      | none => .error (.cleanup v)
      | some dscp => .ok { v with dscpValue := dscp }
    else .error (.cleanup v)

def readTokens (v : DscpValues) (p : CString) : Except Exit DscpValues := do
  let p ← readFirst p
  let (v, p) ← readName v p
  let (v, p) ← readLevel (fun delay => { v with delay }) v p
  let (v, p) ← readLevel (fun loss => { v with loss }) v p
  let (v, p) ← readLevel (fun jitter => { v with jitter }) v p
  readLast v p

/-- The return value and the record, if nothing outside the line is read. -/
def readLearnDscpLine (v : DscpValues) (p : CString) : Option (Int × DscpValues) :=
  match readTokens v p with
  | .error .outside => none
  | .error .refused => some (-1, v)
  | .error (.cleanup v) =>
      let v := { v with appName := free v.appName }
      some (-1, { v with appName := .null, appNameLen := 0 })
  | .ok v => some (0, v)

end source

section form

/-- `s` is behind the keyword and the opening quote. -/
def Opening (line s : CString) : Prop :=
  ∃ lead sp, White lead ∧ White sp ∧ line = lead ++ (set_learn_dscp ++ (sp ++ '"' :: s))

/-- The name, and what is behind the closing quote. -/
def Named (s name rest : CString) : Prop := s = name ++ '"' :: rest ∧ '"' ∉ name

/-- A number between white space; `rest` is behind the first character after it. -/
def Level (s digits rest : CString) : Prop :=
  ∃ sp c, White sp ∧ Decimal digits ∧ isspace c = true ∧ s = sp ++ (digits ++ c :: rest)

def DscpStart (token : CString) : Prop :=
  starts Char.isDigit token ∨ pair 'A' 'F' token ∨ pair 'C' 'S' token ∨ pair 'E' 'F' token

/-- The last token, of letters and digits, and what is behind it. -/
def Last (s token rest : CString) : Prop :=
  ∃ sp, White sp ∧ DscpStart token ∧ Span isalnum token rest ∧
    (∀ c ∈ rest.head?, isspace c = true) ∧ s = sp ++ (token ++ rest)

/-- The tokens of a line, with what is behind the last one. -/
structure Tokens where
  name : CString
  delay : CString
  loss : CString
  jitter : CString
  dscp : CString
  rest : CString

def HasTokens (line : CString) (t : Tokens) : Prop :=
  ∃ s₁ s₂ s₃ s₄ s₅, Opening line s₁ ∧ Named s₁ t.name s₂ ∧ Level s₂ t.delay s₃ ∧
    Level s₃ t.loss s₄ ∧ Level s₄ t.jitter s₅ ∧ Last s₅ t.dscp t.rest

/-- A number up to 63, a class selector, expedited or assured forwarding. -/
inductive DscpWritten : CString → UInt8 → Prop
  | number {ds : CString} (decimal : Decimal ds) (small : digitsValue ds ≤ 63) :
      DscpWritten ds (UInt8.ofNat (digitsValue ds))
  | cs {c s : Char} {n : Nat} (first : toupper c = 'C') (second : toupper s = 'S') (small : n ≤ 7) :
      DscpWritten (c :: s :: utoa n) (UInt8.ofNat (8 * n))
  | ef {e f : Char} (first : toupper e = 'E') (second : toupper f = 'F') : DscpWritten [e, f] 46
  | af {a f : Char} {i j : Nat} (first : toupper a = 'A') (second : toupper f = 'F')
      (class' : 1 ≤ i ∧ i ≤ 4) (drop' : 1 ≤ j ∧ j ≤ 3) :
      DscpWritten (a :: f :: utoa (10 * i + j)) (UInt8.ofNat (8 * i + 2 * j))

/-- What the line says. -/
def stored (t : Tokens) (dscp : UInt8) : DscpValues :=
  { appName := if t.name.length ≠ 0 then .copy t.name else .null
    appNameLen := UInt32.ofNat t.name.length
    delay := UInt8.ofNat (digitsValue t.delay)
    loss := UInt8.ofNat (digitsValue t.loss)
    jitter := UInt8.ofNat (digitsValue t.jitter)
    dscpValue := dscp }

/-- A line of the documented form, with its values. -/
def Written (line : CString) (v : DscpValues) : Prop :=
  ∃ t dscp, HasTokens line t ∧ digitsValue t.delay ≤ 2 ∧ digitsValue t.loss ≤ 2 ∧
    digitsValue t.jitter ≤ 2 ∧ DscpWritten t.dscp dscp ∧ White t.rest ∧ v = stored t dscp

/-- Only such lines are accepted, with their values, and a line that is refused leaves no pointer
    to a name. -/
def ReadsRight (line : CString) : Prop :=
  ∀ v, ∃ ret v', readLearnDscpLine v line = some (ret, v') ∧
    (ret = 0 ∧ Written line v' ∨
      ret = -1 ∧ (v'.appName = .null ∨ v'.appName = v.appName))

/-- What `memcmp` compares is longer than the line, or the name has no closing quote. -/
def RunsOff (line : CString) : Prop :=
  (line.dropWhile isspace).length + 1 < set_learn_dscp.length ∨ ∃ s, Opening line s ∧ '"' ∉ s

/-- A class is written out as in the table, and a number is in range. -/
structure DscpClear (token : CString) : Prop where
  af : pair 'A' 'F' token → token.drop 2 ≠ [] ∧
    (starts Char.isDigit (token.drop 2) → (afValue (atoi (token.drop 2))).isSome →
      token.drop 2 = utoa (atoi (token.drop 2)).toNat)
  cs : pair 'C' 'S' token → token.drop 2 ≠ [] ∧
    (starts Char.isDigit (token.drop 2) → (csValue (atoi (token.drop 2))).isSome →
      token.drop 2 = utoa (atoi (token.drop 2)).toNat)
  ef : pair 'E' 'F' token → token.drop 2 = []
  number : starts Char.isDigit token → Decimal token ∧ digitsValue token ≤ 63

/-- The values are all taken by the reader. -/
def Taken (t : Tokens) : Prop :=
  UInt8.ofInt (atoi t.delay) < 3 ∧ UInt8.ofInt (atoi t.loss) < 3 ∧
    UInt8.ofInt (atoi t.jitter) < 3 ∧ (readDscp t.dscp).isSome

structure Clear (line : CString) : Prop where
  inside : ¬ RunsOff line
  clear : ∀ t, HasTokens line t → Taken t →
    (digitsValue t.delay ≤ 2 ∧ digitsValue t.loss ≤ 2 ∧ digitsValue t.jitter ≤ 2) ∧
      DscpClear t.dscp ∧ White t.rest

end form

section stages
variable {line s name rest digits token : CString} {v v' : DscpValues} {set : UInt8 → DscpValues}

theorem readFirst_ok : readFirst line = .ok s ↔ Opening line s := by
  have size : set_learn_dscp.length = 14 := by decide
  constructor
  · intro read
    unfold readFirst memeq at read
    split at read
    · cases read
    · cases read
    · rename_i same
      split at same
      · cases same
      · have keyword := List.isPrefixOf_iff_prefix.mp (Except.ok.inj same)
        obtain ⟨p, whole⟩ := keyword
        rw [← whole, List.drop_left] at read
        split at read
        · rename_i q opened
          cases read
          refine ⟨line.takeWhile isspace, p.takeWhile isspace, (span_split isspace line).run,
            (span_split isspace p).run, ?_⟩
          rw [← opened, List.takeWhile_append_dropWhile, whole, List.takeWhile_append_dropWhile]
        · cases read
  · intro opening
    obtain ⟨lead, sp, white, white', rfl⟩ := opening
    have first : Span isspace lead (set_learn_dscp ++ (sp ++ '"' :: s)) := by
      apply span_white white
      intro c first
      obtain rfl : 's' = c := Option.some.inj first
      rfl
    have second : Span isspace sp ('"' :: s) := by
      apply span_white white'
      intro c first
      obtain rfl : '"' = c := Option.some.inj first
      rfl
    have keyword : set_learn_dscp.isPrefixOf (set_learn_dscp ++ (sp ++ '"' :: s)) = true :=
      List.isPrefixOf_iff_prefix.mpr (List.prefix_append _ _)
    have long : ¬ (set_learn_dscp ++ (sp ++ '"' :: s)).length + 1 < set_learn_dscp.length := by
      rw [List.length_append]
      omega
    rw [readFirst, first.dropWhile, memeq, if_neg long, keyword]
    simp only [List.drop_left, second.dropWhile]

theorem readFirst_outside :
    readFirst line = .error .outside ↔
      (line.dropWhile isspace).length + 1 < set_learn_dscp.length := by
  unfold readFirst memeq
  split
  · rename_i e failed
    split at failed
    · rename_i short
      exact iff_of_true rfl short
    · cases failed
  · rename_i same
    split at same
    · cases same
    · rename_i long
      exact iff_of_false (by simp) long
  · rename_i same
    split at same
    · cases same
    · rename_i long
      refine iff_of_false ?_ long
      split <;> simp

theorem span_quote (absent : '"' ∉ name) (rest : CString) :
    Span (fun c => decide (c ≠ '"')) name ('"' :: rest) := by
  apply span_cons _ rfl
  intro c member
  apply decide_eq_true
  intro same
  exact absent (same ▸ member)

/-- The record with the name. -/
def withName (v : DscpValues) (name : CString) : DscpValues :=
  { v with
    appName := if name.length ≠ 0 then .copy name else .null
    appNameLen := UInt32.ofNat name.length }

theorem readName_named (named : Named s name rest) (v : DscpValues) :
    readName v s = .ok (withName v name, rest) := by
  obtain ⟨rfl, absent⟩ := named
  have span := span_quote absent rest
  simp only [readName, span.takeWhile, span.dropWhile, next]
  rfl

theorem readName_absent (absent : '"' ∉ s) (v : DscpValues) : readName v s = .error .outside := by
  have none : s.dropWhile (fun c => decide (c ≠ '"')) = [] := by
    apply List.dropWhile_eq_nil_iff.mpr
    intro c member
    apply decide_eq_true
    intro same
    exact absent (same ▸ member)
  simp only [readName, none, next]

theorem quote_cases (s : CString) : '"' ∉ s ∨ ∃ name rest, Named s name rest := by
  by_cases member : '"' ∈ s
  · obtain ⟨name, rest, whole, absent⟩ := List.eq_append_cons_of_mem member
    exact .inr ⟨name, rest, whole, absent⟩
  · exact .inl member

theorem readName_ok :
    readName v s = .ok (v', rest) ↔ ∃ name, Named s name rest ∧ v' = withName v name := by
  constructor
  · intro read
    rcases quote_cases s with absent | ⟨name, rest', named⟩
    · rw [readName_absent absent] at read
      cases read
    · rw [readName_named named] at read
      cases read
      exact ⟨name, named, rfl⟩
  · intro found
    obtain ⟨name, named, rfl⟩ := found
    exact readName_named named v

theorem readName_error {e : Exit} : readName v s = .error e ↔ e = .outside ∧ '"' ∉ s := by
  rcases quote_cases s with absent | ⟨name, rest, named⟩
  · rw [readName_absent absent]
    simp [absent, eq_comm]
  · have member : '"' ∈ s := by simp [named.1]
    rw [readName_named named]
    simp [member]

theorem named_unique {name' rest' : CString} (named : Named s name rest)
    (again : Named s name' rest') : name = name' ∧ rest = rest' := by
  have same := (span_quote named.2 rest).unique (span_quote again.2 rest')
    (named.1.symm.trans again.1)
  exact ⟨same.1, (List.cons.inj same.2).2⟩

/-- The white space in front and the digits are longest runs. -/
theorem level_spans {sp : CString} {c : Char} (white : White sp) (decimal : Decimal digits)
    (space : isspace c = true) :
    Span isspace sp (digits ++ c :: rest) ∧ Span Char.isDigit digits (c :: rest) := by
  constructor
  · exact span_white white (visible_of_digit (starts_decimal decimal _))
  · exact span_cons decimal.2 (not_isDigit_of_isspace space) rest

theorem level_unique {digits' rest' : CString} (level : Level s digits rest)
    (again : Level s digits' rest') : digits = digits' ∧ rest = rest' := by
  obtain ⟨sp, c, white, decimal, space, rfl⟩ := level
  obtain ⟨sp', c', white', decimal', space', same⟩ := again
  obtain ⟨front, digitsEnd⟩ := @level_spans rest digits sp c white decimal space
  obtain ⟨front', digitsEnd'⟩ := @level_spans rest' digits' sp' c' white' decimal' space'
  have behind := (front.unique front' same).2
  obtain ⟨rfl, tails⟩ := digitsEnd.unique digitsEnd' behind
  exact ⟨rfl, (List.cons.inj tails).2⟩

theorem readLevel_level (level : Level s digits rest) :
    readLevel set v s =
      if UInt8.ofInt (atoi digits) ≥ 3 then
        .error (.cleanup (set (UInt8.ofInt (atoi digits))))
      else .ok (set (UInt8.ofInt (atoi digits)), rest) := by
  obtain ⟨sp, c, white, decimal, space, rfl⟩ := level
  obtain ⟨front, digitsEnd⟩ := @level_spans rest digits sp c white decimal space
  have digit := starts_decimal decimal (c :: rest)
  have blank : starts isspace (c :: rest) = true := space
  simp only [readLevel, front.dropWhile, digitsEnd.dropWhile, digitsEnd.takeWhile, digit, blank,
    not_true, if_false, if_true, next]

theorem readLevel_none (none : ∀ digits rest, ¬ Level s digits rest) :
    readLevel set v s = .error (.cleanup v) := by
  unfold readLevel
  dsimp only
  split
  · rfl
  · rename_i digit
    split
    · rename_i blank
      have decimal := decimal_takeWhile (not_not.mp digit)
      obtain ⟨c, rest, behind, space⟩ := starts_iff.mp blank
      refine absurd ⟨s.takeWhile isspace, c, (span_split isspace s).run, decimal, space, ?_⟩
        (none ((s.dropWhile isspace).takeWhile Char.isDigit) rest)
      rw [← behind, List.takeWhile_append_dropWhile, List.takeWhile_append_dropWhile]
    · rfl

theorem readLevel_ok :
    readLevel set v s = .ok (v', rest) ↔
      ∃ digits, Level s digits rest ∧ UInt8.ofInt (atoi digits) < 3 ∧
        v' = set (UInt8.ofInt (atoi digits)) := by
  by_cases some : ∃ digits rest, Level s digits rest
  · obtain ⟨digits, rest', level⟩ := some
    rw [readLevel_level level]
    constructor
    · intro read
      split at read
      · cases read
      · rename_i small
        cases read
        exact ⟨digits, level, UInt8.not_le.mp small, rfl⟩
    · intro found
      obtain ⟨digits', level', small, rfl⟩ := found
      obtain ⟨rfl, rfl⟩ := level_unique level level'
      rw [if_neg (UInt8.not_le.mpr small)]
  · push Not at some
    rw [readLevel_none some]
    constructor
    · intro read
      cases read
    · intro found
      obtain ⟨digits, level, _⟩ := found
      exact absurd level (some digits rest)

theorem readLevel_error {e : Exit} (read : readLevel set v s = .error e) : ∃ w, e = .cleanup w := by
  by_cases some : ∃ digits rest, Level s digits rest
  · obtain ⟨digits, rest, level⟩ := some
    rw [readLevel_level level] at read
    split at read
    · cases read
      exact ⟨_, rfl⟩
    · cases read
  · push Not at some
    rw [readLevel_none some] at read
    cases read
    exact ⟨v, rfl⟩

theorem isalpha_of_toupper {c u : Char} (upper : toupper c = u)
    (letter : 65 ≤ u.toNat ∧ u.toNat ≤ 90) : isalpha c = true := by
  unfold toupper at upper
  split at upper
  · rename_i lower
    simp [isalpha, lower.1, lower.2]
  · rw [← upper] at letter
    simp [isalpha, letter.1, letter.2]

/-- The two letters are those of the token. -/
theorem pair_span {a b : Char} (first : 65 ≤ a.toNat ∧ a.toNat ≤ 90)
    (second : 65 ≤ b.toNat ∧ b.toNat ≤ 90) (span : Span isalnum token rest) :
    pair a b (token ++ rest) = pair a b token := by
  have letter : ∀ c u, isalnum c = false → 65 ≤ u.toNat ∧ u.toNat ≤ 90 → toupper c ≠ u := by
    intro c u other range same
    simp [isalnum, isalpha_of_toupper same range] at other
  match token, rest, span with
  | c :: d :: token, rest, _ => rfl
  | [c], [], _ => rfl
  | [c], d :: rest, span =>
    have other := letter d b (span.stop d rfl) second
    simp [pair, other]
  | [], [], _ => rfl
  | [], [c], _ => rfl
  | [], c :: d :: rest, span =>
    have other := letter c a (span.stop c rfl) first
    simp [pair, other]

theorem starts_span (span : Span isalnum token rest) :
    starts Char.isDigit (token ++ rest) = starts Char.isDigit token := by
  match token, rest, span with
  | c :: token, rest, _ => rfl
  | [], [], _ => rfl
  | [], c :: rest, span =>
    have other := span.stop c rfl
    simp only [isalnum, Bool.or_eq_false_iff] at other
    exact other.1

theorem dscpStart_span (span : Span isalnum token rest) :
    DscpStart (token ++ rest) ↔ DscpStart token := by
  have af := @pair_span rest token 'A' 'F' (by decide) (by decide) span
  have cs := @pair_span rest token 'C' 'S' (by decide) (by decide) span
  have ef := @pair_span rest token 'E' 'F' (by decide) (by decide) span
  rw [DscpStart, DscpStart, starts_span span, af, cs, ef]

theorem isspace_of_isalnum {c : Char} (run : isalnum c = true) : isspace c = false := by
  simp only [isalnum, Bool.or_eq_true] at run
  rcases run with digit | letter
  · exact isspace_of_isDigit digit
  · simp only [isalpha, Bool.or_eq_true, Bool.and_eq_true, decide_eq_true_eq] at letter
    have other : c ≠ ' ' := by
      intro same
      rw [same] at letter
      exact absurd letter (by decide)
    simp only [isspace, other, decide_false, Bool.false_or, Bool.and_eq_false_iff,
      decide_eq_false_iff_not]
    omega

/-- The first letter or digit is no white space. -/
theorem last_spans {sp : CString} (white : White sp) (start : DscpStart token)
    (span : Span isalnum token rest) : Span isspace sp (token ++ rest) := by
  apply span_white white
  intro c first
  cases token with
  | nil => simp [DscpStart, starts, pair] at start
  | cons d token =>
    obtain rfl : d = c := Option.some.inj first
    exact isspace_of_isalnum (span.run d List.mem_cons_self)

theorem last_unique {token' rest' : CString} (last : Last s token rest)
    (again : Last s token' rest') : token = token' ∧ rest = rest' := by
  obtain ⟨sp, white, start, span, _, rfl⟩ := last
  obtain ⟨sp', white', start', span', _, same⟩ := again
  have behind := ((last_spans white start span).unique (last_spans white' start' span') same).2
  exact span.unique span' behind

theorem readLast_last (last : Last s token rest) :
    readLast v s =
      match readDscp token with
      | none => .error (.cleanup v)
      | some dscp => .ok { v with dscpValue := dscp } := by
  obtain ⟨sp, white, start, span, apart, rfl⟩ := last
  have begun := (dscpStart_span span).mpr start
  have front := last_spans white start span
  have ended : starts isspace rest ∨ rest = [] := by
    cases rest with
    | nil => exact .inr rfl
    | cons c rest => exact .inl (apart c rfl)
  have goes : ¬ (¬ starts Char.isDigit (token ++ rest) ∧ ¬ pair 'A' 'F' (token ++ rest) ∧
      ¬ pair 'C' 'S' (token ++ rest) ∧ ¬ pair 'E' 'F' (token ++ rest)) := by
    unfold DscpStart at begun
    tauto
  simp only [readLast, front.dropWhile, span.dropWhile, span.takeWhile]
  rw [if_neg goes, if_pos ended]

theorem readLast_none (none : ∀ token rest, ¬ Last s token rest) :
    readLast v s = .error (.cleanup v) := by
  have whole : s.takeWhile isspace ++ s.dropWhile isspace = s := List.takeWhile_append_dropWhile
  have span := span_split isalnum (s.dropWhile isspace)
  have text : (s.dropWhile isspace).takeWhile isalnum ++ (s.dropWhile isspace).dropWhile isalnum =
      s.dropWhile isspace := List.takeWhile_append_dropWhile
  unfold readLast
  dsimp only
  split
  · rfl
  · rename_i goes
    split
    · rename_i ended
      have start : DscpStart (s.dropWhile isspace) := by
        unfold DscpStart
        tauto
      rw [← text, dscpStart_span span] at start
      have apart : ∀ c ∈ ((s.dropWhile isspace).dropWhile isalnum).head?, isspace c = true := by
        intro c first
        rcases ended with blank | last
        · obtain ⟨d, u, behind, space⟩ := starts_iff.mp blank
          rw [behind] at first
          obtain rfl : d = c := Option.some.inj first
          exact space
        · simp [last] at first
      refine absurd ⟨s.takeWhile isspace, (span_split isspace s).run, start, span, apart, ?_⟩
        (none _ _)
      rw [text, whole]
    · rfl

theorem readLast_ok :
    readLast v s = .ok v' ↔
      ∃ token rest dscp, Last s token rest ∧ readDscp token = some dscp ∧
        v' = { v with dscpValue := dscp } := by
  by_cases some : ∃ token rest, Last s token rest
  · obtain ⟨token, rest, last⟩ := some
    rw [readLast_last last]
    constructor
    · intro read
      cases value : readDscp token with
      | none => simp [value] at read
      | some dscp =>
        rw [value] at read
        cases read
        exact ⟨token, rest, dscp, last, value, rfl⟩
    · intro found
      obtain ⟨token', rest', dscp, last', value, rfl⟩ := found
      obtain ⟨rfl, rfl⟩ := last_unique last last'
      rw [value]
  · push Not at some
    rw [readLast_none some]
    constructor
    · intro read
      cases read
    · intro found
      obtain ⟨token, rest, _, last, _⟩ := found
      exact absurd last (some token rest)

theorem readLast_error {e : Exit} (read : readLast v s = .error e) : ∃ w, e = .cleanup w := by
  by_cases some : ∃ token rest, Last s token rest
  · obtain ⟨token, rest, last⟩ := some
    rw [readLast_last last] at read
    split at read
    · cases read
      exact ⟨v, rfl⟩
    · cases read
  · push Not at some
    rw [readLast_none some] at read
    cases read
    exact ⟨v, rfl⟩

theorem hasTokens_unique {t t' : Tokens} (tokens : HasTokens line t) (again : HasTokens line t') :
    t = t' := by
  obtain ⟨s₁, s₂, s₃, s₄, s₅, opening, named, delay, loss, jitter, last⟩ := tokens
  obtain ⟨r₁, r₂, r₃, r₄, r₅, opening', named', delay', loss', jitter', last'⟩ := again
  obtain rfl : s₁ = r₁ := by
    have same := (readFirst_ok.mpr opening).symm.trans (readFirst_ok.mpr opening')
    exact Except.ok.inj same
  obtain ⟨name, rfl⟩ := named_unique named named'
  obtain ⟨first, rfl⟩ := level_unique delay delay'
  obtain ⟨second, rfl⟩ := level_unique loss loss'
  obtain ⟨third, rfl⟩ := level_unique jitter jitter'
  obtain ⟨dscp, rest⟩ := last_unique last last'
  obtain ⟨name', delay', loss', jitter', dscp', rest'⟩ := t
  simp only at name first second third dscp rest
  subst name first second third dscp rest
  rfl

end stages

section values
variable {token t : CString} {d : UInt8} {c s : Char} {table : Int → Option UInt8}

theorem afValue_some {n : Int} (value : afValue n = some d) :
    ∃ i j : Nat, (1 ≤ i ∧ i ≤ 4) ∧ (1 ≤ j ∧ j ≤ 3) ∧ n = (10 * i + j : Nat) ∧
      d = UInt8.ofNat (8 * i + 2 * j) := by
  have listed : n ∈ [11, 12, 13, 21, 22, 23, 31, 32, 33, 41, 42, 43] := by
    by_contra other
    simp only [List.mem_cons, List.not_mem_nil, or_false, not_or] at other
    simp [afValue, other] at value
  have all : ∀ m ∈ ([11, 12, 13, 21, 22, 23, 31, 32, 33, 41, 42, 43] : List Int),
      let i := (m / 10).toNat
      let j := (m % 10).toNat
      (1 ≤ i ∧ i ≤ 4) ∧ (1 ≤ j ∧ j ≤ 3) ∧ m = (10 * i + j : Nat) ∧
        afValue m = some (UInt8.ofNat (8 * i + 2 * j)) := by decide
  obtain ⟨first, second, number, entry⟩ := all n listed
  exact ⟨_, _, first, second, number, Option.some.inj (value.symm.trans entry)⟩

theorem csValue_some {n : Int} (value : csValue n = some d) :
    ∃ k : Nat, k ≤ 7 ∧ n = k ∧ d = UInt8.ofNat (8 * k) := by
  have listed : n ∈ [1, 2, 3, 4, 5, 6, 7] := by
    by_contra other
    simp only [List.mem_cons, List.not_mem_nil, or_false, not_or] at other
    simp [csValue, other] at value
  have all : ∀ m ∈ ([1, 2, 3, 4, 5, 6, 7] : List Int),
      m.toNat ≤ 7 ∧ m = m.toNat ∧ csValue m = some (UInt8.ofNat (8 * m.toNat)) := by decide
  obtain ⟨small, number, entry⟩ := all n listed
  exact ⟨_, small, number, Option.some.inj (value.symm.trans entry)⟩

/-- The number of a class behind its letters. -/
def AfWritten (t : CString) (d : UInt8) : Prop :=
  ∃ i j : Nat, (1 ≤ i ∧ i ≤ 4) ∧ (1 ≤ j ∧ j ≤ 3) ∧ t = utoa (10 * i + j) ∧
    d = UInt8.ofNat (8 * i + 2 * j)

def CsWritten (t : CString) (d : UInt8) : Prop :=
  ∃ n : Nat, n ≤ 7 ∧ t = utoa n ∧ d = UInt8.ofNat (8 * n)

/-- A number that the table has is the one that is written, exactly if it has no other digits. -/
theorem class_iff {R : CString → UInt8 → Prop}
    (entry : ∀ n d, table n = some d → ∃ k : Nat, n = k ∧ R (utoa k) d)
    (number : ∀ t d, R t d → ∃ k < 2 ^ 31, t = utoa k) (read : readClass table t = some d) :
    R t d ↔ t ≠ [] ∧ (starts Char.isDigit t → (table (atoi t)).isSome →
      t = utoa (atoi t).toNat) := by
  constructor
  · intro written
    obtain ⟨k, small, rfl⟩ := number t d written
    have value := atoi_utoa small [] (by simp)
    rw [List.append_nil] at value
    exact ⟨Nat.toDigits_ne_nil, fun _ _ => by rw [value, Int.toNat_natCast]⟩
  · intro clear
    obtain ⟨some, exact'⟩ := clear
    unfold readClass at read
    rw [if_neg some] at read
    split at read
    · cases read
    · rename_i digit
      have same := exact' (not_not.mp digit) (by simp [read])
      obtain ⟨k, value, written⟩ := entry _ d read
      rw [value, Int.toNat_natCast] at same
      rw [same]
      exact written

theorem af_iff (read : readClass afValue t = some d) :
    AfWritten t d ↔ t ≠ [] ∧ (starts Char.isDigit t → (afValue (atoi t)).isSome →
      t = utoa (atoi t).toNat) := by
  apply class_iff _ _ read
  · intro n d value
    obtain ⟨i, j, first, second, number, same⟩ := afValue_some value
    exact ⟨10 * i + j, number, i, j, first, second, rfl, same⟩
  · intro t d written
    obtain ⟨i, j, first, second, same, _⟩ := written
    exact ⟨10 * i + j, by omega, same⟩

theorem cs_iff (read : readClass csValue t = some d) :
    CsWritten t d ↔ t ≠ [] ∧ (starts Char.isDigit t → (csValue (atoi t)).isSome →
      t = utoa (atoi t).toNat) := by
  apply class_iff _ _ read
  · intro n d value
    obtain ⟨k, small, number, same⟩ := csValue_some value
    exact ⟨k, number, k, small, rfl, same⟩
  · intro t d written
    obtain ⟨n, small, same, _⟩ := written
    exact ⟨n, by omega, same⟩

theorem not_isDigit_of_isalpha (letter : isalpha c = true) : c.isDigit = false := by
  apply Bool.eq_false_iff.mpr
  intro digit
  have range := (digitChar_of_isDigit digit).2
  simp only [isalpha, Bool.or_eq_true, Bool.and_eq_true, decide_eq_true_eq] at letter
  omega

/-- What is written is a number, or it has the letters of a class. -/
theorem dscpWritten_iff :
    DscpWritten token d ↔
      (Decimal token ∧ digitsValue token ≤ 63 ∧ d = UInt8.ofNat (digitsValue token)) ∨
      ∃ c s t, token = c :: s :: t ∧
        ((toupper c = 'C' ∧ toupper s = 'S' ∧ CsWritten t d) ∨
          (toupper c = 'E' ∧ toupper s = 'F' ∧ t = [] ∧ d = 46) ∨
          (toupper c = 'A' ∧ toupper s = 'F' ∧ AfWritten t d)) := by
  constructor
  · intro written
    cases written with
    | number decimal small => exact .inl ⟨decimal, small, rfl⟩
    | cs first second small =>
      exact .inr ⟨_, _, _, rfl, .inl ⟨first, second, _, small, rfl, rfl⟩⟩
    | ef first second => exact .inr ⟨_, _, _, rfl, .inr (.inl ⟨first, second, rfl, rfl⟩)⟩
    | af first second i j =>
      exact .inr ⟨_, _, _, rfl, .inr (.inr ⟨first, second, _, _, i, j, rfl, rfl⟩)⟩
  · intro either
    rcases either with ⟨decimal, small, rfl⟩ | ⟨c, s, t, rfl, cs | ef | af⟩
    · exact .number decimal small
    · obtain ⟨first, second, n, small, rfl, rfl⟩ := cs
      exact .cs first second small
    · obtain ⟨first, second, rfl, rfl⟩ := ef
      exact .ef first second
    · obtain ⟨first, second, i, j, i', j', rfl, rfl⟩ := af
      exact .af first second i' j'

theorem pair_iff {a b : Char} :
    pair a b token = true ↔ ∃ c s t, token = c :: s :: t ∧ toupper c = a ∧ toupper s = b := by
  match token with
  | [] => simp [pair]
  | [c] => simp [pair]
  | c :: s :: t => simp [pair]

theorem ofInt_natCast (n : Nat) : UInt8.ofInt n = UInt8.ofNat n := by
  apply UInt8.toNat_inj.mp
  simp only [UInt8.ofInt, UInt8.toNat_ofNat']
  omega

theorem dscp_number (digit : starts Char.isDigit token = true) (read : readDscp token = some d) :
    DscpWritten token d ↔ DscpClear token := by
  have noPair : ∀ a b : Char, 65 ≤ a.toNat ∧ a.toNat ≤ 90 → pair a b token = false := by
    intro a b range
    apply Bool.eq_false_iff.mpr
    intro both
    obtain ⟨c, s, t, rfl, first, _⟩ := pair_iff.mp both
    have other := not_isDigit_of_isalpha (isalpha_of_toupper first range)
    exact absurd digit (by simp [starts, other])
  have af := noPair 'A' 'F' (by decide)
  have cs := noPair 'C' 'S' (by decide)
  have ef := noPair 'E' 'F' (by decide)
  simp only [readDscp, af, cs, ef, Bool.false_eq_true, if_false, Option.some.injEq] at read
  rw [dscpWritten_iff]
  constructor
  · intro either
    rcases either with ⟨decimal, small, _⟩ | ⟨c, s, t, rfl, letters⟩
    · exact ⟨by simp [af], by simp [cs], by simp [ef], fun _ => ⟨decimal, small⟩⟩
    · simp only [pair, decide_eq_false_iff_not] at af cs ef
      tauto
  · intro clear
    obtain ⟨decimal, small⟩ := clear.number digit
    refine .inl ⟨decimal, small, ?_⟩
    rw [← read, atoi_decimal decimal (by omega), ofInt_natCast]

/-- With a value for the last token, it is the one written exactly if the token is clear. -/
theorem dscp_iff (start : DscpStart token) (read : readDscp token = some d) :
    DscpWritten token d ↔ DscpClear token := by
  by_cases digit : starts Char.isDigit token = true
  · exact dscp_number digit read
  · have letters : pair 'A' 'F' token = true ∨ pair 'C' 'S' token = true ∨
        pair 'E' 'F' token = true := by
      unfold DscpStart at start
      tauto
    have noNumber : ∀ c s t, token = c :: s :: t → ¬ Decimal token := by
      rintro c s t rfl decimal
      exact digit (decimal.2 c List.mem_cons_self)
    rw [dscpWritten_iff]
    rcases letters with af | cs | ef
    · obtain ⟨c, s, t, rfl, first, second⟩ := pair_iff.mp af
      have value : readClass afValue t = some d := by
        rw [readDscp, if_pos af] at read
        exact read
      have written := af_iff value
      constructor
      · intro either
        rcases either with ⟨decimal, _⟩ | ⟨c', s', t', same, others⟩
        · exact absurd decimal (noNumber c s t rfl)
        · cases same
          have this : AfWritten t d := by simpa [first, second] using others
          refine ⟨fun _ => written.mp this, ?_, ?_, fun number => absurd number digit⟩
          · simp [pair, first]
          · simp [pair, first]
      · intro clear
        exact .inr ⟨c, s, t, rfl, .inr (.inr ⟨first, second, written.mpr (clear.af af)⟩)⟩
    · obtain ⟨c, s, t, rfl, first, second⟩ := pair_iff.mp cs
      have value : readClass csValue t = some d := by
        simpa [readDscp, pair, first, second] using read
      have written := cs_iff value
      constructor
      · intro either
        rcases either with ⟨decimal, _⟩ | ⟨c', s', t', same, others⟩
        · exact absurd decimal (noNumber c s t rfl)
        · cases same
          have this : CsWritten t d := by simpa [first, second] using others
          refine ⟨?_, fun _ => written.mp this, ?_, fun number => absurd number digit⟩
          · simp [pair, first]
          · simp [pair, first]
      · intro clear
        exact .inr ⟨c, s, t, rfl, .inl ⟨first, second, written.mpr (clear.cs cs)⟩⟩
    · obtain ⟨c, s, t, rfl, first, second⟩ := pair_iff.mp ef
      have value : d = 46 := by
        simpa [readDscp, pair, first, second, eq_comm] using read
      constructor
      · intro either
        rcases either with ⟨decimal, _⟩ | ⟨c', s', t', same, others⟩
        · exact absurd decimal (noNumber c s t rfl)
        · cases same
          have this : t = [] := by
            have both : t = [] ∧ d = 46 := by simpa [first, second] using others
            exact both.1
          refine ⟨?_, ?_, fun _ => this, fun number => absurd number digit⟩
          · simp [pair, first]
          · simp [pair, first]
      · intro clear
        exact .inr ⟨c, s, t, rfl, .inr (.inl ⟨first, second, clear.ef ef, value⟩)⟩

end values

section lines
variable {line : CString} {v v' : DscpValues}

/-- What is stored for the tokens. -/
def taken (t : Tokens) (dscp : UInt8) : DscpValues :=
  { appName := if t.name.length ≠ 0 then .copy t.name else .null
    appNameLen := UInt32.ofNat t.name.length
    delay := UInt8.ofInt (atoi t.delay)
    loss := UInt8.ofInt (atoi t.loss)
    jitter := UInt8.ofInt (atoi t.jitter)
    dscpValue := dscp }

theorem readTokens_ok :
    readTokens v line = .ok v' ↔
      ∃ t dscp, HasTokens line t ∧ UInt8.ofInt (atoi t.delay) < 3 ∧
        UInt8.ofInt (atoi t.loss) < 3 ∧ UInt8.ofInt (atoi t.jitter) < 3 ∧
        readDscp t.dscp = some dscp ∧ v' = taken t dscp := by
  constructor
  · intro read
    simp only [readTokens, bind_ok] at read
    obtain ⟨s₁, first, ⟨v₁, s₂⟩, name, ⟨v₂, s₃⟩, delay, ⟨v₃, s₄⟩, loss, ⟨v₄, s₅⟩, jitter, last⟩ := read
    obtain ⟨n, named, rfl⟩ := readName_ok.mp name
    obtain ⟨d, level, small, rfl⟩ := readLevel_ok.mp delay
    obtain ⟨l, level', small', rfl⟩ := readLevel_ok.mp loss
    obtain ⟨j, level'', small'', rfl⟩ := readLevel_ok.mp jitter
    obtain ⟨token, rest, dscp, ends, value, rfl⟩ := readLast_ok.mp last
    exact ⟨⟨n, d, l, j, token, rest⟩, dscp,
      ⟨s₁, s₂, s₃, s₄, s₅, readFirst_ok.mp first, named, level, level', level'', ends⟩,
      small, small', small'', value, rfl⟩
  · intro found
    obtain ⟨t, dscp, tokens, small, small', small'', value, rfl⟩ := found
    obtain ⟨s₁, s₂, s₃, s₄, s₅, opening, named, delay, loss, jitter, last⟩ := tokens
    simp only [readTokens, bind_ok]
    exact ⟨s₁, readFirst_ok.mpr opening, _, readName_ok.mpr ⟨t.name, named, rfl⟩,
      _, readLevel_ok.mpr ⟨t.delay, delay, small, rfl⟩,
      _, readLevel_ok.mpr ⟨t.loss, loss, small', rfl⟩,
      _, readLevel_ok.mpr ⟨t.jitter, jitter, small'', rfl⟩,
      readLast_ok.mpr ⟨t.dscp, t.rest, dscp, last, value, rfl⟩⟩

theorem readTokens_outside : readTokens v line = .error .outside ↔ RunsOff line := by
  simp only [readTokens, bind_error, readFirst_outside, readFirst_ok]
  constructor
  · intro read
    rcases read with short | ⟨s, opening, absent | ⟨⟨v₁, s₂⟩, _, delay | ⟨⟨v₂, s₃⟩, _, loss |
      ⟨⟨v₃, s₄⟩, _, jitter | ⟨⟨v₄, s₅⟩, _, last⟩⟩⟩⟩⟩
    · exact .inl short
    · exact .inr ⟨s, opening, (readName_error.mp absent).2⟩
    · obtain ⟨w, same⟩ := readLevel_error delay
      cases same
    · obtain ⟨w, same⟩ := readLevel_error loss
      cases same
    · obtain ⟨w, same⟩ := readLevel_error jitter
      cases same
    · obtain ⟨w, same⟩ := readLast_error last
      cases same
  · intro off
    rcases off with short | ⟨s, opening, absent⟩
    · exact .inl short
    · exact .inr ⟨s, opening, .inl (readName_error.mpr ⟨rfl, absent⟩)⟩

/-- A line is refused before a name is stored, or the name is freed and its pointer cleared. -/
theorem readLearnDscpLine_cases (inside : ¬ RunsOff line) (v : DscpValues) :
    (∃ v', readTokens v line = .ok v' ∧ readLearnDscpLine v line = some (0, v')) ∨
      ∃ v', readLearnDscpLine v line = some (-1, v') ∧
        (v'.appName = .null ∨ v'.appName = v.appName) := by
  cases read : readTokens v line with
  | ok v' => exact .inl ⟨v', rfl, by rw [readLearnDscpLine, read]⟩
  | error e =>
    right
    cases e with
    | outside => exact absurd (readTokens_outside.mp read) inside
    | refused => exact ⟨v, by rw [readLearnDscpLine, read], .inr rfl⟩
    | cleanup w => exact ⟨_, by rw [readLearnDscpLine, read], .inl rfl⟩

/-- The low byte of a number that is small. -/
theorem level_small {digits : CString} (decimal : Decimal digits) (small : digitsValue digits ≤ 2) :
    UInt8.ofInt (atoi digits) = UInt8.ofNat (digitsValue digits) ∧
      UInt8.ofInt (atoi digits) < 3 := by
  rw [atoi_decimal decimal (by omega), ofInt_natCast]
  refine ⟨rfl, ?_⟩
  rw [UInt8.lt_iff_toNat_lt, UInt8.toNat_ofNat']
  have three : (3 : UInt8).toNat = 3 := rfl
  omega

theorem hasTokens_decimal {t : Tokens} (tokens : HasTokens line t) :
    Decimal t.delay ∧ Decimal t.loss ∧ Decimal t.jitter ∧ DscpStart t.dscp := by
  obtain ⟨_, _, _, _, _, _, _, delay, loss, jitter, last⟩ := tokens
  obtain ⟨_, _, _, first, _⟩ := delay
  obtain ⟨_, _, _, second, _⟩ := loss
  obtain ⟨_, _, _, third, _⟩ := jitter
  obtain ⟨_, _, start, _⟩ := last
  exact ⟨first, second, third, start⟩

theorem taken_stored {t : Tokens} (tokens : HasTokens line t) (delay : digitsValue t.delay ≤ 2)
    (loss : digitsValue t.loss ≤ 2) (jitter : digitsValue t.jitter ≤ 2) (dscp : UInt8) :
    taken t dscp = stored t dscp := by
  obtain ⟨first, second, third, _⟩ := hasTokens_decimal tokens
  rw [taken, stored, (level_small first delay).1, (level_small second loss).1,
    (level_small third jitter).1]

theorem dscp_lines_iff (line : CString) : ReadsRight line ↔ Clear line := by
  constructor
  · intro right
    let blank : DscpValues :=
      { appName := .null, appNameLen := 0, delay := 0, loss := 0, jitter := 0, dscpValue := 0 }
    obtain ⟨ret, v', returned, outcome⟩ := right blank
    have inside : ¬ RunsOff line := by
      intro off
      rw [readLearnDscpLine, readTokens_outside.mpr off] at returned
      cases returned
    refine ⟨inside, ?_⟩
    intro t tokens given
    obtain ⟨delay, loss, jitter, some⟩ := given
    obtain ⟨dscp, value⟩ := Option.isSome_iff_exists.mp some
    have read : readTokens blank line = .ok (taken t dscp) :=
      readTokens_ok.mpr ⟨t, dscp, tokens, delay, loss, jitter, value, rfl⟩
    rw [readLearnDscpLine, read] at returned
    cases returned
    rcases outcome with ⟨_, written⟩ | ⟨failed, _⟩
    · obtain ⟨t', dscp', tokens', delay', loss', jitter', dscpWritten, white, same⟩ := written
      obtain rfl := hasTokens_unique tokens tokens'
      rw [taken_stored tokens delay' loss' jitter'] at same
      obtain rfl : dscp = dscp' := congrArg DscpValues.dscpValue same
      have start := (hasTokens_decimal tokens).2.2.2
      exact ⟨⟨delay', loss', jitter'⟩, (dscp_iff start value).mp dscpWritten, white⟩
    · cases failed
  · intro clear v
    rcases readLearnDscpLine_cases clear.inside v with ⟨v', read, returned⟩ | ⟨v', returned, name⟩
    · obtain ⟨t, dscp, tokens, delay, loss, jitter, value, rfl⟩ := readTokens_ok.mp read
      obtain ⟨⟨delay', loss', jitter'⟩, dscpClear, white⟩ :=
        clear.clear t tokens ⟨delay, loss, jitter, by simp [value]⟩
      have start := (hasTokens_decimal tokens).2.2.2
      refine ⟨0, _, returned, .inl ⟨rfl, t, dscp, tokens, delay', loss', jitter', ?_, white, ?_⟩⟩
      · exact (dscp_iff start value).mpr dscpClear
      · exact taken_stored tokens delay' loss' jitter' dscp
    · exact ⟨-1, v', returned, .inr ⟨rfl, name⟩⟩

/-- 256 is taken for no delay at all. -/
theorem delay_256_accepted :
    let line := "set_learn_dscp \"Webex\" 256 1 1 34".toList
    let v : DscpValues :=
      { appName := .initial, appNameLen := 0, delay := 0, loss := 0, jitter := 0, dscpValue := 0 }
    readLearnDscpLine v line =
        some (0, { appName := .copy "Webex".toList, appNameLen := 5, delay := 0, loss := 1
                   jitter := 1, dscpValue := 34 }) ∧
      ¬ ReadsRight line := by
  intro line v
  have accepted : readLearnDscpLine v line =
      some (0, { appName := .copy "Webex".toList, appNameLen := 5, delay := 0, loss := 1
                 jitter := 1, dscpValue := 34 }) := by
    decide
  refine ⟨accepted, ?_⟩
  intro right
  have tokens : HasTokens line
      ⟨"Webex".toList, "256".toList, "1".toList, "1".toList, "34".toList, []⟩ := by
    have white : White [] ∧ White [' '] :=
      ⟨List.all_eq_true.mp (by decide), List.all_eq_true.mp (by decide)⟩
    have delay : Decimal "256".toList := ⟨by decide, List.all_eq_true.mp (by decide)⟩
    have one : Decimal "1".toList := ⟨by decide, List.all_eq_true.mp (by decide)⟩
    have last : Span isalnum "34".toList [] :=
      ⟨List.all_eq_true.mp (by decide), by simp⟩
    exact ⟨"Webex\" 256 1 1 34".toList, " 256 1 1 34".toList, "1 1 34".toList, "1 34".toList,
      "34".toList, ⟨[], [' '], white.1, white.2, by decide⟩,
      ⟨by decide, by decide⟩,
      ⟨[' '], ' ', white.2, delay, rfl, by decide⟩,
      ⟨[], ' ', white.1, one, rfl, by decide⟩,
      ⟨[], ' ', white.1, one, rfl, by decide⟩,
      [], white.1, .inl (by decide), last, by simp, by decide⟩
  obtain ⟨ret, v', returned, ⟨_, written⟩ | ⟨failed, _⟩⟩ := right v
  · obtain ⟨t, dscp, tokens', small, _⟩ := written
    obtain rfl := hasTokens_unique tokens tokens'
    exact absurd small (by decide)
  · rw [accepted] at returned
    cases returned
    cases failed

end lines

end LearnDscp
