import MiniUPnPd.LanAddresses
import MiniUPnPd.UpnpPermissions

/-!
The permission lines of the configuration file. The character behind a token is overwritten and
stepped over whatever it is, a number is not looked for behind a dash or a slash, and a number that
does not fit is cut. A line that is accepted although it is not of the documented form has one of
these at one of its tokens. The masks are those of the listening addresses.
-/
namespace PermissionLines
open CPointer CText Inet UpnpPermissions
open LanAddresses (netmask isMaskChar isMaskChar_of_isDigit not_isMaskChar dot_iff dropWhile_digits)

section source

/-- How the function is left before its end. -/
inductive Exit
  | outside
  | refused (perm : UpnpPerm)

def word : PermType → CString
  | .allow => "allow".toList
  | .deny => "deny".toList

/-- The rule with its type, and the text at the second token. -/
def readType (perm : UpnpPerm) (p : CString) : Except Exit (UpnpPerm × CString) :=
  let p := p.dropWhile isspace
  match memeq (word .allow) p with
  | .error _ => .error .outside
  | .ok true => .ok ({ perm with type := .allow }, (p.drop 5).dropWhile isspace)
  | .ok false =>
    match memeq (word .deny) p with
    | .error _ => .error .outside
    | .ok true => .ok ({ perm with type := .deny }, (p.drop 4).dropWhile isspace)
    | .ok false => .error (.refused perm)

/-- A port or a range of ports, and the text at `q`. A port that is not in a range is ended by what
    `alone` holds of. -/
def readPorts (alone : CString → Bool) (setMin setMax : UpnpPerm → UInt16 → UpnpPerm)
    (perm : UpnpPerm) (p : CString) : Except Exit (UpnpPerm × CString) :=
  if ¬ starts Char.isDigit p then .error (.refused perm)
  else
    let i := atoi (p.takeWhile Char.isDigit)
    let q := p.dropWhile Char.isDigit
    if q.head? = some '-' then
      if i > 65535 then .error (.refused perm)
      else
        let perm := setMin perm (UInt16.ofInt i)
        let p := q.tail
        let j := atoi (p.takeWhile Char.isDigit)
        if j > 65535 then .error (.refused perm)
        else
          let perm := setMax perm (UInt16.ofInt j)
          if UInt16.ofInt i > UInt16.ofInt j then .error (.refused perm)
          else .ok (perm, p.dropWhile Char.isDigit)
    else if alone q then
      if i > 65535 then .error (.refused perm)
      else .ok (setMax (setMin perm (UInt16.ofInt i)) (UInt16.ofInt i), q)
    else .error (.refused perm)

def readEports : UpnpPerm → CString → Except Exit (UpnpPerm × CString) :=
  readPorts (starts isspace) (fun perm eportMin => { perm with eportMin })
    (fun perm eportMax => { perm with eportMax })

def readIports : UpnpPerm → CString → Except Exit (UpnpPerm × CString) :=
  readPorts (fun q => starts isspace q || q = []) (fun perm iportMin => { perm with iportMin })
    (fun perm iportMax => { perm with iportMax })

/-- The text behind the character at `q`, which is stepped over, and behind white space. -/
def stepOver : CString → Except Exit CString
  | [] => .error .outside
  | _ :: p => .ok (p.dropWhile isspace)

variable (shifted : Int → InAddr)

/-- `n_bits ? (0xffffffffu << (32 - n_bits)) : 0`. What a shift by more than the width gives is
    left open. -/
def bitsMask (n_bits : Int) : InAddr :=
  if n_bits < 0 then shifted (32 - n_bits) else netmask n_bits.toNat

/-- The mask behind a slash, and the text at `q`. -/
def readMask (perm : UpnpPerm) (p : CString) : Except Exit (UpnpPerm × CString) :=
  let q := p.dropWhile Char.isDigit
  if q.head? = some '.' then
    let q := q.dropWhile isMaskChar
    if ¬ starts isspace q then .error (.refused perm)
    else
      match inetAton (p.takeWhile isMaskChar) with
      | none => .error (.refused perm)
      | some mask => .ok ({ perm with mask }, q)
  else if ¬ starts isspace q then .error (.refused perm)
  else
    let n_bits := atoi (p.takeWhile Char.isDigit)
    if n_bits > 32 then .error (.refused perm)
    else .ok ({ perm with mask := bitsMask shifted n_bits }, q)

/-- The address with its mask, and the text at `q`. -/
def readNet (perm : UpnpPerm) (p : CString) : Except Exit (UpnpPerm × CString) :=
  let q := p.dropWhile isMaskChar
  if ¬ starts Char.isDigit p then .error (.refused perm)
  else if q.head? = some '/' then
    match inetAton (p.takeWhile isMaskChar) with
    | none => .error (.refused perm)
    | some address => readMask shifted { perm with address } q.tail
  else if starts isspace q then
    match inetAton (p.takeWhile isMaskChar) with
    | none => .error (.refused perm)
    | some address => .ok ({ perm with address, mask := BitVec.allOnes 32 }, q)
  else .error (.refused perm)

def readTokens (perm : UpnpPerm) (p : CString) : Except Exit UpnpPerm := do
  let (perm, p) ← readType perm p
  let (perm, q) ← readEports perm p
  let p ← stepOver q
  let (perm, q) ← readNet shifted perm p
  let p ← stepOver q
  let (perm, _) ← readIports perm p
  return perm

/-- The return value and the rule, if nothing outside the line is read. -/
def readPermissionLine (perm : UpnpPerm) (p : CString) : Option (Int × UpnpPerm) :=
  match readTokens shifted perm p with
  | .error .outside => none
  | .error (.refused perm) => some (-1, perm)
  | .ok perm => some (0, perm)

end source

section form

inductive Ports
  | port (digits : CString)
  | range (min max : CString)

/-- The tokens of a line as they are cut, with the white space behind the first one and what is
    behind the second and the last. -/
structure Tokens where
  type : PermType
  gap : CString
  eports : Ports
  behind : Char
  ip : CString
  mask : Option CString
  iports : Ports
  rest : CString

def Opening (line : CString) (type : PermType) (gap s : CString) : Prop :=
  ∃ lead, White lead ∧ White gap ∧ (∀ c ∈ s.head?, isspace c = false) ∧
    line = lead ++ (word type ++ (gap ++ s))

/-- The ports are cut in front of `q`. A range need not have a second number. -/
inductive PortsAt (alone : CString → Bool) : CString → Ports → CString → Prop
  | port {ds q : CString} (decimal : Decimal ds) (apart : alone q = true) :
      PortsAt alone (ds ++ q) (.port ds) q
  | range {ds ds' q : CString} (decimal : Decimal ds) (span : Span Char.isDigit ds' q) :
      PortsAt alone (ds ++ '-' :: (ds' ++ q)) (.range ds ds') q

def Dotted (ip : CString) : Prop := starts Char.isDigit ip ∧ ∀ c ∈ ip, isMaskChar c = true

/-- The address, and the mask if there is one, are cut in front of `q`. -/
inductive NetAt : CString → CString → Option CString → CString → Prop
  | host {ip q : CString} (dotted : Dotted ip) (apart : starts isspace q = true) :
      NetAt (ip ++ q) ip none q
  | masked {ip m q : CString} (dotted : Dotted ip) (mask : ∀ c ∈ m, isMaskChar c = true)
      (apart : starts isspace q = true) : NetAt (ip ++ '/' :: (m ++ q)) ip (some m) q

def HasTokens (line : CString) (t : Tokens) : Prop :=
  ∃ s₁ sp₁ s₂ c sp₂ s₃, Opening line t.type t.gap s₁ ∧
    PortsAt (starts isspace) s₁ t.eports (t.behind :: (sp₁ ++ s₂)) ∧ White sp₁ ∧
    NetAt s₂ t.ip t.mask (c :: (sp₂ ++ s₃)) ∧ White sp₂ ∧
    PortsAt (fun q => starts isspace q || q = []) s₃ t.iports t.rest

/-- A port, or two with the second at least the first. -/
inductive PortsWritten : Ports → UInt16 → UInt16 → Prop
  | port {ds : CString} {n : UInt16} (decimal : Decimal ds) (value : digitsValue ds = n.toNat) :
      PortsWritten (.port ds) n n
  | range {ds ds' : CString} {min max : UInt16} (decimal : Decimal ds) (decimal' : Decimal ds')
      (value : digitsValue ds = min.toNat) (value' : digitsValue ds' = max.toNat)
      (order : min ≤ max) : PortsWritten (.range ds ds') min max

/-- A host, a network with a number of bits, or one with a mask in dotted form. -/
inductive MaskWritten : Option CString → InAddr → Prop
  | host : MaskWritten none (BitVec.allOnes 32)
  | bits {ds : CString} (decimal : Decimal ds) (small : digitsValue ds ≤ 32) :
      MaskWritten (some ds) (netmask (digitsValue ds))
  | dotted {ms : CString} {m : InAddr} (dot : '.' ∈ ms) (mask : inetAton ms = some m) :
      MaskWritten (some ms) m

/-- A line of the documented form, with white space between the tokens, and the rule it says. -/
structure Written (line : CString) (t : Tokens) (perm : UpnpPerm) : Prop where
  tokens : HasTokens line t
  type : perm.type = t.type
  gap : t.gap ≠ []
  eports : PortsWritten t.eports perm.eportMin perm.eportMax
  behind : isspace t.behind = true
  address : inetAton t.ip = some perm.address
  mask : MaskWritten t.mask perm.mask
  iports : PortsWritten t.iports perm.iportMin perm.iportMax
  rest : White t.rest

/-- The lines of the form are those accepted, with what they say. -/
def ReadsRight (shifted : Int → InAddr) (line : CString) : Prop :=
  ∀ perm, ∃ ret perm', readPermissionLine shifted perm line = some (ret, perm') ∧
    (ret = 0 ∨ ret = -1) ∧ (ret = 0 ↔ ∃ t said, Written line t said) ∧
    (ret = 0 → ∃ t, Written line t perm')

/-- The low half of each number, as far as a sign is left to it, is taken for a port. -/
def Ports.Taken : Ports → Prop
  | .port ds => atoi ds ≤ 65535
  | .range ds ds' => atoi ds ≤ 65535 ∧ atoi ds' ≤ 65535 ∧
      UInt16.ofInt (atoi ds) ≤ UInt16.ofInt (atoi ds')

def MaskTaken : Option CString → Prop
  | none => True
  | some m => if '.' ∈ m then (inetAton m).isSome else atoi m ≤ 32

/-- What `memcmp` compares is longer than the line, or the line ends right behind the range of
    external ports. -/
def RunsOff (line : CString) : Prop :=
  (line.dropWhile isspace).length + 1 < 5 ∨
    ∃ type gap s ds ds', Opening line type gap s ∧ PortsAt (starts isspace) s (.range ds ds') [] ∧
      (Ports.range ds ds').Taken

/-- All tokens are taken by the reader. -/
structure Taken (t : Tokens) : Prop where
  eports : t.eports.Taken
  ip : (inetAton t.ip).isSome
  mask : MaskTaken t.mask
  iports : t.iports.Taken

/-- No number is missing or too large. -/
def Ports.Clear : Ports → Prop
  | .port ds => digitsValue ds ≤ 65535
  | .range ds ds' => digitsValue ds ≤ 65535 ∧ ds' ≠ [] ∧ digitsValue ds' ≤ 65535

def MaskClear (mask : Option CString) : Prop :=
  ∀ m ∈ mask, '.' ∉ m → m ≠ [] ∧ digitsValue m ≤ 32

structure Clear (line : CString) : Prop where
  inside : ¬ RunsOff line
  clear : ∀ t, HasTokens line t → Taken t →
    t.gap ≠ [] ∧ t.eports.Clear ∧ isspace t.behind = true ∧ MaskClear t.mask ∧ t.iports.Clear ∧
      White t.rest

end form

section openings
variable {line s gap gap' s' : CString} {type type' : PermType} {perm perm' : UpnpPerm}

theorem length_word (type : PermType) : 4 ≤ (word type).length ∧ (word type).length ≤ 5 := by
  cases type <;> decide

theorem isPrefixOf_word (type : PermType) (s : CString) :
    (word type).isPrefixOf (word type ++ s) = true :=
  List.isPrefixOf_iff_prefix.mpr (List.prefix_append _ _)

theorem allow_deny (s : CString) : (word .allow).isPrefixOf (word .deny ++ s) = false := by
  simp [word, List.isPrefixOf]

theorem word_front (type : PermType) (s : CString) : Span isspace [] (word type ++ s) := by
  apply span_white
  · intro c member
    cases member
  · intro c first
    cases type with
    | allow =>
      obtain rfl : 'a' = c := by simpa [word] using first
      rfl
    | deny =>
      obtain rfl : 'd' = c := by simpa [word] using first
      rfl

theorem opening_spans (opening : Opening line type gap s) :
    line.dropWhile isspace = word type ++ (gap ++ s) ∧ Span isspace gap s := by
  obtain ⟨lead, white, white', visible, rfl⟩ := opening
  have front : Span isspace lead (word type ++ (gap ++ s)) :=
    span_white white (word_front type (gap ++ s)).stop
  exact ⟨front.dropWhile, span_white white' visible⟩

theorem opening_unique (opening : Opening line type gap s) (again : Opening line type' gap' s') :
    type = type' ∧ gap = gap' ∧ s = s' := by
  obtain ⟨front, span⟩ := opening_spans opening
  obtain ⟨front', span'⟩ := opening_spans again
  have same := front.symm.trans front'
  have types : type = type' := by
    cases type with
    | allow =>
      cases type' with
      | allow => rfl
      | deny => simp [word] at same
    | deny =>
      cases type' with
      | allow => simp [word] at same
      | deny => rfl
  subst types
  exact ⟨rfl, span.unique span' (List.append_cancel_left same)⟩

/-- What stands behind white space, a word and white space again. -/
theorem opening_split {rest : CString} (whole : word type ++ rest = line.dropWhile isspace) :
    Opening line type (rest.takeWhile isspace) (rest.dropWhile isspace) := by
  have span := span_split isspace rest
  refine ⟨line.takeWhile isspace, (span_split isspace line).run, span.run, span.stop, ?_⟩
  rw [List.takeWhile_append_dropWhile, whole, List.takeWhile_append_dropWhile]

theorem readType_ok :
    readType perm line = .ok (perm', s) ↔
      ∃ type gap, Opening line type gap s ∧ perm' = { perm with type } := by
  constructor
  · intro read
    unfold readType memeq at read
    dsimp only at read
    split at read
    · cases read
    · rename_i same
      split at same
      · cases same
      · obtain ⟨rest, whole⟩ := List.isPrefixOf_iff_prefix.mp (Except.ok.inj same)
        rw [← whole] at read
        cases read
        exact ⟨.allow, _, opening_split whole, rfl⟩
    · split at read
      · cases read
      · rename_i same
        split at same
        · cases same
        · obtain ⟨rest, whole⟩ := List.isPrefixOf_iff_prefix.mp (Except.ok.inj same)
          rw [← whole] at read
          cases read
          exact ⟨.deny, _, opening_split whole, rfl⟩
      · cases read
  · intro found
    obtain ⟨type, gap, opening, rfl⟩ := found
    obtain ⟨front, span⟩ := opening_spans opening
    have long : ∀ text : PermType, ¬ (word type ++ (gap ++ s)).length + 1 < (word text).length := by
      intro text
      rw [List.length_append]
      have short := length_word type
      have short' := length_word text
      omega
    cases type with
    | allow =>
      rw [readType, front, memeq, if_neg (long .allow), isPrefixOf_word]
      exact congrArg (fun s => Except.ok (_, s)) span.dropWhile
    | deny =>
      rw [readType, front, memeq, if_neg (long .allow), allow_deny]
      dsimp only
      rw [memeq, if_neg (long .deny), isPrefixOf_word]
      exact congrArg (fun s => Except.ok (_, s)) span.dropWhile

theorem readType_outside :
    readType perm line = .error .outside ↔ (line.dropWhile isspace).length + 1 < 5 := by
  have five : (word .allow).length = 5 := by decide
  have four : (word .deny).length = 4 := by decide
  unfold readType memeq
  dsimp only
  rw [five, four]
  by_cases short : (line.dropWhile isspace).length + 1 < 5
  · simp [short]
  · have long : ¬ (line.dropWhile isspace).length + 1 < 4 := by omega
    rw [if_neg short, if_neg long]
    refine iff_of_false ?_ short
    split
    · rename_i failed
      cases failed
    · simp
    · split
      · rename_i failed
        cases failed
      · simp
      · simp

end openings

section ports
variable {alone : CString → Bool} {setMin setMax : UpnpPerm → UInt16 → UpnpPerm}
  {perm perm' : UpnpPerm} {s q q' ds : CString} {t t' : Ports}

def Ports.low : Ports → UInt16
  | .port ds => UInt16.ofInt (atoi ds)
  | .range ds _ => UInt16.ofInt (atoi ds)

def Ports.high : Ports → UInt16
  | .port ds => UInt16.ofInt (atoi ds)
  | .range _ ds => UInt16.ofInt (atoi ds)

/-- A port that is not in a range is followed by white space or the end. -/
def Ends (alone : CString → Bool) : Prop := ∀ c q, alone (c :: q) = true → isspace c = true

theorem ends_space : Ends (starts isspace) := fun _ _ apart => apart

theorem ends_last : Ends fun q => starts isspace q || q = [] := by
  intro c q apart
  simpa [starts] using apart

theorem port_span (ends : Ends alone) (decimal : Decimal ds) (apart : alone q = true) :
    Span Char.isDigit ds q where
  run := decimal.2
  stop := by
    intro c first
    obtain ⟨q, rfl⟩ := List.head?_eq_some_iff.mp first
    exact not_isDigit_of_isspace (ends c q apart)

theorem port_dash (ends : Ends alone) (apart : alone q = true) : q.head? ≠ some '-' := by
  intro first
  obtain ⟨q, rfl⟩ := List.head?_eq_some_iff.mp first
  exact absurd (ends '-' q apart) (by decide)

theorem dash_span (decimal : Decimal ds) (s : CString) : Span Char.isDigit ds ('-' :: s) :=
  span_cons decimal.2 rfl s

theorem portsAt_start {c : Char} (cut : PortsAt alone s t q) (first : s.head? = some c) :
    isspace c = false := by
  have digit : starts Char.isDigit s = true := by
    cases cut with
    | port decimal apart => exact starts_decimal decimal q
    | range decimal span => exact starts_decimal decimal _
  exact visible_of_digit digit c first

theorem portsAt_unique (ends : Ends alone) (cut : PortsAt alone s t q)
    (again : PortsAt alone s t' q') : t = t' ∧ q = q' := by
  generalize same : s = s' at again
  cases cut with
  | port decimal apart =>
    have span := port_span ends decimal apart
    cases again with
    | port decimal' apart' =>
      obtain ⟨rfl, rfl⟩ := span.unique (port_span ends decimal' apart') same
      exact ⟨rfl, rfl⟩
    | range decimal' span' =>
      have dash := (span.unique (dash_span decimal' _) same).2
      rw [dash] at apart
      exact absurd rfl (port_dash ends apart)
  | range decimal span =>
    have first := dash_span decimal
    cases again with
    | port decimal' apart' =>
      have dash := ((first _).unique (port_span ends decimal' apart') same).2
      rw [← dash] at apart'
      exact absurd rfl (port_dash ends apart')
    | range decimal' span' =>
      obtain ⟨rfl, tails⟩ := (first _).unique (dash_span decimal' _) same
      obtain ⟨rfl, rfl⟩ := span.unique span' (List.cons.inj tails).2
      exact ⟨rfl, rfl⟩

theorem readPorts_taken (ends : Ends alone) (cut : PortsAt alone s t q) (taken : t.Taken) :
    readPorts alone setMin setMax perm s = .ok (setMax (setMin perm t.low) t.high, q) := by
  cases cut with
  | @port ds q decimal apart =>
    have span := port_span ends decimal apart
    have small : ¬ atoi ds > 65535 := Int.not_lt.mpr taken
    rw [readPorts, starts_decimal decimal, span.takeWhile, span.dropWhile]
    simp [port_dash ends apart, apart, small, Ports.low, Ports.high]
  | @range ds ds' q decimal span =>
    obtain ⟨small, small', order⟩ := taken
    have first := dash_span decimal (ds' ++ q)
    rw [readPorts, starts_decimal decimal, first.takeWhile, first.dropWhile]
    have fits : ¬ atoi ds > 65535 := Int.not_lt.mpr small
    have fits' : ¬ atoi ds' > 65535 := Int.not_lt.mpr small'
    have ordered : ¬ UInt16.ofInt (atoi ds) > UInt16.ofInt (atoi ds') := UInt16.not_lt.mpr order
    simp only [not_true_eq_false, if_false, List.head?_cons, if_true, List.tail_cons,
      span.takeWhile, span.dropWhile, fits, fits', ordered, Ports.low, Ports.high]

theorem readPorts_refused (ends : Ends alone) (cut : PortsAt alone s t q) (other : ¬ t.Taken) :
    ∃ perm', readPorts alone setMin setMax perm s = .error (.refused perm') := by
  cases cut with
  | @port ds q decimal apart =>
    have span := port_span ends decimal apart
    have large : atoi ds > 65535 := Int.not_le.mp other
    rw [readPorts, starts_decimal decimal, span.takeWhile, span.dropWhile]
    simp [port_dash ends apart, apart, large]
  | @range ds ds' q decimal span =>
    have first := dash_span decimal (ds' ++ q)
    rw [readPorts, starts_decimal decimal, first.takeWhile, first.dropWhile]
    simp only [not_true_eq_false, if_false, List.head?_cons, if_true, List.tail_cons,
      span.takeWhile, span.dropWhile]
    split
    · exact ⟨_, rfl⟩
    · rename_i small
      split
      · exact ⟨_, rfl⟩
      · rename_i small'
        split
        · exact ⟨_, rfl⟩
        · rename_i order
          exact absurd ⟨Int.not_lt.mp small, Int.not_lt.mp small', UInt16.not_lt.mp order⟩ other

theorem readPorts_none (none : ∀ t q, ¬ PortsAt alone s t q) :
    readPorts alone setMin setMax perm s = .error (.refused perm) := by
  unfold readPorts
  split
  · rfl
  · rename_i digit
    have decimal := decimal_takeWhile (not_not.mp digit)
    dsimp only
    split
    · rename_i dash
      obtain ⟨u, behind⟩ := List.head?_eq_some_iff.mp dash
      have cut := @PortsAt.range alone _ _ _ decimal (span_split Char.isDigit u)
      rw [List.takeWhile_append_dropWhile, ← behind, List.takeWhile_append_dropWhile] at cut
      exact absurd cut (none _ _)
    · split
      · rename_i apart
        have cut := PortsAt.port decimal apart
        rw [List.takeWhile_append_dropWhile] at cut
        exact absurd cut (none _ _)
      · rfl

theorem readPorts_ok (ends : Ends alone) :
    readPorts alone setMin setMax perm s = .ok (perm', q) ↔
      ∃ t, PortsAt alone s t q ∧ t.Taken ∧ perm' = setMax (setMin perm t.low) t.high := by
  constructor
  · intro read
    by_cases some : ∃ t q, PortsAt alone s t q
    · obtain ⟨t, q', cut⟩ := some
      by_cases taken : t.Taken
      · rw [readPorts_taken ends cut taken] at read
        cases read
        exact ⟨t, cut, taken, rfl⟩
      · obtain ⟨w, failed⟩ := @readPorts_refused alone setMin setMax perm s q' t ends cut taken
        rw [failed] at read
        cases read
    · push Not at some
      rw [readPorts_none some] at read
      cases read
  · intro found
    obtain ⟨t, cut, taken, rfl⟩ := found
    exact readPorts_taken ends cut taken

theorem readPorts_error (ends : Ends alone) {e : Exit}
    (read : readPorts alone setMin setMax perm s = .error e) : ∃ w, e = .refused w := by
  by_cases some : ∃ t q, PortsAt alone s t q
  · obtain ⟨t, q, cut⟩ := some
    by_cases taken : t.Taken
    · rw [readPorts_taken ends cut taken] at read
      cases read
    · obtain ⟨w, failed⟩ := @readPorts_refused alone setMin setMax perm s q t ends cut taken
      rw [failed] at read
      exact ⟨w, (Except.error.inj read).symm⟩
  · push Not at some
    rw [readPorts_none some] at read
    exact ⟨perm, (Except.error.inj read).symm⟩

end ports

section nets
variable {shifted : Int → InAddr} {perm perm' : UpnpPerm} {s q q' ip ip' m : CString}
  {mask mask' : Option CString}

def maskValue (shifted : Int → InAddr) : Option CString → Option InAddr
  | none => some (BitVec.allOnes 32)
  | some m =>
    if '.' ∈ m then inetAton m
    else if atoi m > 32 then none else some (bitsMask shifted (atoi m))

theorem run_span (run : ∀ c ∈ m, isMaskChar c = true) (apart : starts isspace q = true) :
    Span isMaskChar m q where
  run := run
  stop := by
    intro c first
    obtain ⟨d, u, rfl, space⟩ := starts_iff.mp apart
    obtain rfl : d = c := Option.some.inj first
    exact not_isMaskChar space

theorem slash_span (run : ∀ c ∈ m, isMaskChar c = true) (s : CString) :
    Span isMaskChar m ('/' :: s) := span_cons run rfl s

theorem starts_dotted (dotted : Dotted ip) (s : CString) :
    starts Char.isDigit (ip ++ s) = true := by
  obtain ⟨c, u, rfl, digit⟩ := starts_iff.mp dotted.1
  exact digit

/-- Without a dot the digits end where the mask does. -/
theorem span_plain (span : Span isMaskChar m q) (plain : '.' ∉ m) : Span Char.isDigit m q where
  run := by
    intro c member
    have either := span.run c member
    have other : c ≠ '.' := by
      intro same
      exact plain (same ▸ member)
    simpa [isMaskChar, other] using either
  stop := by
    intro c first
    have neither := span.stop c first
    simp only [isMaskChar, Bool.or_eq_false_iff] at neither
    exact neither.2

theorem readMask_eq (perm : UpnpPerm) (s : CString) :
    readMask shifted perm s =
      if starts isspace (s.dropWhile isMaskChar) then
        match maskValue shifted (some (s.takeWhile isMaskChar)) with
        | none => .error (.refused perm)
        | some mask => .ok ({ perm with mask }, s.dropWhile isMaskChar)
      else .error (.refused perm) := by
  have span := span_split isMaskChar s
  have dot := dot_iff span
  rw [List.takeWhile_append_dropWhile] at dot
  by_cases dotted : '.' ∈ s.takeWhile isMaskChar
  · simp only [readMask, dot.mpr dotted, if_true, dropWhile_digits, maskValue, dotted]
    by_cases apart : starts isspace (s.dropWhile isMaskChar) = true
    · simp only [apart, not_true, if_false, if_true]
    · simp only [apart]
      rfl
  · have digits := span_plain span dotted
    have token := digits.takeWhile
    have behind := digits.dropWhile
    rw [List.takeWhile_append_dropWhile] at token behind
    have other : ¬ (s.dropWhile isMaskChar).head? = some '.' := by
      rw [← behind]
      exact fun first => dotted (dot.mp first)
    simp only [readMask, other, if_false, maskValue, dotted, token, behind]
    by_cases apart : starts isspace (s.dropWhile isMaskChar) = true
    · simp only [apart, not_true, if_false, if_true]
      by_cases large : atoi (s.takeWhile isMaskChar) > 32
      · simp only [large, if_true]
      · simp only [large, if_false]
    · simp only [apart]
      rfl

theorem apart_slash (s : CString) : ¬ starts isspace ('/' :: s) = true := by
  intro apart
  have space : isspace '/' = true := apart
  exact absurd space (by decide)

theorem netAt_start {c : Char} (cut : NetAt s ip mask q) (first : s.head? = some c) :
    isspace c = false := by
  have digit : starts Char.isDigit s = true := by
    cases cut with
    | host dotted apart => exact starts_dotted dotted q
    | masked dotted run apart => exact starts_dotted dotted _
  exact visible_of_digit digit c first

theorem netAt_apart (cut : NetAt s ip mask q) : starts isspace q = true := by
  cases cut with
  | host dotted apart => exact apart
  | masked dotted run apart => exact apart

theorem netAt_unique (cut : NetAt s ip mask q) (again : NetAt s ip' mask' q') :
    ip = ip' ∧ mask = mask' ∧ q = q' := by
  generalize same : s = s' at again
  cases cut with
  | host dotted apart =>
    have span := run_span dotted.2 apart
    cases again with
    | host dotted' apart' =>
      obtain ⟨rfl, rfl⟩ := span.unique (run_span dotted'.2 apart') same
      exact ⟨rfl, rfl, rfl⟩
    | masked dotted' run' apart' =>
      have slash := (span.unique (slash_span dotted'.2 _) same).2
      rw [slash] at apart
      exact absurd apart (apart_slash _)
  | masked dotted run apart =>
    have front := slash_span dotted.2
    cases again with
    | host dotted' apart' =>
      have slash := ((front _).unique (run_span dotted'.2 apart') same).2
      rw [← slash] at apart'
      exact absurd apart' (apart_slash _)
    | masked dotted' run' apart' =>
      obtain ⟨rfl, tails⟩ := (front _).unique (slash_span dotted'.2 _) same
      obtain ⟨rfl, rfl⟩ := (run_span run apart).unique (run_span run' apart') (List.cons.inj tails).2
      exact ⟨rfl, rfl, rfl⟩

theorem readNet_netAt (cut : NetAt s ip mask q) (perm : UpnpPerm) :
    readNet shifted perm s =
      match inetAton ip with
      | none => .error (.refused perm)
      | some address =>
        match maskValue shifted mask with
        | none => .error (.refused { perm with address })
        | some mask => .ok ({ perm with address, mask }, q) := by
  cases cut with
  | host dotted apart =>
    have span := run_span dotted.2 apart
    have other : q.head? ≠ some '/' := by
      intro first
      obtain ⟨u, rfl⟩ := List.head?_eq_some_iff.mp first
      exact apart_slash u apart
    simp only [readNet, starts_dotted dotted, not_true, if_false, span.dropWhile, span.takeWhile,
      other, apart, if_true, maskValue]
  | @masked ip m q dotted run apart =>
    have front := slash_span dotted.2 (m ++ q)
    have span := run_span run apart
    simp only [readNet, starts_dotted dotted, not_true, if_false, front.dropWhile,
      front.takeWhile, List.head?_cons, if_true, List.tail_cons, readMask_eq, span.dropWhile,
      span.takeWhile, apart]

theorem readNet_none (none : ∀ ip mask q, ¬ NetAt s ip mask q) (perm : UpnpPerm) :
    ∃ w, readNet shifted perm s = .error (.refused w) := by
  have span := span_split isMaskChar s
  unfold readNet
  dsimp only
  split
  · exact ⟨perm, rfl⟩
  · rename_i digit
    have dotted : Dotted (s.takeWhile isMaskChar) := by
      obtain ⟨d, u, start, digit⟩ := starts_iff.mp (not_not.mp digit)
      refine ⟨?_, span.run⟩
      rw [start, List.takeWhile_cons_of_pos (isMaskChar_of_isDigit digit)]
      exact digit
    split
    · rename_i slash
      obtain ⟨u, behind⟩ := List.head?_eq_some_iff.mp slash
      have stuck : ¬ starts isspace (u.dropWhile isMaskChar) = true := by
        intro apart
        have cut := NetAt.masked dotted (span_split isMaskChar u).run apart
        rw [List.takeWhile_append_dropWhile, ← behind, List.takeWhile_append_dropWhile] at cut
        exact none _ _ _ cut
      rw [behind, List.tail_cons]
      split
      · exact ⟨perm, rfl⟩
      · rw [readMask_eq, if_neg stuck]
        exact ⟨_, rfl⟩
    · split
      · rename_i apart
        have cut := NetAt.host dotted apart
        rw [List.takeWhile_append_dropWhile] at cut
        exact absurd cut (none _ _ _)
      · exact ⟨perm, rfl⟩

theorem readNet_ok :
    readNet shifted perm s = .ok (perm', q) ↔
      ∃ ip mask address m, NetAt s ip mask q ∧ inetAton ip = some address ∧
        maskValue shifted mask = some m ∧ perm' = { perm with address, mask := m } := by
  constructor
  · intro read
    by_cases some : ∃ ip mask q, NetAt s ip mask q
    · obtain ⟨ip, mask, q', cut⟩ := some
      rw [readNet_netAt cut] at read
      split at read
      · cases read
      · rename_i address value
        split at read
        · cases read
        · rename_i m value'
          cases read
          exact ⟨ip, mask, address, m, cut, value, value', rfl⟩
    · push Not at some
      obtain ⟨w, failed⟩ := @readNet_none shifted s some perm
      rw [failed] at read
      cases read
  · intro found
    obtain ⟨ip, mask, address, m, cut, value, value', rfl⟩ := found
    rw [readNet_netAt cut, value, value']

theorem readNet_error {e : Exit} (read : readNet shifted perm s = .error e) :
    ∃ w, e = .refused w := by
  by_cases some : ∃ ip mask q, NetAt s ip mask q
  · obtain ⟨ip, mask, q, cut⟩ := some
    rw [readNet_netAt cut] at read
    split at read
    · exact ⟨_, (Except.error.inj read).symm⟩
    · split at read
      · exact ⟨_, (Except.error.inj read).symm⟩
      · cases read
  · push Not at some
    obtain ⟨w, failed⟩ := @readNet_none shifted s some perm
    rw [failed] at read
    exact ⟨w, (Except.error.inj read).symm⟩

end nets

section values
variable {alone : CString → Bool} {shifted : Int → InAddr} {s q ip ds : CString} {t : Ports}
  {mask : Option CString} {m : InAddr} {min max n : UInt16}

theorem port_value (decimal : Decimal ds) (value : digitsValue ds = n.toNat) :
    atoi ds ≤ 65535 ∧ UInt16.ofInt (atoi ds) = n := by
  have small := n.toNat_lt
  rw [atoi_decimal decimal (by omega), value]
  refine ⟨by omega, ?_⟩
  apply UInt16.toNat_inj.mp
  simp only [UInt16.ofInt, UInt16.toNat_ofNat']
  omega

theorem value_port (decimal : Decimal ds) (small : digitsValue ds ≤ 65535) :
    digitsValue ds = (UInt16.ofInt (atoi ds)).toNat := by
  rw [atoi_decimal decimal (by omega)]
  simp only [UInt16.ofInt, UInt16.toNat_ofNat']
  omega

/-- Ports that are written are taken, as they are written. -/
theorem portsWritten_taken (written : PortsWritten t min max) :
    t.Taken ∧ min = t.low ∧ max = t.high := by
  cases written with
  | port decimal value =>
    obtain ⟨small, same⟩ := port_value decimal value
    exact ⟨small, same.symm, same.symm⟩
  | range decimal decimal' value value' order =>
    obtain ⟨small, same⟩ := port_value decimal value
    obtain ⟨small', same'⟩ := port_value decimal' value'
    refine ⟨⟨small, small', ?_⟩, same.symm, same'.symm⟩
    rw [same, same']
    exact order

theorem ports_iff (cut : PortsAt alone s t q) (taken : t.Taken) :
    PortsWritten t t.low t.high ↔ t.Clear := by
  constructor
  · intro written
    generalize t.low = low at written
    generalize t.high = high at written
    cases written with
    | port decimal value =>
      have small := low.toNat_lt
      simp only [Ports.Clear]
      omega
    | range decimal decimal' value value' order =>
      have small := low.toNat_lt
      have small' := high.toNat_lt
      exact ⟨by omega, decimal'.1, by omega⟩
  · intro clear
    cases cut with
    | port decimal apart => exact .port decimal (value_port decimal clear)
    | range decimal span =>
      obtain ⟨small, some, small'⟩ := clear
      have decimal' : Decimal _ := ⟨some, span.run⟩
      exact .range decimal decimal' (value_port decimal small) (value_port decimal' small')
        taken.2.2

theorem bits_value (decimal : Decimal ds) (small : digitsValue ds ≤ 32) :
    '.' ∉ ds ∧ atoi ds ≤ 32 ∧ bitsMask shifted (atoi ds) = netmask (digitsValue ds) := by
  rw [atoi_decimal decimal (by omega)]
  refine ⟨decimal_absent decimal (by decide), by omega, ?_⟩
  rw [bitsMask, if_neg (by omega), Int.toNat_natCast]

theorem maskWritten_value (written : MaskWritten mask m) : maskValue shifted mask = some m := by
  cases written with
  | host => rfl
  | bits decimal small =>
    obtain ⟨plain, small', value⟩ := @bits_value shifted _ decimal small
    rw [maskValue, if_neg plain, if_neg (Int.not_lt.mpr small'), value]
  | dotted dot mask => rw [maskValue, if_pos dot, mask]

theorem maskTaken_iff (shifted : Int → InAddr) (mask : Option CString) :
    MaskTaken mask ↔ ∃ m, maskValue shifted mask = some m := by
  cases mask with
  | none => simp [MaskTaken, maskValue]
  | some m =>
    by_cases dot : '.' ∈ m
    · simp [MaskTaken, maskValue, dot, Option.isSome_iff_exists]
    · simp [MaskTaken, maskValue, dot]

theorem mask_iff (cut : NetAt s ip mask q) (read : maskValue shifted mask = some m) :
    MaskWritten mask m ↔ MaskClear mask := by
  constructor
  · intro written
    cases written with
    | host =>
      intro m' member
      cases member
    | bits decimal small =>
      intro m' member _
      obtain rfl := Option.some.inj member
      exact ⟨decimal.1, small⟩
    | dotted dot mask =>
      intro m' member plain
      obtain rfl := Option.some.inj member
      exact absurd dot plain
  · intro clear
    cases cut with
    | host dotted apart =>
      obtain rfl := Option.some.inj read
      exact .host
    | @masked _ text _ dotted run apart =>
      by_cases dot : '.' ∈ text
      · rw [maskValue, if_pos dot] at read
        exact .dotted dot read
      · obtain ⟨some, small⟩ := clear text rfl dot
        have decimal : Decimal text := ⟨some, (span_plain (run_span run apart) dot).run⟩
        have written := MaskWritten.bits decimal small
        obtain rfl := Option.some.inj ((maskWritten_value written).symm.trans read)
        exact written

end values

section lines
variable {shifted : Int → InAddr} {line q p : CString} {perm perm' : UpnpPerm} {t t' : Tokens}
  {address m : InAddr}

theorem stepOver_ok :
    stepOver q = .ok p ↔ ∃ c sp, q = c :: (sp ++ p) ∧ Span isspace sp p := by
  constructor
  · intro step
    cases q with
    | nil => cases step
    | cons c q =>
      cases step
      refine ⟨c, q.takeWhile isspace, ?_, span_split isspace q⟩
      rw [List.takeWhile_append_dropWhile]
  · intro found
    obtain ⟨c, sp, rfl, span⟩ := found
    rw [stepOver, span.dropWhile]

theorem stepOver_error {e : Exit} : stepOver q = .error e ↔ e = .outside ∧ q = [] := by
  cases q with
  | nil => simp [stepOver, eq_comm]
  | cons c q => simp [stepOver]

/-- What is stored for the tokens. -/
def stored (t : Tokens) (address mask : InAddr) : UpnpPerm :=
  { type := t.type
    eportMin := t.eports.low
    eportMax := t.eports.high
    address
    mask
    iportMin := t.iports.low
    iportMax := t.iports.high }

theorem readTokens_ok :
    readTokens shifted perm line = .ok perm' ↔
      ∃ t address m, HasTokens line t ∧ t.eports.Taken ∧ inetAton t.ip = some address ∧
        maskValue shifted t.mask = some m ∧ t.iports.Taken ∧ perm' = stored t address m := by
  constructor
  · intro read
    simp only [readTokens, bind_ok] at read
    obtain ⟨⟨p₁, s₁⟩, first, ⟨p₂, q₁⟩, eports, s₂, step, ⟨p₃, q₂⟩, net, s₃, step', ⟨p₄, q₃⟩,
      iports, last⟩ := read
    obtain ⟨type, gap, opening, rfl⟩ := readType_ok.mp first
    obtain ⟨t, cut, taken, rfl⟩ := (readPorts_ok ends_space).mp eports
    obtain ⟨c, sp, rfl, white⟩ := stepOver_ok.mp step
    obtain ⟨ip, mask, address, m, cut', value, value', rfl⟩ := readNet_ok.mp net
    obtain ⟨c', sp', rfl, white'⟩ := stepOver_ok.mp step'
    obtain ⟨t', cut'', taken', rfl⟩ := (readPorts_ok ends_last).mp iports
    cases last
    exact ⟨⟨type, gap, t, c, ip, mask, t', q₃⟩, address, m,
      ⟨s₁, sp, s₂, c', sp', s₃, opening, cut, white.run, cut', white'.run, cut''⟩,
      taken, value, value', taken', rfl⟩
  · intro found
    obtain ⟨t, address, m, tokens, taken, value, value', taken', rfl⟩ := found
    obtain ⟨s₁, sp, s₂, c', sp', s₃, opening, cut, white, cut', white', cut''⟩ := tokens
    have visible := span_white white fun _ => netAt_start cut'
    have visible' := span_white white' fun _ => portsAt_start cut''
    simp only [readTokens, bind_ok]
    exact ⟨_, readType_ok.mpr ⟨t.type, t.gap, opening, rfl⟩,
      _, (readPorts_ok ends_space).mpr ⟨t.eports, cut, taken, rfl⟩,
      s₂, stepOver_ok.mpr ⟨t.behind, sp, rfl, visible⟩,
      _, readNet_ok.mpr ⟨t.ip, t.mask, address, m, cut', value, value', rfl⟩,
      s₃, stepOver_ok.mpr ⟨c', sp', rfl, visible'⟩,
      _, (readPorts_ok ends_last).mpr ⟨t.iports, cut'', taken', rfl⟩, rfl⟩

theorem readTokens_outside : readTokens shifted perm line = .error .outside ↔ RunsOff line := by
  simp only [readTokens, bind_error, readType_outside]
  constructor
  · intro read
    rcases read with short | ⟨⟨p₁, s₁⟩, first, eports | ⟨⟨p₂, q₁⟩, eports, past |
      ⟨s₂, step, net | ⟨⟨p₃, q₂⟩, net, past | ⟨s₃, step', iports | ⟨⟨p₄, q₃⟩, _, last⟩⟩⟩⟩⟩⟩
    · exact .inl short
    · obtain ⟨w, same⟩ := readPorts_error ends_space eports
      cases same
    · obtain ⟨type, gap, opening, rfl⟩ := readType_ok.mp first
      obtain ⟨t, cut, taken, rfl⟩ := (readPorts_ok ends_space).mp eports
      obtain ⟨_, rfl⟩ := stepOver_error.mp past
      cases cut' : t with
      | port ds =>
        rw [cut'] at cut
        generalize none : ([] : CString) = q at cut
        cases cut with
        | port decimal apart =>
          rw [← none] at apart
          cases apart
      | range ds ds' =>
        rw [cut'] at cut taken
        exact .inr ⟨type, gap, s₁, ds, ds', opening, cut, taken⟩
    · obtain ⟨w, same⟩ := readNet_error net
      cases same
    · obtain ⟨ip, mask, address, m, cut, _⟩ := readNet_ok.mp net
      have apart := netAt_apart cut
      obtain ⟨_, rfl⟩ := stepOver_error.mp past
      cases apart
    · obtain ⟨w, same⟩ := readPorts_error ends_last iports
      cases same
    · cases last
  · intro off
    rcases off with short | ⟨type, gap, s, ds, ds', opening, cut, taken⟩
    · exact .inl short
    · exact .inr ⟨_, readType_ok.mpr ⟨type, gap, opening, rfl⟩,
        .inr ⟨_, (readPorts_ok ends_space).mpr ⟨_, cut, taken, rfl⟩,
          .inl (stepOver_error.mpr ⟨rfl, rfl⟩)⟩⟩

theorem hasTokens_unique (tokens : HasTokens line t) (again : HasTokens line t') : t = t' := by
  obtain ⟨type, gap, eports, behind, ip, mask, iports, rest⟩ := t
  obtain ⟨type', gap', eports', behind', ip', mask', iports', rest'⟩ := t'
  obtain ⟨s₁, sp, s₂, c, sp', s₃, opening, cut, white, net, white', cut'⟩ := tokens
  obtain ⟨u₁, bl, u₂, d, bl', u₃, opening', port, blank, net', blank', port'⟩ := again
  obtain ⟨rfl, rfl, rfl⟩ := opening_unique opening opening'
  obtain ⟨rfl, tails⟩ := portsAt_unique ends_space cut port
  obtain ⟨rfl, behind⟩ := List.cons.inj tails
  obtain ⟨rfl, rfl⟩ := (span_white white fun _ => netAt_start net).unique
    (span_white blank fun _ => netAt_start net') behind
  obtain ⟨rfl, rfl, tails'⟩ := netAt_unique net net'
  obtain ⟨rfl, rfl⟩ := (span_white white' fun _ => portsAt_start cut').unique
    (span_white blank' fun _ => portsAt_start port') (List.cons.inj tails').2
  obtain ⟨rfl, rfl⟩ := portsAt_unique ends_last cut' port'
  rfl

/-- With tokens that are taken, the rule is the one written exactly if they are clear. -/
theorem written_iff (tokens : HasTokens line t) (taken : Taken t)
    (address' : inetAton t.ip = some address) (mask : maskValue shifted t.mask = some m) :
    Written line t (stored t address m) ↔
      t.gap ≠ [] ∧ t.eports.Clear ∧ isspace t.behind = true ∧ MaskClear t.mask ∧ t.iports.Clear ∧
        White t.rest := by
  obtain ⟨s₁, sp, s₂, c, sp', s₃, _, eports, _, net, _, iports⟩ := id tokens
  constructor
  · intro written
    exact ⟨written.gap, (ports_iff eports taken.eports).mp written.eports, written.behind,
      (mask_iff net mask).mp written.mask, (ports_iff iports taken.iports).mp written.iports,
      written.rest⟩
  · intro clear
    obtain ⟨gap, clear, behind, clear', clear'', rest⟩ := clear
    exact
      { tokens
        type := rfl
        gap
        eports := (ports_iff eports taken.eports).mpr clear
        behind
        address := address'
        mask := (mask_iff net mask).mpr clear'
        iports := (ports_iff iports taken.iports).mpr clear''
        rest }

/-- A line of the form is taken, for the rule it says. -/
theorem written_read (written : Written line t perm') :
    readTokens shifted perm line = .ok perm' := by
  obtain ⟨eports, low, high⟩ := portsWritten_taken written.eports
  obtain ⟨iports, low', high'⟩ := portsWritten_taken written.iports
  apply readTokens_ok.mpr
  refine ⟨t, perm'.address, perm'.mask, written.tokens, eports, written.address,
    maskWritten_value written.mask, iports, ?_⟩
  rw [stored, ← low, ← high, ← low', ← high', ← written.type]

theorem permission_lines_iff (shifted : Int → InAddr) (line : CString) :
    ReadsRight shifted line ↔ Clear line := by
  constructor
  · intro right
    have some : UpnpPerm :=
      { type := .deny, eportMin := 0, eportMax := 0, address := 0, mask := 0, iportMin := 0
        iportMax := 0 }
    obtain ⟨ret, perm', returned, _, _, said⟩ := right some
    have inside : ¬ RunsOff line := by
      intro off
      rw [readPermissionLine, readTokens_outside.mpr off] at returned
      cases returned
    refine ⟨inside, ?_⟩
    intro t tokens taken
    obtain ⟨address, value⟩ := Option.isSome_iff_exists.mp taken.ip
    obtain ⟨m, value'⟩ := (maskTaken_iff shifted t.mask).mp taken.mask
    have read : readTokens shifted some line = .ok (stored t address m) :=
      readTokens_ok.mpr ⟨t, address, m, tokens, taken.eports, value, value', taken.iports, rfl⟩
    rw [readPermissionLine, read] at returned
    cases returned
    obtain ⟨t', written⟩ := said rfl
    obtain rfl := hasTokens_unique tokens written.tokens
    exact (written_iff tokens taken value value').mp written
  · intro clear perm
    cases read : readTokens shifted perm line with
    | ok perm' =>
      obtain ⟨t, address, m, tokens, eports, value, value', iports, rfl⟩ := readTokens_ok.mp read
      have taken : Taken t :=
        ⟨eports, by simp [value], (maskTaken_iff shifted t.mask).mpr ⟨m, value'⟩, iports⟩
      have written := (written_iff tokens taken value value').mpr (clear.clear t tokens taken)
      refine ⟨0, _, by rw [readPermissionLine, read], .inl rfl, ?_, fun _ => ⟨t, written⟩⟩
      exact iff_of_true rfl ⟨t, _, written⟩
    | error e =>
      cases e with
      | outside => exact absurd (readTokens_outside.mp read) clear.inside
      | refused w =>
        refine ⟨-1, w, by rw [readPermissionLine, read], .inr rfl, ?_, ?_⟩
        · apply iff_of_false (by decide)
          intro found
          obtain ⟨t, said, written⟩ := found
          rw [written_read written] at read
          cases read
        · intro accepted
          cases accepted

/-- A mask that is cut off opens the port to every host. -/
theorem missing_bits_accepted :
    let line := "allow 1024 192.168.1.10/ 80".toList
    let perm : UpnpPerm :=
      { type := .deny, eportMin := 0, eportMax := 0, address := 0, mask := 0, iportMin := 0
        iportMax := 0 }
    readPermissionLine (fun _ => 0) perm line =
        some (0, { type := .allow, eportMin := 1024, eportMax := 1024
                   address := ofBytes 192 168 1 10, mask := 0, iportMin := 80, iportMax := 80 }) ∧
      ¬ ReadsRight (fun _ => 0) line := by
  intro line perm
  have accepted : readPermissionLine (fun _ => 0) perm line =
      some (0, { type := .allow, eportMin := 1024, eportMax := 1024
                 address := ofBytes 192 168 1 10, mask := 0, iportMin := 80, iportMax := 80 }) := by
    decide +kernel
  refine ⟨accepted, ?_⟩
  intro right
  obtain ⟨ret, perm', returned, _, _, said⟩ := right perm
  rw [accepted] at returned
  cases returned
  obtain ⟨t, written⟩ := said rfl
  have tokens : HasTokens line
      ⟨.allow, [' '], .port "1024".toList, ' ', "192.168.1.10".toList, some [],
        .port "80".toList, []⟩ := by
    have white : White [] ∧ White [' '] :=
      ⟨List.all_eq_true.mp (by decide), List.all_eq_true.mp (by decide)⟩
    have opening : Opening line .allow [' '] "1024 192.168.1.10/ 80".toList := by
      refine ⟨[], white.1, white.2, ?_, by decide +kernel⟩
      intro c first
      obtain rfl : '1' = c := Option.some.inj first
      rfl
    have eports := @PortsAt.port (starts isspace) "1024".toList " 192.168.1.10/ 80".toList
      ⟨by decide, List.all_eq_true.mp (by decide +kernel)⟩ (by decide +kernel)
    have net := @NetAt.masked "192.168.1.10".toList [] " 80".toList
      ⟨by decide +kernel, List.all_eq_true.mp (by decide +kernel)⟩
      (List.all_eq_true.mp (by decide)) (by decide +kernel)
    have iports := @PortsAt.port (fun q => starts isspace q || q = []) "80".toList []
      ⟨by decide, List.all_eq_true.mp (by decide +kernel)⟩ (by decide +kernel)
    exact ⟨_, [], _, ' ', [], _, opening, eports, white.1, net, white.1, iports⟩
  obtain rfl := hasTokens_unique tokens written.tokens
  have clear := written.mask
  cases clear with
  | bits decimal small => exact decimal.1 rfl
  | dotted dot mask => cases dot

end lines

end PermissionLines
