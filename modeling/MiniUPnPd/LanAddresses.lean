import MiniUPnPd.Lib.CPointer
import MiniUPnPd.Lib.Inet

/-!
The `listening_ip` texts, and the LAN of a peer. A mask that is missing or cut off is read as 0,
and what stands right behind it as the name of an interface, so that a text that is not of the
documented form may open the daemon to every host.
-/
namespace LanAddresses
open CPointer CText Inet

section source

structure LanAddr where
  ifname : CString
  index : Nat
  str : CString
  addr : InAddr
  mask : InAddr
  addIndexes : Nat
  deriving DecidableEq

/-- What the system knows of its interfaces. An unknown name has the index 0. -/
structure Interfaces where
  getifaddr : CString → Option (CString × InAddr × InAddr)
  ifNametoindex : CString → Nat

def IFNAMSIZ : Nat := 16

/-- `nbits ? (0xffffffff << (32 - nbits)) : 0` -/
def netmask (nbits : Nat) : InAddr :=
  if nbits = 0 then 0 else BitVec.allOnes 32 <<< (32 - nbits)

def isMaskChar (c : Char) : Bool := c = '.' || c.isDigit

/-- Behind the slash: the mask, and what follows it. -/
def parseMask (q : CString) : Except Stop (InAddr × CString) :=
  let p := q.dropWhile Char.isDigit
  if p.head? = some '.' then
    let p := p.dropWhile isMaskChar
    let n := q.length - p.length
    if n ≥ 16 then .error .failed
    else
      match inetAton (q.take n) with
      | none => .error .failed
      | some mask => .ok (mask, p)
  else
    let nbits := atoi q
    if nbits > 32 ∨ nbits < 0 then .error .failed else .ok (netmask nbits.toNat, p)

/-- The interfaces named in the rest. A name that is too long ends the list. -/
def addedIndexes (env : Interfaces) (p : CString) (addIndexes : Nat) : Nat :=
  match _h : p.dropWhile isspace with
  | [] => addIndexes
  | c :: s =>
      let tmp := c :: s.takeWhile fun c => !isspace c
      if tmp.length ≥ 16 then addIndexes
      else
        let index := env.ifNametoindex tmp
        addedIndexes env (s.dropWhile fun c => !isspace c)
          (if index = 0 then addIndexes else addIndexes ||| 2 ^ (index - 1) % 2 ^ 64)
termination_by p.length
decreasing_by
  have skipped := (List.dropWhile_suffix isspace (l := p)).length_le
  have word := (List.dropWhile_suffix (fun c => !isspace c) (l := s)).length_le
  rw [_h, List.length_cons] at skipped
  omega

/-- The address, or that of the interface that is named. -/
def parseName (env : Interfaces) (str name : CString) : Except Stop LanAddr :=
  if ¬ (str.head?.getD '\x00').isDigit ∧ name.length < IFNAMSIZ then
    match env.getifaddr name with
    | none => .error .failed
    | some (text, addr, mask) =>
        .ok { ifname := name, index := 0, str := text, addr, mask, addIndexes := 0 }
  else if name.length > 15 then .error .failed
  else
    match inetAton name with
    | none => .error .failed
    | some addr => .ok { ifname := [], index := 0, str := name, addr, mask := 0, addIndexes := 0 }

def isNameChar (c : Char) : Bool := c ≠ '/' && !isspace c

def parselanaddr (env : Interfaces) (str : CString) : Except Stop LanAddr := do
  let p := str.dropWhile isNameChar
  let lan ← parseName env str (str.takeWhile isNameChar)
  let (mask, p) ←
    if p.head? = some '/' then do
      let q ← next p
      parseMask q
    else .ok (if lan.mask = 0 then netmask 24 else lan.mask, p)
  return { lan with
    mask
    addIndexes := addedIndexes env p lan.addIndexes
    index := if lan.ifname = [] then lan.index else env.ifNametoindex lan.ifname }

/-- The first LAN with the address of the peer. -/
def getLanForPeer (lanAddrs : List LanAddr) (peer : InAddr) : Option LanAddr :=
  lanAddrs.find? fun lan => peer &&& lan.mask = lan.addr &&& lan.mask

end source

section form

/-- Nothing follows, or white space and the names of interfaces. -/
def Separated (rest : CString) : Prop := ∀ c ∈ rest.head?, isspace c = true

def IsName (t : CString) : Prop := ∀ c ∈ t, isNameChar c = true

def DottedMask (ms : CString) : Prop := (∀ c ∈ ms, isMaskChar c = true) ∧ '.' ∈ ms

/-- A number of bits or a mask in dotted form, and the mask that is written. -/
inductive WrittenMask : CString → InAddr → Prop
  | bits {ds rest : CString} (decimal : Decimal ds) (small : digitsValue ds ≤ 32)
      (apart : Separated rest) : WrittenMask (ds ++ rest) (netmask (digitsValue ds))
  | dotted {ms rest : CString} {m : InAddr} (quad : DottedMask ms) (mask : inetAton ms = some m)
      (apart : Separated rest) : WrittenMask (ms ++ rest) m

/-- The documented forms, with the address and the mask that are written. -/
inductive Written : CString → InAddr → InAddr → Prop
  | alone {t rest : CString} {a : InAddr} (name : IsName t) (addr : inetAton t = some a)
      (apart : Separated rest) : Written (t ++ rest) a (netmask 24)
  | masked {t s : CString} {a m : InAddr} (name : IsName t) (addr : inetAton t = some a)
      (mask : WrittenMask s m) : Written (t ++ '/' :: s) a m

/-- What is accepted has the documented form, and is read as it is written. -/
def ParsesRight (env : Interfaces) (str : CString) : Prop :=
  parselanaddr env str ≠ .error .outside ∧
    ∀ lan, parselanaddr env str = .ok lan → Written str lan.addr lan.mask

/-- What stands behind the slash is refused, or it is a mask as documented. -/
structure MaskClear (s : CString) : Prop where
  dotted : ∀ ms rest, s = ms ++ rest → DottedMask ms → Span isMaskChar ms rest →
    ms.length < 16 → (inetAton ms).isSome → Separated rest
  bits : ∀ ds rest, s = ds ++ rest → Span Char.isDigit ds rest → rest.head? ≠ some '.' →
    0 ≤ atoi s ∧ atoi s ≤ 32 → ds ≠ [] ∧ digitsValue ds ≤ 32 ∧ Separated rest

/-- This holds behind an address that is accepted. -/
def Clear (str : CString) : Prop :=
  ∀ t s, str = t ++ '/' :: s → IsName t → t.length ≤ 15 → (inetAton t).isSome → MaskClear s

end form

section masks
variable {s rest : CString} {m : InAddr}

theorem isMaskChar_of_isDigit {c : Char} (digit : c.isDigit = true) : isMaskChar c = true := by
  simp [isMaskChar, digit]

/-- The digits are followed by a dot exactly if a mask in dotted form stands there. -/
theorem dot_iff {ms rest : CString} (span : Span isMaskChar ms rest) :
    ((ms ++ rest).dropWhile Char.isDigit).head? = some '.' ↔ '.' ∈ ms := by
  obtain ⟨run, stop⟩ := span
  induction ms with
  | nil =>
    simp only [List.nil_append, List.not_mem_nil, iff_false]
    cases rest with
    | nil => simp
    | cons c rest =>
      have other := stop c rfl
      simp only [isMaskChar, Bool.or_eq_false_iff, decide_eq_false_iff_not] at other
      rw [List.dropWhile_cons_of_neg (by simp [other.2])]
      simpa using other.1
  | cons c ms ih =>
    rw [List.cons_append]
    by_cases digit : c.isDigit = true
    · have others := ih fun d member => run d (List.mem_cons_of_mem c member)
      rw [List.dropWhile_cons_of_pos digit, others]
      have other : '.' ≠ c := by
        intro same
        rw [← same] at digit
        exact absurd digit (by decide)
      simp [other]
    · have dot : c = '.' := by
        have first := run c List.mem_cons_self
        simpa [isMaskChar, digit] using first
      rw [List.dropWhile_cons_of_neg digit]
      simp [dot]

/-- The two scans of a dotted mask end where one would. -/
theorem dropWhile_digits (s : CString) :
    (s.dropWhile Char.isDigit).dropWhile isMaskChar = s.dropWhile isMaskChar := by
  have digits : ∀ c ∈ s.takeWhile Char.isDigit, isMaskChar c = true := by
    intro c member
    exact isMaskChar_of_isDigit (List.mem_takeWhile_imp member)
  have skipped := @List.dropWhile_append_of_pos _ isMaskChar _ (s.dropWhile Char.isDigit) digits
  rw [List.takeWhile_append_dropWhile] at skipped
  exact skipped.symm

theorem parseMask_eq (s : CString) :
    parseMask s =
      if '.' ∈ s.takeWhile isMaskChar then
        if (s.takeWhile isMaskChar).length ≥ 16 then .error .failed
        else
          match inetAton (s.takeWhile isMaskChar) with
          | none => .error .failed
          | some mask => .ok (mask, s.dropWhile isMaskChar)
      else if atoi s > 32 ∨ atoi s < 0 then .error .failed
      else .ok (netmask (atoi s).toNat, s.dropWhile Char.isDigit) := by
  have dot := dot_iff (span_split isMaskChar s)
  rw [List.takeWhile_append_dropWhile] at dot
  have whole : s.takeWhile isMaskChar ++ s.dropWhile isMaskChar = s :=
    List.takeWhile_append_dropWhile
  have length : s.length - (s.dropWhile isMaskChar).length = (s.takeWhile isMaskChar).length := by
    have sum := congrArg List.length whole
    rw [List.length_append] at sum
    omega
  have text : s.take (s.takeWhile isMaskChar).length = s.takeWhile isMaskChar := by
    have front := @List.take_left _ (s.takeWhile isMaskChar) (s.dropWhile isMaskChar)
    rw [whole] at front
    exact front
  simp only [parseMask, dot, dropWhile_digits, length, text]

theorem parseMask_inside (s : CString) : parseMask s ≠ .error .outside := by
  rw [parseMask_eq]
  split
  · split
    · simp
    · split <;> simp
  · split <;> simp

/-- How the text behind the slash is read. -/
inductive ReadsMask : CString → InAddr → CString → Prop
  | dotted {ms rest : CString} {m : InAddr} (quad : DottedMask ms) (span : Span isMaskChar ms rest)
      (short : ms.length < 16) (mask : inetAton ms = some m) : ReadsMask (ms ++ rest) m rest
  | bits {ds rest : CString} (span : Span Char.isDigit ds rest) (other : rest.head? ≠ some '.')
      (range : 0 ≤ atoi (ds ++ rest) ∧ atoi (ds ++ rest) ≤ 32) :
      ReadsMask (ds ++ rest) (netmask (atoi (ds ++ rest)).toNat) rest

theorem parseMask_iff : parseMask s = .ok (m, rest) ↔ ReadsMask s m rest := by
  have dot := dot_iff (span_split isMaskChar s)
  rw [List.takeWhile_append_dropWhile] at dot
  rw [parseMask_eq]
  constructor
  · intro read
    split at read
    · rename_i quad
      split at read
      · cases read
      · rename_i short
        cases mask : inetAton (s.takeWhile isMaskChar) with
        | none => simp [mask] at read
        | some m' =>
          simp only [mask, Except.ok.injEq, Prod.mk.injEq] at read
          obtain ⟨rfl, rfl⟩ := read
          have span := span_split isMaskChar s
          have reads := ReadsMask.dotted ⟨span.run, quad⟩ span (by omega) mask
          rwa [List.takeWhile_append_dropWhile] at reads
    · rename_i plain
      split at read
      · cases read
      · rename_i range
        simp only [Except.ok.injEq, Prod.mk.injEq] at read
        obtain ⟨rfl, rfl⟩ := read
        have reads := ReadsMask.bits (span_split Char.isDigit s) (fun first => plain (dot.mp first))
        rw [List.takeWhile_append_dropWhile] at reads
        exact reads (by omega)
  · intro reads
    cases reads with
    | dotted quad span short mask =>
      rw [span.takeWhile, span.dropWhile, if_pos quad.2, if_neg (by omega), mask]
    | bits span other range =>
      rw [span.dropWhile] at dot
      rw [if_neg fun quad => other (dot.mpr quad), if_neg (by omega), span.dropWhile]

end masks

section addresses
variable {env : Interfaces} {str t s rest : CString} {a m : InAddr} {lan : LanAddr}

theorem span_slash (name : IsName t) (s : CString) : Span isNameChar t ('/' :: s) :=
  span_cons name rfl s

theorem span_apart {p : Char → Bool} {w : CString} (run : ∀ c ∈ w, p c = true)
    (other : ∀ c, isspace c = true → p c = false) (apart : Separated rest) : Span p w rest where
  run := run
  stop := fun c first => other c (apart c first)

theorem not_isNameChar {c : Char} (space : isspace c = true) : isNameChar c = false := by
  simp [isNameChar, space]

theorem not_isMaskChar {c : Char} (space : isspace c = true) : isMaskChar c = false := by
  have other : c ≠ '.' := by
    intro same
    rw [same] at space
    exact absurd space (by decide)
  simp [isMaskChar, other, not_isDigit_of_isspace space]

theorem span_digits {ds : CString} (decimal : Decimal ds) (apart : Separated rest) :
    Span Char.isDigit ds rest := span_apart decimal.2 (fun _ => not_isDigit_of_isspace) apart

theorem span_dotted {ms : CString} (quad : DottedMask ms) (apart : Separated rest) :
    Span isMaskChar ms rest := span_apart quad.1 (fun _ => not_isMaskChar) apart

/-- The digits of a number of bits are not the start of a dotted mask. -/
theorem not_dotted {ds ms rest' : CString} (digits : Span Char.isDigit ds rest)
    (other : rest.head? ≠ some '.') (dotted : Span isMaskChar ms rest') (dot : '.' ∈ ms) :
    ds ++ rest ≠ ms ++ rest' := by
  intro same
  have first := (dot_iff dotted).mpr dot
  rw [← same, digits.dropWhile] at first
  exact other first

theorem separated_dot (apart : Separated rest) : rest.head? ≠ some '.' := by
  intro dot
  exact absurd (apart '.' dot) (by decide)

theorem writtenMask_unique {m' : InAddr} (written : WrittenMask s m) (again : WrittenMask s m') :
    m = m' := by
  generalize same : s = s' at again
  cases written with
  | bits decimal small apart =>
    have digits := span_digits decimal apart
    cases again with
    | bits decimal' small' apart' =>
      obtain ⟨rfl, _⟩ := digits.unique (span_digits decimal' apart') same
      rfl
    | dotted quad mask apart' =>
      exact absurd same
        (not_dotted digits (separated_dot apart) (span_dotted quad apart') quad.2)
  | dotted quad mask apart =>
    have dotted := span_dotted quad apart
    cases again with
    | bits decimal small apart' =>
      exact absurd same.symm
        (not_dotted (span_digits decimal apart') (separated_dot apart') dotted quad.2)
    | dotted quad' mask' apart' =>
      obtain ⟨rfl, _⟩ := dotted.unique (span_dotted quad' apart') same
      exact Option.some.inj (mask.symm.trans mask')

theorem written_slash (name : IsName t) (written : Written (t ++ '/' :: s) a m) :
    inetAton t = some a ∧ WrittenMask s m := by
  generalize whole : t ++ '/' :: s = str at written
  cases written with
  | @alone t' rest' _ name' addr apart =>
    have same := (span_slash name s).unique (span_apart name' (fun _ => not_isNameChar) apart) whole
    rw [← same.2] at apart
    exact absurd (apart '/' rfl) (by decide)
  | @masked t' s' _ _ name' addr mask =>
    have same := (span_slash name s).unique (span_slash name' s') whole
    obtain ⟨rfl, tails⟩ := same
    rw [(List.cons.inj tails).2]
    exact ⟨addr, mask⟩

theorem written_unique {a' m' : InAddr} (written : Written str a m) (again : Written str a' m') :
    a = a' ∧ m = m' := by
  cases written with
  | @alone t rest _ name addr apart =>
    have span := span_apart name (fun _ => not_isNameChar) apart
    generalize same : t ++ rest = str at again
    cases again with
    | alone name' addr' apart' =>
      obtain ⟨rfl, _⟩ := span.unique (span_apart name' (fun _ => not_isNameChar) apart') same
      exact ⟨Option.some.inj (addr.symm.trans addr'), rfl⟩
    | masked name' addr' mask' =>
      have tails := (span.unique (span_slash name' _) same).2
      rw [tails] at apart
      exact absurd (apart '/' rfl) (by decide)
  | masked name addr mask =>
    obtain ⟨addr', mask'⟩ := written_slash name again
    exact ⟨Option.some.inj (addr.symm.trans addr'), writtenMask_unique mask mask'⟩

/-- What is read behind the slash is written there, exactly if it is clear. -/
theorem maskClear_iff : (∀ m rest, ReadsMask s m rest → WrittenMask s m) ↔ MaskClear s := by
  constructor
  · intro right
    constructor
    · intro ms rest whole quad span short some
      obtain ⟨m, mask⟩ := Option.isSome_iff_exists.mp some
      have reads := ReadsMask.dotted quad span short mask
      rw [← whole] at reads
      have written := right m rest reads
      rw [whole] at written
      generalize same : ms ++ rest = s' at written
      cases written with
      | bits decimal small apart =>
        exact absurd same.symm
          (not_dotted (span_digits decimal apart) (separated_dot apart) span quad.2)
      | dotted quad' mask' apart =>
        rw [(span.unique (span_dotted quad' apart) same).2]
        exact apart
    · intro ds rest whole span other range
      rw [whole] at range
      have written := right _ rest (whole ▸ ReadsMask.bits span other range)
      rw [whole] at written
      generalize same : ds ++ rest = s' at written
      generalize netmask (atoi s').toNat = m at written
      cases written with
      | bits decimal small apart =>
        obtain ⟨rfl, rfl⟩ := span.unique (span_digits decimal apart) same
        exact ⟨decimal.1, small, apart⟩
      | dotted quad mask apart =>
        exact absurd same (not_dotted span other (span_dotted quad apart) quad.2)
  · intro clear m rest reads
    cases reads with
    | @dotted ms _ _ quad span short mask =>
      have apart := clear.dotted ms rest rfl quad span short (by simp [mask])
      exact .dotted quad mask apart
    | @bits ds _ span other range =>
      obtain ⟨some, small, apart⟩ := clear.bits ds rest rfl span other range
      have decimal : Decimal ds := ⟨some, span.run⟩
      have value : atoi (ds ++ rest) = digitsValue ds :=
        (atoi_span decimal span).trans (atoi_decimal decimal (by omega))
      rw [value]
      exact .bits decimal small apart

/-- A text that starts with a digit is no interface name. -/
theorem parseName_digit (digit : ∃ c ∈ str.head?, c.isDigit = true) (name : CString) :
    parseName env str name =
      if name.length > 15 then .error .failed
      else
        match inetAton name with
        | none => .error .failed
        | some addr =>
            .ok { ifname := [], index := 0, str := name, addr, mask := 0, addIndexes := 0 } := by
  obtain ⟨c, first, isDigit⟩ := digit
  rw [parseName, if_neg]
  simp [Option.mem_def.mp first, isDigit]

theorem parselanaddr_slash (digit : ∃ c ∈ (t ++ '/' :: s).head?, c.isDigit = true)
    (name : IsName t) (short : t.length ≤ 15) (addr : inetAton t = some a) :
    parselanaddr env (t ++ '/' :: s) =
      (parseMask s).map fun (mask, p) =>
        { ifname := [], index := 0, str := t, addr := a, mask
          addIndexes := addedIndexes env p 0 } := by
  have span := span_slash name s
  rw [parselanaddr, span.takeWhile, span.dropWhile, parseName_digit digit, if_neg (by omega), addr]
  cases read : parseMask s with
  | error e => simp [next, read, bind, Except.bind, Except.map]
  | ok found => simp [next, read, bind, Except.bind, Except.map, pure, Except.pure]

theorem parselanaddr_alone (digit : ∃ c ∈ (t ++ rest).head?, c.isDigit = true)
    (name : IsName t) (apart : Separated rest) (short : t.length ≤ 15)
    (addr : inetAton t = some a) :
    parselanaddr env (t ++ rest) =
      .ok { ifname := [], index := 0, str := t, addr := a, mask := netmask 24
            addIndexes := addedIndexes env rest 0 } := by
  have span := span_apart name (fun _ => not_isNameChar) apart
  have other : rest.head? ≠ some '/' := by
    intro slash
    exact absurd (apart '/' slash) (by decide)
  rw [parselanaddr, span.takeWhile, span.dropWhile, parseName_digit digit, if_neg (by omega), addr]
  simp [other, bind, Except.bind, pure, Except.pure]

theorem parselanaddr_refused (digit : ∃ c ∈ str.head?, c.isDigit = true)
    (refused : ¬ ((str.takeWhile isNameChar).length ≤ 15 ∧
      (inetAton (str.takeWhile isNameChar)).isSome)) :
    parselanaddr env str = .error .failed := by
  rw [parselanaddr, parseName_digit digit]
  split
  · rfl
  · cases addr : inetAton (str.takeWhile isNameChar) with
    | none => rfl
    | some a => exact absurd ⟨by omega, by simp [addr]⟩ refused

/-- The text is refused, or it has an address with or without a slash behind it. -/
theorem digit_cases (digit : ∃ c ∈ str.head?, c.isDigit = true) (env : Interfaces) :
    (parselanaddr env str = .error .failed ∧
        ∀ t s, str = t ++ '/' :: s → IsName t → ¬ (t.length ≤ 15 ∧ (inetAton t).isSome)) ∨
      ∃ t a, IsName t ∧ t.length ≤ 15 ∧ inetAton t = some a ∧
        ((∃ s, str = t ++ '/' :: s) ∨ ∃ rest, Separated rest ∧ str = t ++ rest) := by
  have whole : str.takeWhile isNameChar ++ str.dropWhile isNameChar = str :=
    List.takeWhile_append_dropWhile
  have span := span_split isNameChar str
  by_cases accepted : (str.takeWhile isNameChar).length ≤ 15 ∧
      (inetAton (str.takeWhile isNameChar)).isSome
  · obtain ⟨a, addr⟩ := Option.isSome_iff_exists.mp accepted.2
    refine .inr ⟨str.takeWhile isNameChar, a, span.run, accepted.1, addr, ?_⟩
    cases behind : str.dropWhile isNameChar with
    | nil =>
      rw [behind] at whole
      exact .inr ⟨[], by simp [Separated], whole.symm⟩
    | cons c rest =>
      rw [behind] at whole span
      by_cases slash : c = '/'
      · rw [slash] at whole
        exact .inl ⟨rest, whole.symm⟩
      · have other := span.stop c rfl
        have space : isspace c = true := by simpa [isNameChar, slash] using other
        refine .inr ⟨c :: rest, ?_, whole.symm⟩
        intro d first
        obtain rfl : c = d := by simpa using first
        exact space
  · refine .inl ⟨parselanaddr_refused digit accepted, ?_⟩
    intro t s same name
    rw [same, (span_slash name s).takeWhile] at accepted
    exact accepted

theorem parsesRight_iff (digit : ∃ c ∈ str.head?, c.isDigit = true) (env : Interfaces) :
    ParsesRight env str ↔ Clear str := by
  rcases digit_cases digit env with ⟨refused, none⟩ | ⟨t, a, name, short, addr, slash | plain⟩
  · constructor
    · intro _ t s same name short some
      exact absurd ⟨short, some⟩ (none t s same name)
    · intro _
      exact ⟨by simp [refused], by simp [refused]⟩
  · obtain ⟨s, rfl⟩ := slash
    have parsed := @parselanaddr_slash env t s a digit name short addr
    have inside := parseMask_inside s
    constructor
    · intro right t' s' same name' short' some
      obtain ⟨rfl, tails⟩ := (span_slash name s).unique (span_slash name' s') same
      rw [← (List.cons.inj tails).2]
      apply maskClear_iff.mp
      intro m rest reads
      have accepted := parseMask_iff.mpr reads
      rw [accepted] at parsed
      exact (written_slash name (right.2 _ parsed)).2
    · intro clear
      have masks := maskClear_iff.mpr (clear t s rfl name short (by simp [addr]))
      cases read : parseMask s with
      | error e =>
        rw [read] at parsed inside
        rw [ParsesRight, parsed]
        exact ⟨by simpa [Except.map] using inside, by simp [Except.map]⟩
      | ok found =>
        obtain ⟨m, rest⟩ := found
        rw [read] at parsed
        rw [ParsesRight, parsed]
        refine ⟨by simp [Except.map], ?_⟩
        intro lan same
        simp only [Except.map, Except.ok.injEq] at same
        subst same
        exact .masked name addr (masks m rest (parseMask_iff.mp read))
  · obtain ⟨rest, apart, rfl⟩ := plain
    constructor
    · intro _ t' s' same name' _ _
      have span := span_apart name (fun _ => not_isNameChar) apart
      have tails := (span.unique (span_slash name' s') same).2
      rw [tails] at apart
      exact absurd (apart '/' rfl) (by decide)
    · intro _
      rw [ParsesRight, parselanaddr_alone digit name apart short addr]
      refine ⟨by simp, ?_⟩
      intro lan same
      simp only [Except.ok.injEq] at same
      subst same
      exact .alone name addr apart

/-- The LANs that are configured; a text that is refused is only reported. -/
def lanAddrs (env : Interfaces) (strs : List CString) : List LanAddr :=
  strs.foldl (fun lans str =>
    match parselanaddr env str with
    | .ok lan => lan :: lans
    | .error _ => lans) []

theorem mem_lanAddrs {strs : List CString} :
    lan ∈ lanAddrs env strs ↔ ∃ str ∈ strs, parselanaddr env str = .ok lan := by
  have behind : ∀ lans : List LanAddr,
      lan ∈ strs.foldl (fun lans str =>
        match parselanaddr env str with
        | .ok lan => lan :: lans
        | .error _ => lans) lans ↔
      lan ∈ lans ∨ ∃ str ∈ strs, parselanaddr env str = .ok lan := by
    induction strs with
    | nil => simp
    | cons str strs ih =>
      intro lans
      rw [List.foldl_cons, ih]
      cases parsed : parselanaddr env str with
      | error e => simp [parsed]
      | ok found =>
        simp only [List.mem_cons, exists_eq_or_imp, parsed, Except.ok.injEq]
        constructor
        · intro either
          rcases either with (same | before) | later
          · exact .inr (.inl same.symm)
          · exact .inl before
          · exact .inr (.inr later)
        · intro either
          rcases either with before | same | later
          · exact .inl (.inr before)
          · exact .inl (.inl same.symm)
          · exact .inr later
  simpa [lanAddrs] using behind []

/-- A peer is taken for a host of a LAN if it has the prefix written for one that is accepted. -/
def PeersRight (env : Interfaces) (strs : List CString) : Prop :=
  ∀ peer, (getLanForPeer (lanAddrs env strs) peer).isSome ↔
    ∃ str ∈ strs, (parselanaddr env str).isOk ∧
      ∃ a m, Written str a m ∧ peer &&& m = a &&& m

theorem peersRight_of_parsesRight {strs : List CString}
    (right : ∀ str ∈ strs, ParsesRight env str) : PeersRight env strs := by
  intro peer
  rw [getLanForPeer, List.find?_isSome]
  constructor
  · intro found
    obtain ⟨lan, member, same⟩ := found
    obtain ⟨str, inside, parsed⟩ := mem_lanAddrs.mp member
    refine ⟨str, inside, by simp [parsed, Except.isOk, Except.toBool], lan.addr, lan.mask, ?_⟩
    exact ⟨(right str inside).2 lan parsed, of_decide_eq_true same⟩
  · intro found
    obtain ⟨str, inside, accepted, a, m, written, same⟩ := found
    cases parsed : parselanaddr env str with
    | error e => simp [parsed, Except.isOk, Except.toBool] at accepted
    | ok lan =>
      obtain ⟨rfl, rfl⟩ := written_unique written ((right str inside).2 lan parsed)
      exact ⟨lan, mem_lanAddrs.mpr ⟨str, inside, parsed⟩, decide_eq_true same⟩

theorem lan_hosts_iff (env : Interfaces) :
    (∀ str, (∃ c ∈ str.head?, c.isDigit = true) → (ParsesRight env str ↔ Clear str)) ∧
      ∀ strs, (∀ str ∈ strs, (∃ c ∈ str.head?, c.isDigit = true) ∧ Clear str) →
        PeersRight env strs := by
  refine ⟨fun str digit => parsesRight_iff digit env, ?_⟩
  intro strs clear
  apply peersRight_of_parsesRight
  intro str member
  exact (parsesRight_iff (clear str member).1 env).mpr (clear str member).2

def noInterfaces : Interfaces := { getifaddr := fun _ => none, ifNametoindex := fun _ => 0 }

theorem lan_hosts_private : Clear "192.168.1.1/24".toList := by
  have digit : ∃ c ∈ "192.168.1.1/24".toList.head?, c.isDigit = true := ⟨'1', rfl, rfl⟩
  have name : IsName "192.168.1.1".toList := List.all_eq_true.mp (by decide +kernel)
  have addr : inetAton "192.168.1.1".toList = some 0xC0A80101 := by decide +kernel
  have parsed := @parselanaddr_slash noInterfaces "192.168.1.1".toList "24".toList 0xC0A80101
    digit name (by decide) addr
  have mask : parseMask "24".toList = .ok (netmask 24, []) := by decide +kernel
  have decimal : Decimal "24".toList := ⟨by decide, List.all_eq_true.mp (by decide +kernel)⟩
  have written : WrittenMask ("24".toList ++ []) (netmask (digitsValue "24".toList)) :=
    .bits decimal (by decide +kernel) (by simp [Separated])
  apply ((lan_hosts_iff noInterfaces).1 _ digit).mp
  rw [mask] at parsed
  constructor
  · intro outside
    exact absurd (parsed.symm.trans outside) (by simp [Except.map])
  · intro lan same
    have found := Except.ok.inj (parsed.symm.trans same)
    rw [← found]
    exact .masked name addr written

/-- Without a number behind the slash, every host is taken for one of the LAN. -/
theorem every_host_accepted :
    ∃ lan, parselanaddr noInterfaces "192.168.1.1/".toList = .ok lan ∧
      (∀ peer, (getLanForPeer [lan] peer).isSome) ∧
      ¬ ParsesRight noInterfaces "192.168.1.1/".toList := by
  have digit : ∃ c ∈ "192.168.1.1/".toList.head?, c.isDigit = true := ⟨'1', rfl, rfl⟩
  have name : IsName "192.168.1.1".toList := List.all_eq_true.mp (by decide +kernel)
  have addr : inetAton "192.168.1.1".toList = some 0xC0A80101 := by decide +kernel
  have parsed := @parselanaddr_slash noInterfaces "192.168.1.1".toList [] 0xC0A80101
    digit name (by decide) addr
  have mask : parseMask [] = .ok (0, []) := by decide +kernel
  rw [mask] at parsed
  refine ⟨_, parsed, ?_, ?_⟩
  · intro peer
    simp [getLanForPeer]
  · intro right
    have clear := (parsesRight_iff digit noInterfaces).mp right "192.168.1.1".toList [] rfl name
      (by decide) (by rw [addr]; rfl)
    have read := clear.bits [] [] rfl ⟨by simp, by simp⟩ (by simp) (by decide +kernel)
    exact read.1 rfl

end addresses

end LanAddresses
