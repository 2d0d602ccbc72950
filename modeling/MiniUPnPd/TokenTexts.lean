import MiniUPnPd.Lib.Strtok
import MiniUPnPd.UpnpSoapAuth

/-!
The texts in a token, port ranges and address ranges, and the internal address of a request that
is compared with them. They are cut by `strtok`, which merges delimiters, and read by `atoi`, which
stops at the first other character and wraps.
-/
namespace TokenTexts
open CText Inet JwtAuth JwtAuthUtils UpnpSoapAuth

section ports

/-- Two decimal numbers joined by one dash. -/
def WrittenPorts (entry : Json) (a b : Nat) : Prop :=
  ∃ x y, entry = .string (x ++ '-' :: y) ∧ Decimal x ∧ Decimal y ∧
    digitsValue x = a ∧ digitsValue y = b

def PortEntry (entry : Json) : Prop :=
  ∃ a b, WrittenPorts entry a b ∧ (1 ≤ a ∧ a ≤ 65535) ∧ 1 ≤ b ∧ b ≤ 65535

/-- Not a string, too long a string, or one whose first two parts between dashes do not both start
    with a positive number. -/
def PortsRefused : Json → Prop
  | .string s =>
      MAX_PORTRANGE_STR_LEN < s.length ∨
        ∀ x y rest, parts '-' (untilNul s) = x :: y :: rest → atoi x ≤ 0 ∨ atoi y ≤ 0
  | _ => True

theorem portRangeOf_parts (s : CString) :
    portRangeOf (.string s) =
      if s.length > MAX_PORTRANGE_STR_LEN then none
      else
        match parts '-' (untilNul s) with
        | x :: y :: _ =>
            if atoi x ≤ 0 ∨ atoi y ≤ 0 then none else some { start := atous x, stop := atous y }
        | _ => none := by
  rw [portRangeOf]
  split
  · rfl
  · have first := strtok_parts '-' (untilNul s)
    rcases one : strtok '-' (untilNul s) with _ | ⟨x, rest⟩
    · rw [one] at first
      dsimp only at first
      rw [first]
      rfl
    · rw [one] at first
      dsimp only at first
      rw [first]
      have second := strtok_parts '-' rest
      rcases two : strtok '-' rest with _ | ⟨y, rest'⟩
      · rw [two] at second
        dsimp only at second
        simp [second, two]
      · rw [two] at second
        dsimp only at second
        simp [second, two]

theorem portRangeOf_none_iff (entry : Json) : portRangeOf entry = none ↔ PortsRefused entry := by
  cases entry with
  | string s =>
    rw [portRangeOf_parts, PortsRefused]
    by_cases long : s.length > MAX_PORTRANGE_STR_LEN
    · simp [long]
    · rw [if_neg long]
      constructor
      · intro none
        right
        intro x y rest split
        rw [split] at none
        dsimp only at none
        by_contra positive
        rw [if_neg positive] at none
        cases none
      · intro refused
        have low := refused.resolve_left long
        rcases split : parts '-' (untilNul s) with _ | ⟨x, _ | ⟨y, rest⟩⟩
        · rfl
        · rfl
        · exact if_pos (low x y rest split)
  | array entries => exact iff_of_true rfl trivial
  | object fields => exact iff_of_true rfl trivial
  | other => exact iff_of_true rfl trivial

theorem parts_decimal {delim : Char} (other : delim.isDigit = false) {x y : CString}
    (first : Decimal x) (second : Decimal y) : parts delim (x ++ delim :: y) = [x, y] := by
  rw [parts_part first.1 (decimal_absent first other),
    parts_last second.1 (decimal_absent second other)]

theorem WrittenPorts.unique {entry : Json} {a b a' b' : Nat} (written : WrittenPorts entry a b)
    (again : WrittenPorts entry a' b') : a' = a ∧ b' = b := by
  obtain ⟨x, y, rfl, first, second, rfl, rfl⟩ := written
  obtain ⟨x', y', same, first', second', rfl, rfl⟩ := again
  have split := congrArg (parts '-') (Json.string.inj same)
  rw [parts_decimal (by decide) first second, parts_decimal (by decide) first' second'] at split
  obtain ⟨rfl, rfl⟩ : x = x' ∧ y = y' := by simpa using split
  exact ⟨rfl, rfl⟩

theorem toNat_atous {x : CString} (decimal : Decimal x) (small : digitsValue x ≤ 65535) :
    (atous x).toNat = digitsValue x := by
  rw [atous, atoi_decimal decimal (by omega)]
  simp only [UInt16.ofInt, UInt16.toNat_ofNat']
  omega

/-- A range that is written as it should be is stored as it is written. -/
theorem portRangeOf_written {entry : Json} {a b : Nat} (written : WrittenPorts entry a b)
    (low : a ≤ 65535) (high : b ≤ 65535) {range : PortRange} (read : portRangeOf entry = some range) :
    range.start.toNat = a ∧ range.stop.toNat = b := by
  obtain ⟨x, y, rfl, first, second, rfl, rfl⟩ := written
  have plain : '\x00' ∉ x ++ '-' :: y := by
    have before := decimal_absent first (show ('\x00').isDigit = false by decide)
    have behind := decimal_absent second (show ('\x00').isDigit = false by decide)
    simp [before, behind]
  rw [portRangeOf_parts, untilNul_text plain, parts_decimal (by decide) first second] at read
  dsimp only at read
  split at read
  · simp at read
  · split at read
    · simp at read
    · cases read
      exact ⟨toNat_atous first low, toNat_atous second high⟩

theorem mapM_portRangeOf (entries : List Json) :
    (∃ entry ∈ entries, PortsRefused entry) ∧ entries.mapM portRangeOf = none ∨
      ∃ ranges, entries.mapM portRangeOf = some ranges ∧
        entries.map portRangeOf = ranges.map some := by
  induction entries with
  | nil => exact .inr ⟨[], rfl, rfl⟩
  | cons entry entries ih =>
    rw [List.mapM_cons]
    cases read : portRangeOf entry with
    | none =>
      left
      have refused := (portRangeOf_none_iff entry).mp read
      exact ⟨⟨entry, List.mem_cons_self, refused⟩, rfl⟩
    | some range =>
      rcases ih with ⟨⟨bad, member, refused⟩, none⟩ | ⟨ranges, all, same⟩
      · left
        refine ⟨⟨bad, List.mem_cons_of_mem entry member, refused⟩, ?_⟩
        rw [none]
        rfl
      · right
        refine ⟨range :: ranges, ?_, ?_⟩
        · rw [all]
          rfl
        · rw [List.map_cons, List.map_cons, read, same]

def portEntries (jobj : Json) : List Json :=
  (retrieveJsonArrayFromJsonObj jobj "pub_port_range").getD []

/-- The check of a port lets through exactly what the entries say, and other entries than pairs of
    port numbers make the array invalid. -/
structure PortsRight (jobj : Json) : Prop where
  admits : ∀ ranges intIpRange eport,
    retrievePortRangeFromJsonObj jobj "pub_port_range" = some ranges →
      (containsPort { pubPortRange := ranges, intIpRange } eport = true ↔
        ∃ entry ∈ portEntries jobj, ∃ a b, WrittenPorts entry a b ∧
          a ≤ eport.toNat ∧ eport.toNat ≤ b)
  rejects : ∀ entry ∈ portEntries jobj, ¬ PortEntry entry →
    retrievePortRangeFromJsonObj jobj "pub_port_range" = none

/-- What the entries say of a port, once they are all stored as they are written. -/
theorem containsPort_written {entries : List Json} {ranges : List PortRange}
    (same : entries.map portRangeOf = ranges.map some)
    (pairs : ∀ entry ∈ entries, PortEntry entry) (intIpRange : List IpRange) (eport : UInt16) :
    containsPort { pubPortRange := ranges, intIpRange } eport = true ↔
      ∃ entry ∈ entries, ∃ a b, WrittenPorts entry a b ∧ a ≤ eport.toNat ∧ eport.toNat ≤ b := by
  simp only [containsPort, List.any_eq_true, decide_eq_true_eq, ge_iff_le, UInt16.le_iff_toNat_le]
  constructor
  · intro granted
    obtain ⟨range, member, inside⟩ := granted
    have stored : some range ∈ entries.map portRangeOf := same ▸ List.mem_map_of_mem member
    obtain ⟨entry, listed, read⟩ := List.mem_map.mp stored
    obtain ⟨a, b, written, low, high⟩ := pairs entry listed
    obtain ⟨rfl, rfl⟩ := portRangeOf_written written low.2 high.2 read
    exact ⟨entry, listed, _, _, written, inside⟩
  · intro named
    obtain ⟨entry, listed, a, b, written, inside⟩ := named
    have stored : portRangeOf entry ∈ ranges.map some := same ▸ List.mem_map_of_mem listed
    obtain ⟨range, member, read⟩ := List.mem_map.mp stored
    obtain ⟨a', b', written', low, high⟩ := pairs entry listed
    obtain ⟨rfl, rfl⟩ := written'.unique written
    obtain ⟨rfl, rfl⟩ := portRangeOf_written written low.2 high.2 read.symm
    exact ⟨range, member, inside⟩

/-- An array is read right exactly if all of its entries are pairs of port numbers, or one of them
    is refused. -/
theorem ports_right_iff (jobj : Json) :
    PortsRight jobj ↔
      (∀ entry ∈ portEntries jobj, PortEntry entry) ∨
        ∃ entry ∈ portEntries jobj, PortsRefused entry := by
  have unread (none : retrievePortRangeFromJsonObj jobj "pub_port_range" = none) :
      PortsRight jobj := by
    constructor
    · intro ranges intIpRange eport read
      rw [none] at read
      cases read
    · intro _ _ _
      exact none
  cases found : retrieveJsonArrayFromJsonObj jobj "pub_port_range" with
  | none =>
    have empty : portEntries jobj = [] := by simp [portEntries, found]
    rw [empty]
    exact iff_of_true (unread (by simp [retrievePortRangeFromJsonObj, found])) (.inl (by simp))
  | some entries =>
    have listed : portEntries jobj = entries := by simp [portEntries, found]
    have read : retrievePortRangeFromJsonObj jobj "pub_port_range" =
        entries.mapM portRangeOf := by
      simp [retrievePortRangeFromJsonObj, found]
    rcases mapM_portRangeOf entries with ⟨refused, none⟩ | ⟨ranges, all, same⟩
    · rw [listed]
      exact iff_of_true (unread (read.trans none)) (.inr refused)
    · constructor
      · intro right
        left
        intro entry member
        by_contra other
        have none := right.rejects entry member other
        rw [read, all] at none
        cases none
      · intro condition
        rw [listed] at condition
        have pairs : ∀ entry ∈ entries, PortEntry entry := by
          refine condition.resolve_right ?_
          intro refused
          obtain ⟨entry, member, refused⟩ := refused
          have stored : portRangeOf entry ∈ ranges.map some := same ▸ List.mem_map_of_mem member
          rw [(portRangeOf_none_iff entry).mpr refused] at stored
          simp at stored
        constructor
        · intro ranges' intIpRange eport again
          rw [read, all] at again
          cases again
          rw [listed]
          exact containsPort_written same pairs intIpRange eport
        · intro entry member other
          rw [listed] at member
          exact absurd (pairs entry member) other

/-- A range of ports beyond 65535 is stored modulo 2^16: it grants port 1. -/
theorem wrapped_range_wrong :
    ¬ PortsRight (.object [("pub_port_range".toList, .array [.string "65537-65540".toList])]) := by
  intro right
  have granted := (right.admits [⟨1, 4⟩] [] 1 (by rfl)).mp (by decide)
  obtain ⟨entry, member, a, b, written, low, _⟩ := granted
  obtain rfl : entry = .string "65537-65540".toList := List.mem_singleton.mp member
  have plain : WrittenPorts (.string "65537-65540".toList) 65537 65540 :=
    ⟨"65537".toList, "65540".toList, rfl, ⟨by decide, List.all_eq_true.mp (by decide)⟩,
      ⟨by decide, List.all_eq_true.mp (by decide)⟩, by decide, by decide⟩
  obtain ⟨rfl, rfl⟩ := plain.unique written
  exact absurd low (by decide)

end ports

section ranges

/-- Four numbers and a prefix length. -/
structure RangeTexts where
  a : CString
  b : CString
  c : CString
  d : CString
  m : CString

def RangeTexts.octets (x : RangeTexts) : List CString := [x.a, x.b, x.c, x.d]

def RangeTexts.addr (x : RangeTexts) : CString :=
  x.a ++ '.' :: (x.b ++ '.' :: (x.c ++ '.' :: x.d))

def RangeTexts.text (x : RangeTexts) : CString := x.addr ++ '/' :: x.m

def RangeTexts.address (x : RangeTexts) : InAddr :=
  ofBytes (digitsValue x.a) (digitsValue x.b) (digitsValue x.c) (digitsValue x.d)

structure RangeTexts.Valid (x : RangeTexts) : Prop where
  octets : ∀ t ∈ x.octets, Decimal t ∧ digitsValue t ≤ 255
  bits : Decimal x.m ∧ digitsValue x.m ≤ 32

def PlainZero (t : CString) : Prop := digitsValue t = 0 → t = "0".toList

/-- Zero is written with one digit. -/
def RangeTexts.PlainZeros (x : RangeTexts) : Prop := (∀ t ∈ x.octets, PlainZero t) ∧ PlainZero x.m

def WrittenRange (s : CString) (x : RangeTexts) : Prop := x.Valid ∧ s = x.text

/-- The text starts with a number from 1 to the limit, or it is a zero. -/
def Loose (limit : Int) (t : CString) : Prop := 0 < atoi t ∧ atoi t ≤ limit ∨ t = "0".toList

/-- After empty parts have been dropped, four parts between dots and one behind a slash start with
    numbers, where 256 counts as an octet. -/
def LooseRange (s : CString) : Prop :=
  ∃ addr mask rest a b c d rest', parts '/' s = addr :: mask :: rest ∧
    parts '.' addr = a :: b :: c :: d :: rest' ∧ (∀ t ∈ [a, b, c, d], Loose 256 t) ∧ Loose 32 mask

theorem numberUpTo_isSome_iff {limit : Int} (positive : 0 < limit) (t : CString) :
    (numberUpTo limit t).isSome ↔ Loose limit t := by
  have zero : atoi "0".toList = 0 := by decide
  unfold numberUpTo Loose
  dsimp only
  by_cases plain : t = "0".toList
  · subst plain
    simp only [zero, ne_eq, not_true_eq_false, and_false, or_false, or_true, iff_true]
    rw [if_neg (by omega)]
    rfl
  · simp only [plain, ne_eq, not_false_eq_true, and_true, or_false]
    split
    · rename_i bad
      exact iff_of_false (by simp) (by omega)
    · rename_i good
      exact iff_of_true rfl (by omega)

theorem numberUpTo_plain {limit : Int} {t : CString} (decimal : Decimal t)
    (small : (digitsValue t : Int) ≤ limit) (limited : limit < 2 ^ 31) (plain : PlainZero t) :
    numberUpTo limit t = some (digitsValue t : Int) := by
  have value : atoi t = digitsValue t := atoi_decimal decimal (by omega)
  unfold numberUpTo
  dsimp only
  rw [value, if_neg]
  intro bad
  rcases bad with large | negative | ⟨zero, longer⟩
  · omega
  · omega
  · exact longer (plain (by omega))

theorem plainZero_of_number {limit v : Int} {t : CString} (decimal : Decimal t)
    (read : numberUpTo limit t = some v) : PlainZero t := by
  intro zero
  have value : atoi t = 0 := by
    rw [atoi_decimal decimal (by omega), zero]
    rfl
  by_contra longer
  unfold numberUpTo at read
  dsimp only at read
  rw [value, if_pos (.inr (.inr ⟨rfl, longer⟩))] at read
  cases read

theorem parseSegments_parts (s : CString) :
    parseSegments s =
      match parts '.' s with
      | a :: b :: c :: d :: _ => do
          let a ← numberUpTo 256 a
          let b ← numberUpTo 256 b
          let c ← numberUpTo 256 c
          let d ← numberUpTo 256 d
          some (BitVec.ofInt 32 (a * 2 ^ 24 + b * 2 ^ 16 + c * 2 ^ 8 + d))
      | _ => none := by
  rw [parseSegments]
  have first := strtok_parts '.' s
  rcases one : strtok '.' s with _ | ⟨a, s⟩
  · rw [one] at first
    simp [first]
  · rw [one] at first
    have second := strtok_parts '.' s
    rcases two : strtok '.' s with _ | ⟨b, s⟩
    · rw [two] at second
      simp [first, second, two]
    · rw [two] at second
      have third := strtok_parts '.' s
      rcases three : strtok '.' s with _ | ⟨c, s⟩
      · rw [three] at third
        simp [first, second, third, two, three]
      · rw [three] at third
        have fourth := strtok_parts '.' s
        rcases four : strtok '.' s with _ | ⟨d, s⟩
        · rw [four] at fourth
          simp [first, second, third, fourth, two, three, four]
        · rw [four] at fourth
          simp [first, second, third, fourth, two, three, four]

theorem parseIpMaskString_parts (s : CString) :
    parseIpMaskString s =
      match parts '/' s with
      | addr :: mask :: _ => do
          let address ← parseSegments addr
          let mask ← numberUpTo 32 mask
          some (address, mask.toNat)
      | _ => none := by
  rw [parseIpMaskString]
  have first := strtok_parts '/' s
  rcases one : strtok '/' s with _ | ⟨addr, s⟩
  · rw [one] at first
    simp [first]
  · rw [one] at first
    have second := strtok_parts '/' s
    rcases two : strtok '/' s with _ | ⟨mask, s⟩
    · rw [two] at second
      simp [first, second, two]
    · rw [two] at second
      simp [first, second, two]

theorem loose_of_number {limit v : Int} {t : CString} (positive : 0 < limit)
    (read : numberUpTo limit t = some v) : Loose limit t :=
  (numberUpTo_isSome_iff positive t).mp (Option.isSome_of_eq_some read)

theorem number_of_loose {limit : Int} {t : CString} (positive : 0 < limit)
    (loose : Loose limit t) : ∃ v, numberUpTo limit t = some v :=
  Option.isSome_iff_exists.mp ((numberUpTo_isSome_iff positive t).mpr loose)

theorem accepted_iff (s : CString) :
    (∃ address mask, parseIpMaskString s = some (address, mask)) ↔ LooseRange s := by
  rw [parseIpMaskString_parts]
  constructor
  · intro accepted
    obtain ⟨address, mask, read⟩ := accepted
    rcases split : parts '/' s with _ | ⟨addr, _ | ⟨m, rest⟩⟩
    · rw [split] at read
      cases read
    · rw [split] at read
      cases read
    · rw [split] at read
      simp only [Option.bind_eq_bind, Option.bind_eq_some_iff] at read
      obtain ⟨_, segments, _, bits, _⟩ := read
      rw [parseSegments_parts] at segments
      rcases dots : parts '.' addr with _ | ⟨a, _ | ⟨b, _ | ⟨c, _ | ⟨d, rest'⟩⟩⟩⟩
      · rw [dots] at segments
        cases segments
      · rw [dots] at segments
        cases segments
      · rw [dots] at segments
        cases segments
      · rw [dots] at segments
        cases segments
      · rw [dots] at segments
        simp only [Option.bind_eq_bind, Option.bind_eq_some_iff] at segments
        obtain ⟨_, first, _, second, _, third, _, fourth, _⟩ := segments
        refine ⟨addr, m, rest, a, b, c, d, rest', split, dots, ?_, loose_of_number (by decide) bits⟩
        simp [loose_of_number (show (0 : Int) < 256 by decide) first,
          loose_of_number (show (0 : Int) < 256 by decide) second,
          loose_of_number (show (0 : Int) < 256 by decide) third,
          loose_of_number (show (0 : Int) < 256 by decide) fourth]
  · intro loose
    obtain ⟨addr, m, rest, a, b, c, d, rest', split, dots, octets, bits⟩ := loose
    have octet : ∀ t ∈ [a, b, c, d], ∃ v, numberUpTo 256 t = some v :=
      fun t member => number_of_loose (by decide) (octets t member)
    obtain ⟨_, first⟩ := octet a (by simp)
    obtain ⟨_, second⟩ := octet b (by simp)
    obtain ⟨_, third⟩ := octet c (by simp)
    obtain ⟨_, fourth⟩ := octet d (by simp)
    obtain ⟨_, mask⟩ := number_of_loose (by decide) bits
    rw [split]
    dsimp only
    rw [parseSegments_parts, dots]
    simp [first, second, third, fourth, mask]

section valid
variable {x y : RangeTexts}

theorem valid_octet (valid : x.Valid) {t : CString} (octet : t ∈ x.octets) :
    t ≠ [] ∧ '.' ∉ t ∧ '/' ∉ t :=
  have decimal := (valid.octets t octet).1
  ⟨decimal.1, decimal_absent decimal (by decide), decimal_absent decimal (by decide)⟩

theorem parts_addr (valid : x.Valid) : parts '.' x.addr = x.octets := by
  have a := valid_octet valid (show x.a ∈ x.octets by simp [RangeTexts.octets])
  have b := valid_octet valid (show x.b ∈ x.octets by simp [RangeTexts.octets])
  have c := valid_octet valid (show x.c ∈ x.octets by simp [RangeTexts.octets])
  have d := valid_octet valid (show x.d ∈ x.octets by simp [RangeTexts.octets])
  rw [RangeTexts.addr, parts_part a.1 a.2.1, parts_part b.1 b.2.1, parts_part c.1 c.2.1,
    parts_last d.1 d.2.1]
  rfl

theorem parts_text (valid : x.Valid) : parts '/' x.text = [x.addr, x.m] := by
  have a := valid_octet valid (show x.a ∈ x.octets by simp [RangeTexts.octets])
  have b := valid_octet valid (show x.b ∈ x.octets by simp [RangeTexts.octets])
  have c := valid_octet valid (show x.c ∈ x.octets by simp [RangeTexts.octets])
  have d := valid_octet valid (show x.d ∈ x.octets by simp [RangeTexts.octets])
  have some : x.addr ≠ [] := by simp [RangeTexts.addr, a.1]
  have absent : '/' ∉ x.addr := by simp [RangeTexts.addr, a.2.2, b.2.2, c.2.2, d.2.2]
  rw [RangeTexts.text, parts_part some absent,
    parts_last valid.bits.1.1 (decimal_absent valid.bits.1 (by decide))]

/-- A text is written in one way only. -/
theorem written_unique (valid : x.Valid) (again : y.Valid) (same : x.text = y.text) : x = y := by
  have slash := congrArg (parts '/') same
  rw [parts_text valid, parts_text again] at slash
  obtain ⟨addr, bits⟩ : x.addr = y.addr ∧ x.m = y.m := by simpa using slash
  have dots := congrArg (parts '.') addr
  rw [parts_addr valid, parts_addr again] at dots
  cases x
  cases y
  simp_all [RangeTexts.octets]

theorem parsed_octet (valid : x.Valid) (plain : x.PlainZeros) {t : CString} (octet : t ∈ x.octets) :
    numberUpTo 256 t = some (digitsValue t : Int) := by
  obtain ⟨decimal, small⟩ := valid.octets t octet
  exact numberUpTo_plain decimal (by omega) (by decide) (plain.1 t octet)

theorem parsed_valid (valid : x.Valid) (plain : x.PlainZeros) :
    parseIpMaskString x.text = some (x.address, digitsValue x.m) := by
  have bits : numberUpTo 32 x.m = some (digitsValue x.m : Int) :=
    numberUpTo_plain valid.bits.1 (by exact_mod_cast valid.bits.2) (by decide) plain.2
  have cast : ((digitsValue x.a : Int) * 2 ^ 24 + digitsValue x.b * 2 ^ 16 +
      digitsValue x.c * 2 ^ 8 + digitsValue x.d) = ((digitsValue x.a * 2 ^ 24 +
        digitsValue x.b * 2 ^ 16 + digitsValue x.c * 2 ^ 8 + digitsValue x.d : Nat) : Int) := by
    omega
  have segments : parseSegments x.addr = some x.address := by
    rw [parseSegments_parts, parts_addr valid]
    simp only [RangeTexts.octets]
    rw [parsed_octet valid plain (t := x.a) (by simp [RangeTexts.octets]),
      parsed_octet valid plain (t := x.b) (by simp [RangeTexts.octets]),
      parsed_octet valid plain (t := x.c) (by simp [RangeTexts.octets]),
      parsed_octet valid plain (t := x.d) (by simp [RangeTexts.octets])]
    simp only [Option.bind_eq_bind, Option.bind_some]
    rw [cast, BitVec.ofInt_natCast]
    rfl
  rw [parseIpMaskString_parts, parts_text valid]
  simp [segments, bits]

theorem plain_of_loose (valid : x.Valid) (loose : LooseRange x.text) : x.PlainZeros := by
  obtain ⟨addr, m, rest, a, b, c, d, rest', split, dots, octets, bits⟩ := loose
  rw [parts_text valid] at split
  obtain ⟨rfl, rfl⟩ : x.addr = addr ∧ x.m = m := by simp_all
  rw [parts_addr valid] at dots
  obtain ⟨rfl, rfl, rfl, rfl⟩ : x.a = a ∧ x.b = b ∧ x.c = c ∧ x.d = d := by
    simp_all [RangeTexts.octets]
  constructor
  · intro t octet
    obtain ⟨v, read⟩ := number_of_loose (by decide) (octets t octet)
    exact plainZero_of_number (valid.octets t octet).1 read
  · obtain ⟨v, read⟩ := number_of_loose (by decide) bits
    exact plainZero_of_number valid.bits.1 read

end valid

/-- The text is accepted exactly if it is a range, with its address and prefix length, and an
    accepted range has the addresses with its first bits. -/
structure RangeRight (s : CString) : Prop where
  parses : ∀ address mask, parseIpMaskString s = some (address, mask) ↔
    ∃ x, WrittenRange s x ∧ address = x.address ∧ mask = digitsValue x.m
  contains : ∀ address mask target, parseIpMaskString s = some (address, mask) →
    (containIp address mask target = 1 ↔ SamePrefix address mask target)

/-- A text is read right exactly if it is a range in which zeros have one digit, or if it is none
    and not even loosely. -/
theorem range_right_iff (s : CString) :
    RangeRight s ↔
      (∃ x, WrittenRange s x ∧ x.PlainZeros) ∨ (¬ ∃ x, WrittenRange s x) ∧ ¬ LooseRange s := by
  have contains : ∀ address mask target, parseIpMaskString s = some (address, mask) →
      (containIp address mask target = 1 ↔ SamePrefix address mask target) :=
    fun address mask target _ => containIp_iff address mask target
  by_cases written : ∃ x, WrittenRange s x
  · obtain ⟨x, valid, rfl⟩ := written
    constructor
    · intro right
      have read := (right.parses x.address (digitsValue x.m)).mpr ⟨x, ⟨valid, rfl⟩, rfl, rfl⟩
      have loose := (accepted_iff x.text).mp ⟨_, _, read⟩
      exact .inl ⟨x, ⟨valid, rfl⟩, plain_of_loose valid loose⟩
    · intro condition
      rcases condition with ⟨y, ⟨valid', same⟩, plain⟩ | ⟨unwritten, _⟩
      · obtain rfl := written_unique valid valid' same
        have read := parsed_valid valid plain
        refine ⟨?_, contains⟩
        intro address mask
        rw [read]
        constructor
        · intro parsed
          obtain ⟨rfl, rfl⟩ : x.address = address ∧ digitsValue x.m = mask := by simpa using parsed
          exact ⟨x, ⟨valid, rfl⟩, rfl, rfl⟩
        · intro named
          obtain ⟨z, ⟨valid'', same'⟩, rfl, rfl⟩ := named
          rw [written_unique valid valid'' same']
      · exact absurd ⟨x, valid, rfl⟩ unwritten
  · constructor
    · intro right
      right
      refine ⟨written, ?_⟩
      intro loose
      obtain ⟨address, mask, read⟩ := (accepted_iff s).mpr loose
      obtain ⟨x, form, _⟩ := (right.parses address mask).mp read
      exact written ⟨x, form⟩
    · intro condition
      have refused : ¬ LooseRange s := by
        rcases condition with ⟨x, form, _⟩ | ⟨_, refused⟩
        · exact absurd ⟨x, form⟩ written
        · exact refused
      refine ⟨?_, contains⟩
      intro address mask
      constructor
      · intro read
        exact absurd ((accepted_iff s).mp ⟨address, mask, read⟩) refused
      · intro named
        obtain ⟨x, form, _⟩ := named
        exact absurd ⟨x, form⟩ written

/-- An octet of 256 is carried into the next one. -/
theorem carried_octet_wrong : ¬ RangeRight "10.0.256.1/32".toList := by
  intro right
  have read : parseIpMaskString "10.0.256.1/32".toList = some (ofBytes 10 1 0 1, 32) := by decide
  obtain ⟨x, ⟨valid, same⟩, _⟩ := (right.parses _ _).mp read
  have slash := parts_text valid
  rw [← same, show parts '/' "10.0.256.1/32".toList = ["10.0.256.1".toList, "32".toList] by
    decide +kernel] at slash
  have dots := parts_addr valid
  rw [← (List.cons.inj slash).1, show parts '.' "10.0.256.1".toList =
    ["10".toList, "0".toList, "256".toList, "1".toList] by decide +kernel] at dots
  have octet : "256".toList ∈ x.octets := by
    rw [← dots]
    decide
  exact absurd (valid.octets _ octet).2 (by decide)

end ranges

section address

/-- The texts that AddPortMapping passes on: accepted by `inet_pton`, or written by `inet_ntoa`. -/
def PassedOn (s : CString) : Prop := (∃ a, inetPton s = some a) ∨ ∃ a, s = inetNtoa a

/-- The bytes behind the copy, up to a dot, leave its last number as it is: they are none behind a
    zero, and digits among them make the number wrap around to the same. -/
def Ended (s tail : CString) : Prop :=
  ∀ a, s = inetNtoa a →
    (byte a 0 = 0 → tail.takeWhile (· ≠ '.') = []) ∧
      min (2 ^ 63 - 1) (digitsValue (utoa (byte a 0) ++ tail.takeWhile (· ≠ '.'))) % 2 ^ 32 =
        byte a 0

/-- The address that is authorised is the one that is mapped, and the same whatever the heap
    holds. -/
structure Authorised (s tail tail' : CString) : Prop where
  mapped : ∃ a, parseIpAddress tail s = some a ∧ inetAton s = some a
  same : parseIpAddress tail' s = parseIpAddress tail s

theorem numberUpTo_octet {n : Nat} (small : n < 256) : numberUpTo 256 (utoa n) = some (n : Int) := by
  have value := digitsValue_utoa n
  have read : PlainZero (utoa n) → numberUpTo 256 (utoa n) = some (digitsValue (utoa n) : Int) :=
    numberUpTo_plain (decimal_utoa n) (by omega) (by decide)
  rw [value] at read
  apply read
  intro zero
  rw [value] at zero
  rw [zero]
  rfl

theorem bmod_eq_iff (v : Int) {n : Nat} (small : n < 256) :
    v.bmod (2 ^ 32) = n ↔ v % 2 ^ 32 = n := by
  rw [Int.bmod_def]
  split <;> omega

/-- The last number is read as it is written exactly if it is followed by nothing that counts. -/
theorem numberUpTo_last {n : Nat} (small : n < 256) (u : CString) :
    numberUpTo 256 (utoa n ++ u) = some (n : Int) ↔
      (n = 0 → u = []) ∧ min (2 ^ 63 - 1) (digitsValue (utoa n ++ u)) % 2 ^ 32 = n := by
  have value : atoi (utoa n ++ u) =
      (min (2 ^ 63 - 1) (digitsValue (utoa n ++ u) : Int)).bmod (2 ^ 32) := by
    cases written : utoa n with
    | nil => exact absurd written Nat.toDigits_ne_nil
    | cons d ds =>
      have digit : d.isDigit = true := utoa_digits n d (by simp [written])
      exact atoi_digit digit (ds ++ u)
  have zero : utoa n ++ u = "0".toList ↔ n = 0 ∧ u = [] := by
    constructor
    · intro one
      have digit : "0".toList = ['0'] := rfl
      rw [digit] at one
      cases written : utoa n with
      | nil => exact absurd written Nat.toDigits_ne_nil
      | cons d ds =>
        rw [written] at one
        obtain ⟨rfl, rest⟩ := List.cons.inj one
        obtain ⟨rfl, empty⟩ := List.append_eq_nil_iff.mp rest
        exact ⟨utoa_head_zero n (by simp [written]), empty⟩
    · intro both
      rw [both.1, both.2]
      rfl
  have wraps : atoi (utoa n ++ u) = n ↔
      min (2 ^ 63 - 1) (digitsValue (utoa n ++ u)) % 2 ^ 32 = n := by
    rw [value, bmod_eq_iff _ small]
    omega
  rw [← wraps]
  unfold numberUpTo
  dsimp only
  constructor
  · intro read
    split at read
    · cases read
    · rename_i good
      have here : atoi (utoa n ++ u) = n := Option.some.inj read
      refine ⟨?_, here⟩
      intro none
      by_contra more
      exact good (.inr (.inr ⟨by omega, fun one => more (zero.mp one).2⟩))
  · intro both
    obtain ⟨plain, here⟩ := both
    rw [here, if_neg]
    intro bad
    rcases bad with large | negative | ⟨none, longer⟩
    · omega
    · omega
    · have empty : n = 0 := by omega
      exact longer (zero.mpr ⟨empty, plain empty⟩)

theorem parseIpAddress_inetNtoa (a : InAddr) (tail : CString) :
    parseIpAddress tail (inetNtoa a) =
      (numberUpTo 256 (utoa (byte a 0) ++ tail.takeWhile (· ≠ '.'))).map fun v =>
        BitVec.ofInt 32 (byte a 3 * 2 ^ 24 + byte a 2 * 2 ^ 16 + byte a 1 * 2 ^ 8 + v) := by
  have short := inetNtoa_length a
  rw [parseIpAddress, if_neg (by rw [MAX_IP_STR_LEN]; omega)]
  simp only [parseSegments, inetNtoa, List.append_assoc, List.cons_append, strtok_utoa,
    Option.bind_eq_bind, Option.bind_some]
  simp only [strtok_utoa_last, Option.bind_some, numberUpTo_octet (byte_lt a _)]
  cases numberUpTo 256 (utoa (byte a 0) ++ tail.takeWhile (· ≠ '.')) with
  | none => rfl
  | some v => rfl

theorem ofInt_octet_inj {k : Nat} {v w : Int} (first : 0 ≤ v ∧ v ≤ 256) (second : 0 ≤ w ∧ w ≤ 256)
    (same : BitVec.ofInt 32 (k + v) = BitVec.ofInt 32 (k + w)) : v = w := by
  have values := congrArg BitVec.toNat same
  simp only [BitVec.toNat_ofInt] at values
  omega

theorem numberUpTo_range {limit v : Int} {t : CString} (read : numberUpTo limit t = some v) :
    0 ≤ v ∧ v ≤ limit := by
  unfold numberUpTo at read
  dsimp only at read
  split at read
  · cases read
  · cases read
    omega

theorem parseIpAddress_iff (a : InAddr) (tail : CString) :
    parseIpAddress tail (inetNtoa a) = some a ↔
      numberUpTo 256 (utoa (byte a 0) ++ tail.takeWhile (· ≠ '.')) = some (byte a 0 : Int) := by
  rw [parseIpAddress_inetNtoa]
  constructor
  · intro read
    obtain ⟨v, number, whole⟩ := Option.map_eq_some_iff.mp read
    have octet := byte_lt a 0
    have same : BitVec.ofInt 32 (byte a 3 * 2 ^ 24 + byte a 2 * 2 ^ 16 + byte a 1 * 2 ^ 8 + v) =
        BitVec.ofInt 32 (byte a 3 * 2 ^ 24 + byte a 2 * 2 ^ 16 + byte a 1 * 2 ^ 8 + byte a 0) :=
      whole.trans (ofInt_octets a).symm
    have equal := @ofInt_octet_inj (byte a 3 * 2 ^ 24 + byte a 2 * 2 ^ 16 + byte a 1 * 2 ^ 8) v
      (byte a 0) (numberUpTo_range number) (by omega) (by exact_mod_cast same)
    rw [number, equal]
  · intro number
    rw [number, Option.map_some, ofInt_octets]

theorem passedOn_text {s : CString} (passed : PassedOn s) : ∃ a, s = inetNtoa a := by
  rcases passed with ⟨a, read⟩ | written
  · exact ⟨a, (inetPton_iff s a).mp read⟩
  · exact written

theorem mapped_iff {s : CString} (passed : PassedOn s) (tail : CString) :
    (∃ a, parseIpAddress tail s = some a ∧ inetAton s = some a) ↔ Ended s tail := by
  obtain ⟨a, rfl⟩ := passedOn_text passed
  have one : (∃ b, parseIpAddress tail (inetNtoa a) = some b ∧ inetAton (inetNtoa a) = some b) ↔
      parseIpAddress tail (inetNtoa a) = some a := by
    rw [inetAton_inetNtoa]
    constructor
    · intro found
      obtain ⟨b, read, same⟩ := found
      rw [read, ← same]
    · intro read
      exact ⟨a, read, rfl⟩
  rw [one, parseIpAddress_iff, numberUpTo_last (byte_lt a 0)]
  constructor
  · intro both b same
    rw [← inetNtoa_injective same]
    exact both
  · intro ended
    exact ended a rfl

/-- The right address is authorised, whatever the heap holds in two runs, exactly if in both the
    number is ended. -/
theorem client_authorised_iff {s : CString} (passed : PassedOn s) (tail tail' : CString) :
    Authorised s tail tail' ↔ Ended s tail ∧ Ended s tail' := by
  rw [← mapped_iff passed tail, ← mapped_iff passed tail']
  constructor
  · intro right
    obtain ⟨a, read, mapped⟩ := right.mapped
    exact ⟨⟨a, read, mapped⟩, a, right.same.trans read, mapped⟩
  · intro both
    obtain ⟨⟨a, read, mapped⟩, b, read', mapped'⟩ := both
    obtain rfl := Option.some.inj (mapped.symm.trans mapped')
    exact ⟨⟨a, read, mapped⟩, read'.trans read.symm⟩

theorem ended_authorised : Authorised "192.168.1.2".toList [] ".".toList := by
  have passed : PassedOn "192.168.1.2".toList := .inr ⟨ofBytes 192 168 1 2, by decide +kernel⟩
  apply (client_authorised_iff passed [] ".".toList).mpr
  constructor
  · exact (mapped_iff passed []).mp ⟨ofBytes 192 168 1 2, by decide +kernel, by decide +kernel⟩
  · exact (mapped_iff passed _).mp ⟨ofBytes 192 168 1 2, by decide +kernel, by decide +kernel⟩

/-- With a digit left in the heap another host is authorised than the one that is mapped. -/
theorem digit_after_copy_wrong : ¬ Authorised "192.168.1.2".toList "0".toList [] := by
  intro right
  obtain ⟨a, read, mapped⟩ := right.mapped
  have host : parseIpAddress "0".toList "192.168.1.2".toList = some (ofBytes 192 168 1 20) := by
    decide +kernel
  have target : inetAton "192.168.1.2".toList = some (ofBytes 192 168 1 2) := by decide +kernel
  rw [host] at read
  rw [target, ← Option.some.inj read] at mapped
  exact absurd (Option.some.inj mapped) (by decide)

end address

end TokenTexts
