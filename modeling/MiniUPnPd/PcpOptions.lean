import MiniUPnPd.PcpServer

/-!
The options of a PCP request. The reader goes from option to option by the sum of their length
and the size of the header, in 16 bits and without the padding. It never leaves the area and
always comes to an end, but it keeps step with the encoding only where this sum is the size of
the option.
-/
namespace PcpOptions
open NetBytes PcpServer

section encoding

/-- The padding up to a multiple of four bytes is not part of the length. -/
structure PcpOption where
  code : UInt8
  reserved : UInt8
  data : List UInt8
  padding : List UInt8
  short : data.length < 2 ^ 16
  padded : padding.length = (4 - data.length % 4) % 4

def PcpOption.bytes (o : PcpOption) : List UInt8 :=
  o.code :: o.reserved :: writeNU16 (UInt16.ofNat o.data.length) ++ (o.data ++ o.padding)

def encode (options : List PcpOption) : List UInt8 := options.flatMap PcpOption.bytes

/-- The length with the header, as the reader adds them up. -/
def PcpOption.sum (o : PcpOption) : UInt16 := UInt16.ofNat o.data.length + 4

/-- The sum is the size of the option. -/
def PcpOption.Whole (o : PcpOption) : Prop := o.padding = [] ∧ o.data.length < 65532

end encoding

section reader

/-- What is read from these bytes and goes on as told, if the bytes are all there. -/
def reading {Value Result : Type} (bytes : List UInt8) (i length : Nat) (value : Value)
    (further : Value → Option Result) : Option Result :=
  if i + length ≤ bytes.length then further value else none

/-- `parsePCPOption` on the bytes that remain, with a check for each read. -/
def parseOption (bytes : List UInt8) (info : PcpInfo) : Option (UInt16 × PcpInfo) :=
  let failed (code : UInt8) : Option (UInt16 × PcpInfo) := some (0, info.fail code)
  if bytes.length < PCP_OPTION_HDR_SIZE then failed PCP_ERR_MALFORMED_OPTION
  else
    reading bytes 2 2 (readNU16 bytes 2) fun length =>
    let optionLength := length + 4
    if bytes.length < optionLength.toNat then failed PCP_ERR_MALFORMED_OPTION
    else
      reading bytes 0 1 (byteAt bytes 0) fun code =>
      if code = PCP_OPTION_3RD_PARTY then
        if optionLength ≠ PCP_3RD_PARTY_OPTION_SIZE ∨ info.thirdpIp.isSome then
          failed PCP_ERR_MALFORMED_OPTION
        else
          reading bytes 4 16 (readAddr bytes 4) fun thirdp =>
          some (optionLength, { info with thirdpIp := some thirdp, mappedIp := thirdp })
      else if code = PCP_OPTION_PREF_FAIL then
        if optionLength ≠ PCP_PREFER_FAIL_OPTION_SIZE then failed PCP_ERR_MALFORMED_OPTION
        else
          let info :=
            if info.opcode ≠ PCP_OPCODE_MAP then info.fail PCP_ERR_MALFORMED_REQUEST else info
          if info.pfailurePresent then some (optionLength, info.fail PCP_ERR_MALFORMED_OPTION)
          else some (optionLength, { info with pfailurePresent := true })
      else if code = PCP_OPTION_FILTER then
        if optionLength ≠ PCP_FILTER_OPTION_SIZE then failed PCP_ERR_MALFORMED_OPTION
        else if info.opcode ≠ PCP_OPCODE_MAP then failed PCP_ERR_MALFORMED_REQUEST
        else some (optionLength, info)
      else if code < 128 then some (optionLength, info.fail PCP_ERR_UNSUPP_OPTION)
      else some (optionLength, info)

/-- The loop of `parsePCPOptions` on the bytes that remain from offset `k` on, with the offsets
    of the options that it visits. -/
inductive Parses : (k : Nat) → (bytes : List UInt8) → PcpInfo → (visits : List Nat) → PcpInfo →
    Prop where
  | ended {k : Nat} {info : PcpInfo} : Parses k [] info [] info
  | stopped {k : Nat} {bytes : List UInt8} {info last : PcpInfo} (left : bytes ≠ [])
      (read : parseOption bytes info = some (0, last)) : Parses k bytes info [k] last
  | goesOn {k : Nat} {bytes : List UInt8} {info next last : PcpInfo} {optionLength : UInt16}
      {visits : List Nat} (left : bytes ≠ [])
      (read : parseOption bytes info = some (optionLength, next)) (step : optionLength ≠ 0)
      (rest : Parses (k + optionLength.toNat) (bytes.drop optionLength.toNat) next visits last) :
      Parses k bytes info (k :: visits) last

end reader

section errors

/-- What decides whether an option is in order: the opcode and the options before it. -/
structure Given where
  opcode : UInt8
  third : Bool
  prefer : Bool

def given (info : PcpInfo) : Given :=
  { opcode := info.opcode, third := info.thirdpIp.isSome, prefer := info.pfailurePresent }

/-- The option sets an error. -/
def Given.Errs (g : Given) (code : UInt8) (sum : UInt16) : Prop :=
  if code = PCP_OPTION_3RD_PARTY then sum ≠ PCP_3RD_PARTY_OPTION_SIZE ∨ g.third = true
  else if code = PCP_OPTION_PREF_FAIL then
    sum ≠ PCP_PREFER_FAIL_OPTION_SIZE ∨ g.opcode ≠ PCP_OPCODE_MAP ∨ g.prefer = true
  else if code = PCP_OPTION_FILTER then
    sum ≠ PCP_FILTER_OPTION_SIZE ∨ g.opcode ≠ PCP_OPCODE_MAP
  else code < 128

instance (g : Given) (code : UInt8) (sum : UInt16) : Decidable (g.Errs code sum) := by
  unfold Given.Errs
  infer_instance

/-- After an error at this option, nothing further is read. -/
def Halts (code : UInt8) (sum : UInt16) : Prop :=
  code = PCP_OPTION_3RD_PARTY ∨ code = PCP_OPTION_FILTER ∨
    (code = PCP_OPTION_PREF_FAIL ∧ sum ≠ PCP_PREFER_FAIL_OPTION_SIZE) ∨ sum = 0

instance (code : UInt8) (sum : UInt16) : Decidable (Halts code sum) := by
  unfold Halts
  infer_instance

def Given.next (g : Given) (code : UInt8) : Given :=
  if code = PCP_OPTION_3RD_PARTY then { g with third := true }
  else if code = PCP_OPTION_PREF_FAIL then { g with prefer := true }
  else g

def codeOf (bytes : List UInt8) : UInt8 := byteAt bytes 0

def sumOf (bytes : List UInt8) : UInt16 := readNU16 bytes 2 + 4

/-- There is a header, and what it says is not longer than what remains. -/
def Fits (bytes : List UInt8) : Prop := 4 ≤ bytes.length ∧ (sumOf bytes).toNat ≤ bytes.length

/-- The offsets of the options from `k` on, up to the first that sets an error. -/
def visitsOf : Given → (k : Nat) → List PcpOption → List Nat
  | _, _, [] => []
  | g, k, o :: rest =>
      k :: if g.Errs o.code o.sum then []
        else visitsOf (g.next o.code) (k + o.bytes.length) rest

/-- The reader keeps step: each option in order is whole, or is the last one and its sum is 0,
    and the first that sets an error makes it halt, or is the last one and whole. -/
def InStep : Given → List PcpOption → Prop
  | _, [] => True
  | g, o :: rest =>
      if g.Errs o.code o.sum then Halts o.code o.sum ∨ (rest = [] ∧ o.Whole)
      else (o.Whole ∧ InStep (g.next o.code) rest) ∨ (rest = [] ∧ o.sum = 0)

/-- The sums divide the bytes into options in order. A sum of 0 takes all that remains. -/
inductive Tiles : Given → List UInt8 → Prop where
  | nil {g : Given} : Tiles g []
  | last {g : Given} {bytes : List UInt8} (fits : Fits bytes)
      (clean : ¬ g.Errs (codeOf bytes) (sumOf bytes)) (zero : sumOf bytes = 0) :
      Tiles g bytes
  | piece {g : Given} {bytes : List UInt8} (fits : Fits bytes)
      (clean : ¬ g.Errs (codeOf bytes) (sumOf bytes)) (step : sumOf bytes ≠ 0)
      (rest : Tiles (g.next (codeOf bytes)) (bytes.drop (sumOf bytes).toNat)) : Tiles g bytes

end errors

section reading
variable {front bytes : List UInt8} {k : Nat} {info next last last' : PcpInfo}
  {visits visits' : List Nat} {optionLength : UInt16}

theorem byteAt_behind (front bytes : List UInt8) (i : Nat) :
    byteAt (front ++ bytes) (front.length + i) = byteAt bytes i := by
  rw [byteAt_append_right (Nat.le_add_right _ _), Nat.add_sub_cancel_left]

theorem readAddr_behind (front bytes : List UInt8) (i : Nat) :
    readAddr (front ++ bytes) (front.length + i) = readAddr bytes i := by
  simp only [readAddr, slice, Nat.add_assoc, byteAt_behind]

theorem readNU16_behind (front bytes : List UInt8) (i : Nat) :
    readNU16 (front ++ bytes) (front.length + i) = readNU16 bytes i :=
  readNU16_congr (byteAt_behind front bytes i) (byteAt_behind front bytes (i + 1))

theorem reading_there {Value Result : Type} {i length : Nat} {value : Value}
    {further : Value → Option Result} (there : i + length ≤ bytes.length) :
    reading bytes i length value further = further value := if_pos there

/-- Every read is inside the bytes that remain. -/
theorem parseOption_eq (front bytes : List UInt8) (info : PcpInfo) :
    parseOption bytes info =
      some (parsePCPOption (front ++ bytes) front.length bytes.length info) := by
  have first : byteAt (front ++ bytes) front.length = byteAt bytes 0 := byteAt_behind front bytes 0
  have header : PCP_OPTION_HDR_SIZE = 4 := rfl
  unfold parseOption parsePCPOption
  dsimp only
  rw [first, readNU16_behind, readAddr_behind]
  generalize total : readNU16 bytes 2 + 4 = optionLength
  by_cases short : bytes.length < PCP_OPTION_HDR_SIZE
  · rw [if_pos short, if_pos (.inl short)]
  · rw [if_neg short, reading_there (by omega), total]
    by_cases exceeds : bytes.length < optionLength.toNat
    · rw [if_pos exceeds, if_pos (.inr exceeds)]
    · rw [if_neg exceeds, reading_there (by omega), if_neg (not_or.mpr ⟨short, exceeds⟩)]
      by_cases third : byteAt bytes 0 = PCP_OPTION_3RD_PARTY
      · rw [if_pos third, if_pos third]
        by_cases refused : optionLength ≠ PCP_3RD_PARTY_OPTION_SIZE ∨ info.thirdpIp.isSome = true
        · rw [if_pos refused, if_pos refused]
        · have size : optionLength.toNat = 20 := by
            rw [not_or, not_not] at refused
            exact congrArg UInt16.toNat refused.1
          rw [if_neg refused, if_neg refused, reading_there (by omega)]
      · rw [if_neg third, if_neg third]
        simp only [apply_ite some]

theorem parseOption_unfit (unfit : ¬ Fits bytes) :
    parseOption bytes info = some (0, info.fail PCP_ERR_MALFORMED_OPTION) := by
  rw [parseOption_eq [] bytes info]
  unfold parsePCPOption
  dsimp only
  have header : PCP_OPTION_HDR_SIZE = 4 := rfl
  rw [if_pos]
  unfold Fits sumOf at unfit
  simp only [List.nil_append, List.length_nil, Nat.zero_add]
  omega

theorem parsePCPOption_fit (fits : Fits bytes) :
    parsePCPOption bytes 0 bytes.length info =
      let code := codeOf bytes
      let optionLength := sumOf bytes
      if code = PCP_OPTION_3RD_PARTY then
        if optionLength ≠ PCP_3RD_PARTY_OPTION_SIZE ∨ info.thirdpIp.isSome then
          (0, info.fail PCP_ERR_MALFORMED_OPTION)
        else
          (optionLength,
            { info with thirdpIp := some (readAddr bytes 4), mappedIp := readAddr bytes 4 })
      else if code = PCP_OPTION_PREF_FAIL then
        if optionLength ≠ PCP_PREFER_FAIL_OPTION_SIZE then (0, info.fail PCP_ERR_MALFORMED_OPTION)
        else
          let info :=
            if info.opcode ≠ PCP_OPCODE_MAP then info.fail PCP_ERR_MALFORMED_REQUEST else info
          if info.pfailurePresent then (optionLength, info.fail PCP_ERR_MALFORMED_OPTION)
          else (optionLength, { info with pfailurePresent := true })
      else if code = PCP_OPTION_FILTER then
        if optionLength ≠ PCP_FILTER_OPTION_SIZE then (0, info.fail PCP_ERR_MALFORMED_OPTION)
        else if info.opcode ≠ PCP_OPCODE_MAP then (0, info.fail PCP_ERR_MALFORMED_REQUEST)
        else (optionLength, info)
      else if code < 128 then (optionLength, info.fail PCP_ERR_UNSUPP_OPTION)
      else (optionLength, info) := by
  have header : PCP_OPTION_HDR_SIZE = 4 := rfl
  obtain ⟨long, enough⟩ := fits
  have room : ¬ (bytes.length < PCP_OPTION_HDR_SIZE ∨
      bytes.length < (readNU16 bytes (0 + 2) + 4).toNat) := by
    rw [sumOf] at enough
    simp only [Nat.zero_add]
    omega
  unfold parsePCPOption
  exact if_neg room

theorem parseOption_error (fits : Fits bytes)
    (errs : (given info).Errs (codeOf bytes) (sumOf bytes)) :
    ∃ next, parseOption bytes info =
        some (if Halts (codeOf bytes) (sumOf bytes) then 0 else sumOf bytes, next) ∧
      next.resultCode ≠ PCP_SUCCESS := by
  have malformed : PCP_ERR_MALFORMED_OPTION ≠ PCP_SUCCESS := by decide
  have request : PCP_ERR_MALFORMED_REQUEST ≠ PCP_SUCCESS := by decide
  have unsupported : PCP_ERR_UNSUPP_OPTION ≠ PCP_SUCCESS := by decide
  have read := parseOption_eq [] bytes info
  rw [List.nil_append, List.length_nil, parsePCPOption_fit fits] at read
  rw [read]
  generalize codeOf bytes = code at *
  generalize sumOf bytes = sum at *
  clear read fits
  dsimp only
  by_cases third : code = PCP_OPTION_3RD_PARTY
  · simp only [Given.Errs, given, if_pos third] at errs
    have halting : Halts code sum := .inl third
    rw [if_pos third, if_pos errs, if_pos halting]
    exact ⟨_, rfl, malformed⟩
  · rw [if_neg third]
    by_cases prefer : code = PCP_OPTION_PREF_FAIL
    · simp only [Given.Errs, given, if_neg third, if_pos prefer] at errs
      rw [if_pos prefer]
      by_cases size : sum = PCP_PREFER_FAIL_OPTION_SIZE
      · have onward : ¬ Halts code sum := by
          rw [prefer, size]
          decide
        rw [if_neg onward, if_neg (not_not.mpr size)]
        by_cases twice : info.pfailurePresent = true
        · by_cases map : info.opcode ≠ PCP_OPCODE_MAP
          · have still : (info.fail PCP_ERR_MALFORMED_REQUEST).pfailurePresent = true := twice
            rw [if_pos map, if_pos still]
            exact ⟨_, rfl, malformed⟩
          · rw [if_neg map, if_pos twice]
            exact ⟨_, rfl, malformed⟩
        · have map : info.opcode ≠ PCP_OPCODE_MAP := by tauto
          have once : ¬ (info.fail PCP_ERR_MALFORMED_REQUEST).pfailurePresent = true := twice
          rw [if_pos map, if_neg once]
          exact ⟨_, rfl, request⟩
      · have halting : Halts code sum := .inr (.inr (.inl ⟨prefer, size⟩))
        rw [if_pos size, if_pos halting]
        exact ⟨_, rfl, malformed⟩
    · rw [if_neg prefer]
      by_cases filter : code = PCP_OPTION_FILTER
      · simp only [Given.Errs, given, if_neg third, if_neg prefer, if_pos filter] at errs
        have halting : Halts code sum := .inr (.inl filter)
        rw [if_pos filter, if_pos halting]
        by_cases size : sum = PCP_FILTER_OPTION_SIZE
        · have map : info.opcode ≠ PCP_OPCODE_MAP := by tauto
          rw [if_neg (not_not.mpr size), if_pos map]
          exact ⟨_, rfl, request⟩
        · rw [if_pos size]
          exact ⟨_, rfl, malformed⟩
      · simp only [Given.Errs, if_neg third, if_neg prefer, if_neg filter] at errs
        have returned : (if Halts code sum then 0 else sum) = sum := by
          split
          · rename_i halting
            have zero : sum = 0 := by simpa [Halts, third, prefer, filter] using halting
            exact zero.symm
          · rfl
        rw [if_neg filter, if_pos errs, returned]
        exact ⟨_, rfl, unsupported⟩

theorem parseOption_clean (fits : Fits bytes)
    (clean : ¬ (given info).Errs (codeOf bytes) (sumOf bytes)) :
    ∃ next, parseOption bytes info = some (sumOf bytes, next) ∧
      next.resultCode = info.resultCode ∧ given next = (given info).next (codeOf bytes) := by
  have read := parseOption_eq [] bytes info
  rw [List.nil_append, List.length_nil, parsePCPOption_fit fits] at read
  rw [read]
  generalize codeOf bytes = code at *
  generalize sumOf bytes = sum at *
  clear read fits
  dsimp only
  by_cases third : code = PCP_OPTION_3RD_PARTY
  · simp only [Given.Errs, given, if_pos third] at clean
    rw [if_pos third, if_neg clean]
    exact ⟨_, rfl, rfl, by simp [given, Given.next, third]⟩
  · rw [if_neg third]
    by_cases prefer : code = PCP_OPTION_PREF_FAIL
    · simp only [Given.Errs, given, if_neg third, if_pos prefer, not_or] at clean
      obtain ⟨size, map, once⟩ := clean
      rw [if_pos prefer, if_neg size, if_neg map, if_neg once]
      refine ⟨_, rfl, rfl, ?_⟩
      rw [Given.next, if_neg third, if_pos prefer]
      rfl
    · rw [if_neg prefer]
      by_cases filter : code = PCP_OPTION_FILTER
      · simp only [Given.Errs, given, if_neg third, if_neg prefer, if_pos filter,
          not_or] at clean
        rw [if_pos filter, if_neg clean.1, if_neg clean.2]
        exact ⟨_, rfl, rfl, by simp [Given.next, third, prefer]⟩
      · simp only [Given.Errs, if_neg third, if_neg prefer, if_neg filter] at clean
        rw [if_neg filter, if_neg clean]
        exact ⟨_, rfl, rfl, by simp [Given.next, third, prefer]⟩

/-- What is read of an option, in the three cases. -/
theorem parseOption_cases (read : parseOption bytes info = some (optionLength, next)) :
    (optionLength = 0 ∨ Fits bytes ∧ optionLength = sumOf bytes) ∧
      (Fits bytes ∧ ¬ (given info).Errs (codeOf bytes) (sumOf bytes) ∧
          optionLength = sumOf bytes ∧ next.resultCode = info.resultCode ∧
          given next = (given info).next (codeOf bytes) ∨
        ¬ (Fits bytes ∧ ¬ (given info).Errs (codeOf bytes) (sumOf bytes)) ∧
          next.resultCode ≠ PCP_SUCCESS) := by
  by_cases fits : Fits bytes
  · by_cases errs : (given info).Errs (codeOf bytes) (sumOf bytes)
    · obtain ⟨after, here, failed⟩ := parseOption_error fits errs
      obtain ⟨rfl, rfl⟩ := Prod.mk.inj (Option.some.inj (here.symm.trans read))
      refine ⟨?_, .inr ⟨fun both => both.2 errs, failed⟩⟩
      split
      · exact .inl rfl
      · exact .inr ⟨fits, rfl⟩
    · obtain ⟨after, here, kept, follows⟩ := parseOption_clean fits errs
      obtain ⟨rfl, rfl⟩ := Prod.mk.inj (Option.some.inj (here.symm.trans read))
      exact ⟨.inr ⟨fits, rfl⟩, .inl ⟨fits, errs, rfl, kept, follows⟩⟩
  · rw [parseOption_unfit fits] at read
    obtain ⟨rfl, rfl⟩ := Prod.mk.inj (Option.some.inj read)
    exact ⟨.inl rfl, .inr ⟨fun both => fits both.1, show PCP_ERR_MALFORMED_OPTION ≠ _ by decide⟩⟩

theorem parses_unique (left : Parses k bytes info visits last)
    (right : Parses k bytes info visits' last') : visits = visits' ∧ last = last' := by
  induction left generalizing visits' last' with
  | ended =>
    cases right with
    | ended => exact ⟨rfl, rfl⟩
    | stopped left => exact absurd rfl left
    | goesOn left => exact absurd rfl left
  | stopped left read =>
    cases right with
    | ended => exact absurd rfl left
    | stopped _ read' =>
      obtain ⟨_, same⟩ := Prod.mk.inj (Option.some.inj (read.symm.trans read'))
      exact ⟨rfl, same⟩
    | goesOn _ read' step =>
      obtain ⟨zero, _⟩ := Prod.mk.inj (Option.some.inj (read.symm.trans read'))
      exact absurd zero.symm step
  | goesOn left read step rest ih =>
    cases right with
    | ended => exact absurd rfl left
    | stopped _ read' =>
      obtain ⟨zero, _⟩ := Prod.mk.inj (Option.some.inj (read.symm.trans read'))
      exact absurd zero step
    | goesOn _ read' _ rest' =>
      obtain ⟨rfl, rfl⟩ := Prod.mk.inj (Option.some.inj (read.symm.trans read'))
      obtain ⟨rfl, rfl⟩ := ih rest'
      exact ⟨rfl, rfl⟩

/-- The loop ends, with any bound on its rounds that is not less than the bytes. -/
theorem parses_loop {fuel : Nat} (enough : bytes.length ≤ fuel) (k : Nat) (front : List UInt8)
    (info : PcpInfo) :
    ∃ visits, Parses k bytes info visits
      (parsePCPOptions (front ++ bytes) fuel front.length bytes.length info) := by
  induction fuel generalizing k front bytes info with
  | zero =>
    obtain rfl : bytes = [] := List.eq_nil_of_length_eq_zero (by omega)
    exact ⟨[], .ended⟩
  | succ fuel ih =>
    unfold parsePCPOptions
    by_cases empty : bytes.length = 0
    · obtain rfl := List.eq_nil_of_length_eq_zero empty
      exact ⟨[], .ended⟩
    · have left : bytes ≠ [] := fun nil => empty (congrArg List.length nil)
      rw [if_neg empty]
      have read := parseOption_eq front bytes info
      rcases taken : parsePCPOption (front ++ bytes) front.length bytes.length info with
        ⟨optionLength, next⟩
      rw [taken] at read
      dsimp only
      by_cases zero : optionLength = 0
      · rw [if_pos zero]
        rw [zero] at read
        exact ⟨[k], .stopped left read⟩
      · rw [if_neg zero]
        have positive : 0 < optionLength.toNat := by
          by_contra none
          exact zero (UInt16.toNat_inj.mp (Nat.eq_zero_of_not_pos none))
        have bound : optionLength.toNat ≤ bytes.length := by
          rcases (parseOption_cases read).1 with nothing | ⟨fits, same⟩
          · exact absurd nothing zero
          · rw [same]
            exact fits.2
        have later := @ih (bytes.drop optionLength.toNat) (by rw [List.length_drop]; omega)
          (k + optionLength.toNat) (front ++ bytes.take optionLength.toNat) next
        rw [List.append_assoc, List.take_append_drop, List.length_append, List.length_take,
          List.length_drop, Nat.min_eq_left bound] at later
        obtain ⟨visits, rest⟩ := later
        exact ⟨k :: visits, .goesOn left read zero rest⟩

theorem parses_failed (run : Parses k bytes info visits last)
    (failed : info.resultCode ≠ PCP_SUCCESS) : last.resultCode ≠ PCP_SUCCESS := by
  induction run with
  | ended => exact failed
  | stopped left read =>
    rcases (parseOption_cases read).2 with ⟨_, _, _, kept, _⟩ | ⟨_, error⟩
    · rw [kept]
      exact failed
    · exact error
  | goesOn left read step rest ih =>
    apply ih
    rcases (parseOption_cases read).2 with ⟨_, _, _, kept, _⟩ | ⟨_, error⟩
    · rw [kept]
      exact failed
    · exact error

/-- The area is read without an error exactly if its sums divide it into options in order. -/
theorem parses_clean_iff (run : Parses k bytes info visits last)
    (clean : info.resultCode = PCP_SUCCESS) :
    last.resultCode = PCP_SUCCESS ↔ Tiles (given info) bytes := by
  induction run with
  | ended =>
    constructor
    · intro _
      exact .nil
    · intro _
      exact clean
  | stopped left read =>
    rcases (parseOption_cases read).2 with ⟨fits, fine, zero, kept, _⟩ | ⟨wrong, failed⟩
    · constructor
      · intro _
        exact .last fits fine zero.symm
      · intro _
        exact kept.trans clean
    · constructor
      · intro success
        exact absurd success failed
      · intro tiles
        cases tiles with
        | nil => exact absurd rfl left
        | last fits fine => exact absurd ⟨fits, fine⟩ wrong
        | piece fits fine => exact absurd ⟨fits, fine⟩ wrong
  | goesOn left read step rest ih =>
    rcases (parseOption_cases read).2 with ⟨fits, fine, rfl, kept, follows⟩ | ⟨wrong, failed⟩
    · rw [ih (kept.trans clean), follows]
      constructor
      · intro tiles
        exact .piece fits fine step tiles
      · intro tiles
        cases tiles with
        | nil => exact absurd rfl left
        | last _ _ zero => exact absurd zero step
        | piece _ _ _ rest => exact rest
    · constructor
      · intro success
        exact absurd success (parses_failed rest failed)
      · intro tiles
        cases tiles with
        | nil => exact absurd rfl left
        | last fits fine => exact absurd ⟨fits, fine⟩ wrong
        | piece fits fine => exact absurd ⟨fits, fine⟩ wrong

end reading

section steps
variable {o : PcpOption} {rest : List PcpOption} {k : Nat} {bytes tail : List UInt8}
  {info last : PcpInfo} {visits : List Nat}

theorem length_bytes (o : PcpOption) :
    o.bytes.length = 4 + o.data.length + o.padding.length := by
  simp only [PcpOption.bytes, writeNU16, List.length_append, List.length_cons, List.length_nil]
  omega

theorem codeOf_bytes (o : PcpOption) (tail : List UInt8) : codeOf (o.bytes ++ tail) = o.code := rfl

theorem sumOf_bytes (o : PcpOption) (tail : List UInt8) : sumOf (o.bytes ++ tail) = o.sum := by
  have field : readNU16 (o.bytes ++ tail) 2 =
      readNU16 (writeNU16 (UInt16.ofNat o.data.length) ++ ((o.data ++ o.padding) ++ tail)) 0 := by
    rw [← List.append_assoc]
    rfl
  rw [sumOf, field, readNU16_writeNU16]
  rfl

theorem toNat_sum (o : PcpOption) : o.sum.toNat = (o.data.length + 4) % 65536 := by
  have short := o.short
  have four : (4 : UInt16).toNat = 4 := rfl
  rw [PcpOption.sum, UInt16.toNat_add, UInt16.toNat_ofNat', four]
  omega

/-- The sum never says more than the size of the option. -/
theorem sum_le (o : PcpOption) : o.sum.toNat ≤ o.bytes.length := by
  have value := toNat_sum o
  have size := length_bytes o
  omega

theorem sum_whole : o.sum.toNat = o.bytes.length ↔ o.Whole := by
  have value := toNat_sum o
  have size := length_bytes o
  have short := o.short
  unfold PcpOption.Whole
  rw [← List.length_eq_zero_iff]
  omega

theorem bytes_fit (o : PcpOption) (tail : List UInt8) : Fits (o.bytes ++ tail) := by
  have size := length_bytes o
  have bound := sum_le o
  rw [Fits, sumOf_bytes, List.length_append]
  omega

theorem drop_sum_nil : (o.bytes ++ encode rest).drop o.sum.toNat = [] ↔ rest = [] ∧ o.Whole := by
  have bound := sum_le o
  rw [List.drop_eq_nil_iff, List.length_append, ← sum_whole]
  cases rest with
  | nil =>
    simp only [encode, List.flatMap_nil, List.length_nil, true_and]
    omega
  | cons o' rest =>
    have size := length_bytes o'
    simp only [encode, List.flatMap_cons, List.length_append, reduceCtorEq, false_and, iff_false]
    omega

theorem visits_nil_iff (run : Parses k bytes info visits last) : visits = [] ↔ bytes = [] := by
  cases run with
  | ended => simp
  | stopped left => simp [left]
  | goesOn left => simp [left]

theorem visits_head (run : Parses k bytes info visits last) (left : bytes ≠ []) :
    visits.head? = some k := by
  cases run with
  | ended => exact absurd rfl left
  | stopped => rfl
  | goesOn => rfl

/-- The header, the data and the padding of an option, as its length says. -/
def paddedSize (bytes : List UInt8) : Nat := 4 + ((readNU16 bytes 2).toNat + 3) / 4 * 4

theorem writeNU16_readNU16 (high low : UInt8) (tail : List UInt8) :
    writeNU16 (readNU16 (high :: low :: tail) 0) = [high, low] := by
  have small := high.toNat_lt
  have small' := low.toNat_lt
  have value : (readNU16 (high :: low :: tail) 0).toNat = high.toNat * 256 + low.toNat := by
    simp only [readNU16, byteAt, List.getD_cons_zero, List.getD_cons_succ, UInt16.toNat_ofNat']
    omega
  have first : UInt8.ofNat ((high.toNat * 256 + low.toNat) / 256) = high := by
    apply UInt8.toNat_inj.mp
    rw [UInt8.toNat_ofNat']
    omega
  have second : UInt8.ofNat (high.toNat * 256 + low.toNat) = low := by
    apply UInt8.toNat_inj.mp
    rw [UInt8.toNat_ofNat']
    omega
  rw [writeNU16, value, first, second]

theorem option_of (code reserved : UInt8) (length : UInt16) (tail : List UInt8)
    (enough : (length.toNat + 3) / 4 * 4 ≤ tail.length) :
    ∃ o : PcpOption, o.bytes ++ tail.drop ((length.toNat + 3) / 4 * 4) =
      code :: reserved :: (writeNU16 length ++ tail) := by
  have short := length.toNat_lt
  have data : (tail.take length.toNat).length = length.toNat := by
    rw [List.length_take]
    omega
  have padding : ((tail.drop length.toNat).take ((4 - length.toNat % 4) % 4)).length =
      (4 - length.toNat % 4) % 4 := by
    rw [List.length_take, List.length_drop]
    omega
  have size : (length.toNat + 3) / 4 * 4 = length.toNat + (4 - length.toNat % 4) % 4 := by omega
  have cut : tail.take length.toNat ++
      ((tail.drop length.toNat).take ((4 - length.toNat % 4) % 4) ++
        tail.drop (length.toNat + (4 - length.toNat % 4) % 4)) = tail := by
    rw [← List.drop_drop, List.take_append_drop, List.take_append_drop]
  refine ⟨{ code, reserved
            data := tail.take length.toNat
            padding := (tail.drop length.toNat).take ((4 - length.toNat % 4) % 4)
            short := by rw [data]; exact short
            padded := by rw [padding, data] }, ?_⟩
  simp only [PcpOption.bytes, data, UInt16.ofNat_toNat, size, List.cons_append, List.append_assoc,
    cut]

/-- The bytes are an encoding unless a header is truncated or a length exceeds what remains. -/
theorem encodes_iff (bytes : List UInt8) :
    (∃ options, encode options = bytes) ↔
      bytes = [] ∨ 4 ≤ bytes.length ∧ paddedSize bytes ≤ bytes.length ∧
        ∃ options, encode options = bytes.drop (paddedSize bytes) := by
  constructor
  · intro encoded
    obtain ⟨options, rfl⟩ := encoded
    cases options with
    | nil => exact .inl rfl
    | cons o rest =>
      right
      have head : encode (o :: rest) = o.bytes ++ encode rest := rfl
      have size : paddedSize (o.bytes ++ encode rest) = o.bytes.length := by
        have long := length_bytes o
        have padded := o.padded
        have short := o.short
        have sum := sumOf_bytes o (encode rest)
        rw [sumOf, PcpOption.sum, UInt16.add_left_inj] at sum
        rw [paddedSize, sum, UInt16.toNat_ofNat']
        omega
      have fits := (bytes_fit o (encode rest)).1
      rw [head, size, List.drop_left, List.length_append]
      rw [List.length_append] at fits
      exact ⟨fits, by omega, rest, rfl⟩
  · intro fits
    rcases fits with rfl | ⟨long, enough, rest, later⟩
    · exact ⟨[], rfl⟩
    · rcases bytes with _ | ⟨code, _ | ⟨reserved, _ | ⟨high, _ | ⟨low, tail⟩⟩⟩⟩
      · simp at long
      · simp at long
      · simp at long
      · simp at long
      · have field : readNU16 (code :: reserved :: high :: low :: tail) 2 =
            readNU16 (high :: low :: tail) 0 := rfl
        rw [paddedSize, field] at enough later
        obtain ⟨o, whole⟩ := option_of code reserved (readNU16 (high :: low :: tail) 0) tail (by
          simp only [List.length_cons] at enough
          omega)
        refine ⟨o :: rest, ?_⟩
        have head : encode (o :: rest) = o.bytes ++ encode rest := rfl
        rw [head, later, ← List.drop_drop]
        rw [writeNU16_readNU16] at whole
        exact whole

theorem parses_stopped {next : PcpInfo} (run : Parses k bytes info visits last) (left : bytes ≠ [])
    (read : parseOption bytes info = some (0, next)) : visits = [k] :=
  (parses_unique run (.stopped left read)).1

theorem parses_onward {next : PcpInfo} {optionLength : UInt16}
    (run : Parses k bytes info visits last) (left : bytes ≠ [])
    (read : parseOption bytes info = some (optionLength, next)) (step : optionLength ≠ 0) :
    ∃ later, visits = k :: later ∧
      Parses (k + optionLength.toNat) (bytes.drop optionLength.toNat) next later last := by
  cases run with
  | ended => exact absurd rfl left
  | stopped _ read' =>
    obtain ⟨zero, _⟩ := Prod.mk.inj (Option.some.inj (read.symm.trans read'))
    exact absurd zero step
  | goesOn _ read' _ rest =>
    obtain ⟨rfl, rfl⟩ := Prod.mk.inj (Option.some.inj (read.symm.trans read'))
    exact ⟨_, rfl, rest⟩

/-- The first option sets an error. -/
theorem visits_error (run : Parses k (o.bytes ++ encode rest) info visits last)
    (errs : (given info).Errs o.code o.sum) :
    visits = [k] ↔ Halts o.code o.sum ∨ (rest = [] ∧ o.Whole) := by
  have fits := bytes_fit o (encode rest)
  have left : o.bytes ++ encode rest ≠ [] := List.ne_nil_of_length_pos (by have := fits.1; omega)
  have errs' : (given info).Errs (codeOf (o.bytes ++ encode rest))
      (sumOf (o.bytes ++ encode rest)) := by
    rw [codeOf_bytes, sumOf_bytes]
    exact errs
  obtain ⟨next, read, _⟩ := parseOption_error fits errs'
  rw [codeOf_bytes, sumOf_bytes] at read
  by_cases halting : Halts o.code o.sum
  · rw [if_pos halting] at read
    simp [parses_stopped run left read, halting]
  · have step : o.sum ≠ 0 := fun zero => halting (.inr (.inr (.inr zero)))
    rw [if_neg halting] at read
    obtain ⟨later, rfl, onward⟩ := parses_onward run left read step
    simp only [List.cons.injEq, true_and, halting, false_or]
    rw [visits_nil_iff onward, drop_sum_nil]

theorem visitsOf_nil_iff (g : Given) (k : Nat) (options : List PcpOption) :
    visitsOf g k options = [] ↔ options = [] := by
  cases options with
  | nil => simp [visitsOf]
  | cons o rest => simp [visitsOf]

theorem visitsOf_head (g : Given) (k : Nat) (options : List PcpOption) :
    ∀ first ∈ (visitsOf g k options).head?, first = k := by
  cases options with
  | nil => simp [visitsOf]
  | cons o rest => simp [visitsOf]

/-- The first option is in order. -/
theorem visits_clean (run : Parses k (o.bytes ++ encode rest) info visits last)
    (clean : ¬ (given info).Errs o.code o.sum)
    (later_iff : ∀ next later, given next = (given info).next o.code →
      Parses (k + o.bytes.length) (encode rest) next later last →
      (later = visitsOf ((given info).next o.code) (k + o.bytes.length) rest ↔
        InStep ((given info).next o.code) rest)) :
    visits = k :: visitsOf ((given info).next o.code) (k + o.bytes.length) rest ↔
      (o.Whole ∧ InStep ((given info).next o.code) rest) ∨ (rest = [] ∧ o.sum = 0) := by
  have fits := bytes_fit o (encode rest)
  have left : o.bytes ++ encode rest ≠ [] := List.ne_nil_of_length_pos (by have := fits.1; omega)
  have clean' : ¬ (given info).Errs (codeOf (o.bytes ++ encode rest))
      (sumOf (o.bytes ++ encode rest)) := by
    rw [codeOf_bytes, sumOf_bytes]
    exact clean
  obtain ⟨next, read, _, follows⟩ := parseOption_clean fits clean'
  rw [codeOf_bytes] at follows
  rw [sumOf_bytes] at read
  by_cases zero : o.sum = 0
  · have short : ¬ o.Whole := by
      intro whole
      have same := sum_whole.mpr whole
      have size := length_bytes o
      rw [zero] at same
      have none : (0 : UInt16).toNat = 0 := rfl
      omega
    rw [zero] at read
    rw [parses_stopped run left read, List.cons.injEq, eq_comm (b := visitsOf _ _ _),
      visitsOf_nil_iff]
    simp [short, zero]
  · obtain ⟨later, rfl, onward⟩ := parses_onward run left read zero
    simp only [List.cons.injEq, true_and, zero, and_false, or_false]
    by_cases whole : o.Whole
    · have same := sum_whole.mpr whole
      rw [same, List.drop_left] at onward
      simp only [whole, true_and]
      exact later_iff next later follows onward
    · have further : (o.bytes ++ encode rest).drop o.sum.toNat ≠ [] :=
        fun empty => whole (drop_sum_nil.mp empty).2
      have first := visits_head onward further
      simp only [whole, false_and, iff_false]
      intro same
      rw [same] at first
      have place := visitsOf_head _ _ rest _ first
      exact whole (sum_whole.mp (by omega))

/-- The options of an encoding are visited in order, up to the first that sets an error,
    exactly if the reader keeps step. -/
theorem visits_iff (options : List PcpOption) (run : Parses k (encode options) info visits last) :
    visits = visitsOf (given info) k options ↔ InStep (given info) options := by
  induction options generalizing k info visits with
  | nil =>
    have none : visits = [] := (visits_nil_iff run).mpr rfl
    simp [none, visitsOf, InStep]
  | cons o rest ih =>
    have head : encode (o :: rest) = o.bytes ++ encode rest := rfl
    rw [head] at run
    unfold visitsOf InStep
    by_cases errs : (given info).Errs o.code o.sum
    · rw [if_pos errs, if_pos errs]
      exact visits_error run errs
    · rw [if_neg errs, if_neg errs]
      apply visits_clean run errs
      intro next later follows onward
      rw [← follows]
      exact ih onward

end steps

section area
variable {area : List UInt8} {info : PcpInfo}

/-- What the reader of the options has to do with an area: come to an end in one way only and
    without a read outside, visit the options of an encoding in order, up to the first that
    sets an error, and set an error where the area is not an encoding. -/
structure ReadsOptions (area : List UInt8) (info : PcpInfo) : Prop where
  ends : ∃ visits last,
    (∀ visits' last', Parses 0 area info visits' last' ↔ visits' = visits ∧ last' = last) ∧
      ∀ front fuel, area.length ≤ fuel →
        parsePCPOptions (front ++ area) fuel front.length area.length info = last
  encoded : ∀ options visits last, encode options = area → Parses 0 area info visits last →
    visits = visitsOf (given info) 0 options
  other : (∀ options, encode options ≠ area) → ∀ visits last, Parses 0 area info visits last →
    last.resultCode ≠ PCP_SUCCESS

theorem options_end (area : List UInt8) (info : PcpInfo) :
    ∃ visits last,
      (∀ visits' last', Parses 0 area info visits' last' ↔ visits' = visits ∧ last' = last) ∧
        ∀ front fuel, area.length ≤ fuel →
          parsePCPOptions (front ++ area) fuel front.length area.length info = last := by
  obtain ⟨visits, run⟩ := parses_loop (Nat.le_refl area.length) 0 [] info
  generalize parsePCPOptions ([] ++ area) area.length [].length area.length info = last at run
  refine ⟨visits, last, ?_, ?_⟩
  · intro visits' last'
    constructor
    · intro other
      exact parses_unique other run
    · intro same
      rw [same.1, same.2]
      exact run
  · intro front fuel enough
    obtain ⟨_, again⟩ := parses_loop enough 0 front info
    exact (parses_unique again run).2

/-- The options are read as they have to exactly if the reader keeps step with an encoding,
    and no other area is divided by the sums into options in order. -/
theorem options_read_iff (clean : info.resultCode = PCP_SUCCESS) :
    ReadsOptions area info ↔
      (∀ options, encode options = area → InStep (given info) options) ∧
        ((∀ options, encode options ≠ area) → ¬ Tiles (given info) area) := by
  obtain ⟨visits, last, only, loop⟩ := options_end area info
  have run : Parses 0 area info visits last := (only visits last).mpr ⟨rfl, rfl⟩
  constructor
  · intro reads
    constructor
    · intro options same
      have order := reads.encoded options visits last same run
      subst same
      exact (visits_iff options run).mp order
    · intro foreign tiles
      exact reads.other foreign visits last run ((parses_clean_iff run clean).mpr tiles)
  · intro both
    obtain ⟨steps, errors⟩ := both
    constructor
    · exact ⟨visits, last, only, loop⟩
    · intro options visits' last' same run'
      subst same
      exact (visits_iff options run').mpr (steps options rfl)
    · intro foreign visits' last' run' success
      exact errors foreign ((parses_clean_iff run' clean).mp success)

end area

/-- A request for a mapping, before its options are read. -/
def mapInfo : PcpInfo := { PcpInfo.received 0 with opcode := PCP_OPCODE_MAP }

def preferFailure : PcpOption :=
  { code := PCP_OPTION_PREF_FAIL, reserved := 0, data := [], padding := []
    short := by decide, padded := rfl }

theorem options_read_preferred :
    ReadsOptions (encode [preferFailure]) mapInfo ↔
      (∀ options, encode options = encode [preferFailure] → InStep (given mapInfo) options) ∧
        ((∀ options, encode options ≠ encode [preferFailure]) →
          ¬ Tiles (given mapInfo) (encode [preferFailure])) :=
  options_read_iff rfl

/-- An optional option with one byte of data, padded with three more. -/
def oneByte : PcpOption :=
  { code := 128, reserved := 0, data := [0], padding := [0, 0, 0]
    short := by decide, padded := rfl }

/-- A length that exceeds the area sets no error where its sum is 0. -/
example : (parsePCPOptions [128, 0, 255, 252] 4 0 4 mapInfo).resultCode = PCP_SUCCESS := by decide

/-- The padding is visited as a second option. -/
theorem padding_visited :
    encode [oneByte] = [128, 0, 0, 1, 0, 0, 0, 0] ∧
      visitsOf (given mapInfo) 0 [oneByte] = [0] ∧
      (∃ last, Parses 0 (encode [oneByte]) mapInfo [0, 5] last) ∧
      ¬ ReadsOptions (encode [oneByte]) mapInfo := by
  have run : Parses 0 (encode [oneByte]) mapInfo [0, 5]
      (mapInfo.fail PCP_ERR_MALFORMED_OPTION) := by
    have first : parseOption (encode [oneByte]) mapInfo = some (5, mapInfo) := rfl
    exact .goesOn (by decide) first (by decide) (.stopped (by decide) rfl)
  refine ⟨by decide, by decide, ⟨_, run⟩, ?_⟩
  intro reads
  have order := reads.encoded [oneByte] _ _ rfl run
  exact absurd order (by decide)

end PcpOptions
