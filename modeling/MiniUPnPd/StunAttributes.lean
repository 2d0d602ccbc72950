import MiniUPnPd.Lib.Tlv
import MiniUPnPd.UpnpStun

/-!
The mapped address of a STUN response. The reader goes from one attribute to the next by the
length alone, while the sender has padded the values to a multiple of four bytes. It never leaves
the buffer, and it gives the right address exactly if what it reads without the padding has the
same address to offer.
-/
namespace StunAttributes
open NetBytes Tlv UpnpStun

section attributes

/-- The value of an address attribute for IPv4. -/
def IPv4 (a : TypedValue) : Prop := a.value.length = 8 ∧ byteAt a.value 1 = 1

def Mapped (a : TypedValue) : Prop := a.type = 0x0001 ∧ IPv4 a

/-- In the form of RFC 5389 or of the draft of 2005. -/
def XorMapped (a : TypedValue) : Prop := (a.type = 0x0020 ∨ a.type = 0x8020) ∧ IPv4 a

instance (a : TypedValue) : Decidable (IPv4 a) := inferInstanceAs (Decidable (_ ∧ _))

instance (a : TypedValue) : Decidable (Mapped a) := inferInstanceAs (Decidable (_ ∧ _))

instance (a : TypedValue) : Decidable (XorMapped a) := inferInstanceAs (Decidable (_ ∧ _))

def magicCookie : List UInt8 := [0x21, 0x12, 0xA4, 0x42]

def address (value : List UInt8) : SockaddrIn :=
  { sinPort := readNU16 value 2, sinAddr := BitVec.ofNat 32 (readNU32 value 4) }

def xorAddress (value : List UInt8) : SockaddrIn :=
  { sinPort := readNU16 value 2 ^^^ 0x2112
    sinAddr := BitVec.ofNat 32 (readNU32 value 4) ^^^ 0x2112A442 }

/-- A Binding success response. -/
structure BindingResponse where
  transactionId : List UInt8
  attributes : List Padded
  identified : transactionId.length = 12
  fits : (encode attributes).length < 2 ^ 16

def BindingResponse.bytes (r : BindingResponse) : List UInt8 :=
  [0x01, 0x01] ++ writeNU16 (UInt16.ofNat (encode r.attributes).length) ++ magicCookie ++
    r.transactionId ++ encode r.attributes

/-- The address that is to be found, or none. -/
def Offers (as : List TypedValue) : Option SockaddrIn → Prop
  | some addr =>
      (∃ a ∈ as, XorMapped a ∧ xorAddress a.value = addr) ∨
        (∀ a ∈ as, ¬ XorMapped a) ∧ ∃ a ∈ as, Mapped a ∧ address a.value = addr
  | none => ∀ a ∈ as, ¬ XorMapped a ∧ ¬ Mapped a

end attributes

section buffer
variable {front value back : List UInt8} {c₀ c₁ c₂ c₃ : UInt8}

/-- The bytes of the magic cookie. -/
structure Cookie (front : List UInt8) (c₀ c₁ c₂ c₃ : UInt8) : Prop where
  first : front[4]? = some c₀
  second : front[5]? = some c₁
  third : front[6]? = some c₂
  fourth : front[7]? = some c₃

theorem xorByte_behind {i j k : Nat} {x y : UInt8} (at' : i = front.length + k)
    (value' : value[k]? = some x) (cookie : front[j]? = some y) :
    xorByte (front ++ (value ++ back)) i j = some (front ++ (value.set k (x ^^^ y) ++ back)) := by
  obtain ⟨inside, _⟩ := List.getElem?_eq_some_iff.mp value'
  obtain ⟨early, _⟩ := List.getElem?_eq_some_iff.mp cookie
  subst at'
  have read : (front ++ (value ++ back))[front.length + k]? = some x := by
    rw [List.getElem?_append_right (by omega), Nat.add_sub_cancel_left,
      List.getElem?_append_left inside, value']
  have mask : (front ++ (value ++ back))[j]? = some y := by
    rw [List.getElem?_append_left early, cookie]
  simp only [xorByte, read, mask, Option.bind_eq_bind, Option.bind_some, Option.pure_def,
    List.set_append_right _ _ (Nat.le_add_right _ _), Nat.add_sub_cancel_left,
    List.set_append_left _ _ inside]

def xored (value : List UInt8) (c₀ c₁ c₂ c₃ : UInt8) : List UInt8 :=
  List.zipWith (· ^^^ ·) value [0, 0, c₀, c₁, c₀, c₁, c₂, c₃]

theorem restoreXor_behind (cookie : Cookie front c₀ c₁ c₂ c₃) (size : value.length = 8) :
    restoreXor (front ++ (value ++ back)) front.length =
      some (front ++ (xored value c₀ c₁ c₂ c₃ ++ back)) := by
  match value, size with
  | [v₀, v₁, v₂, v₃, v₄, v₅, v₆, v₇], _ =>
    rw [restoreXor, xorByte_behind rfl rfl cookie.first]
    simp only [Option.bind_eq_bind, Option.bind_some]
    rw [xorByte_behind rfl rfl cookie.second, Option.bind_some,
      xorByte_behind rfl rfl cookie.first, Option.bind_some,
      xorByte_behind rfl rfl cookie.second, Option.bind_some,
      xorByte_behind rfl rfl cookie.third, Option.bind_some,
      xorByte_behind rfl rfl cookie.fourth]
    simp [xored]

theorem getElem?_behind {k : Nat} (inside : k < value.length) :
    (front ++ (value ++ back))[front.length + k]? = some (byteAt value k) := by
  rw [List.getElem?_append_right (Nat.le_add_right _ _), Nat.add_sub_cancel_left,
    List.getElem?_append_left inside, byteAt, List.getD_eq_getElem?_getD,
    List.getElem?_eq_getElem inside, Option.getD_some]

theorem readU16_behind {k : Nat} (inside : k + 2 ≤ value.length) :
    readU16 (front ++ (value ++ back)) (front.length + k) = some (readNU16 value k).toNat := by
  have high := (byteAt value k).toNat_lt
  have low := (byteAt value (k + 1)).toNat_lt
  have fits : (readNU16 value k).toNat =
      (byteAt value k).toNat * 256 + (byteAt value (k + 1)).toNat := by
    rw [readNU16, UInt16.toNat_ofNat']
    omega
  rw [readU16, getElem?_behind (by omega), Nat.add_assoc, getElem?_behind (by omega), fits]
  rfl

theorem readSockaddr_behind (size : value.length = 8) :
    readSockaddr (front ++ (value ++ back)) (front.length + 2) = some (address value) := by
  simp only [readSockaddr, Nat.add_assoc, Nat.reduceAdd]
  rw [readU16_behind (by omega), readU16_behind (by omega), readU16_behind (by omega)]
  simp [address, readNU32]

theorem isIPv4_behind (type : UInt16) :
    isIPv4 (front ++ (value ++ back)) front.length value.length =
      some (decide (IPv4 { type, value })) := by
  by_cases size : value.length = 8
  · rw [isIPv4, if_pos size, getElem?_behind (by omega)]
    simp [IPv4, size, Bool.beq_eq_decide_eq]
  · simp [isIPv4, IPv4, size]

theorem logText_inside {buffer : List UInt8} {i precision : Nat}
    (inside : i + precision ≤ buffer.length) : logText buffer i precision = some () := by
  induction precision generalizing i with
  | zero => rfl
  | succ precision ih =>
    rw [logText, List.getElem?_eq_getElem (by omega), Option.bind_eq_bind, Option.bind_some]
    split
    · rfl
    · exact ih (by omega)

/-- What one attribute changes. -/
def see (xorOf : List UInt8 → SockaddrIn) (m : MappedAddr) (a : TypedValue) : MappedAddr :=
  if Mapped a ∨ XorMapped a then
    { haveAddress := true
      haveXorMappedAddress := decide (XorMapped a) || m.haveXorMappedAddress
      mappedAddr :=
        if m.haveXorMappedAddress then m.mappedAddr
        else some (if XorMapped a then xorOf a.value else address a.value) }
  else m

theorem readAttribute_behind (cookie : Cookie front c₀ c₁ c₂ c₃) (a : TypedValue) (m : MappedAddr) :
    ∃ changed : List UInt8, changed.length = a.value.length ∧
      readAttribute (front ++ (a.value ++ back)) front.length a.type.toNat a.value.length m =
        some (front ++ (changed ++ back), see (fun v => address (xored v c₀ c₁ c₂ c₃)) m a) := by
  obtain ⟨type, value⟩ := a
  have number : ∀ t : UInt16, type.toNat = t.toNat ↔ type = t := fun t => UInt16.toNat_inj
  have total : (front ++ (value ++ back)).length = front.length + value.length + back.length := by
    simp only [List.length_append]
    omega
  by_cases offered : type = 0x0001 ∨ type = 0x0020 ∨ type = 0x8020
  · have known : type.toNat = 0x0001 ∨ type.toNat = 0x0020 ∨ type.toNat = 0x8020 := by
      rcases offered with rfl | rfl | rfl <;> decide
    have kind : isXor type.toNat = decide (type = 0x0020 ∨ type = 0x8020) := by
      rcases offered with rfl | rfl | rfl <;> decide
    simp only [readAttribute, if_pos known, isIPv4_behind type, Option.bind_eq_bind,
      Option.bind_some, decide_eq_true_eq]
    by_cases ipv4 : IPv4 { type, value }
    · by_cases xor : type = 0x0020 ∨ type = 0x8020
      · refine ⟨xored value c₀ c₁ c₂ c₃, by simp [xored, ipv4.1], ?_⟩
        have size : (xored value c₀ c₁ c₂ c₃).length = 8 := by simp [xored, ipv4.1]
        have offers : XorMapped { type, value } := ⟨xor, ipv4⟩
        simp only [if_pos ipv4, kind, xor, decide_true, ↓reduceIte,
          restoreXor_behind cookie ipv4.1, Option.bind_some, readSockaddr_behind size,
          Option.pure_def, see, offers, or_true]
      · have plain : type = 0x0001 := by tauto
        have offers : Mapped { type, value } := ⟨plain, ipv4⟩
        have other : ¬ XorMapped { type, value } := fun x => xor x.1
        refine ⟨value, rfl, ?_⟩
        simp only [if_pos ipv4, kind, xor, decide_false, Bool.false_eq_true, ↓reduceIte,
          Option.bind_some, readSockaddr_behind ipv4.1, Option.pure_def, see, offers, other,
          or_false]
    · have other : ¬ (Mapped { type, value } ∨ XorMapped { type, value }) := by
        intro either
        rcases either with mapped | xor
        · exact ipv4 mapped.2
        · exact ipv4 xor.2
      exact ⟨value, rfl, by simp only [if_neg ipv4, see, if_neg other]⟩
  · have unknown : ¬ (type.toNat = 0x0001 ∨ type.toNat = 0x0020 ∨ type.toNat = 0x8020) := by
      have one := number 0x0001
      have two := number 0x0020
      have three := number 0x8020
      simp at one two three
      tauto
    have other : ¬ (Mapped { type, value } ∨ XorMapped { type, value }) := by
      intro either
      rcases either with mapped | xor
      · exact offered (.inl mapped.1)
      · exact offered (.inr xor.1)
    refine ⟨value, rfl, ?_⟩
    have logs : ∀ i n, i + n ≤ value.length →
        logBytes (front ++ (value ++ back)) (front.length + i) n = some () := by
      intro i n inside
      rw [logBytes, if_pos (by omega)]
    have text : ∀ i n, i + n ≤ value.length →
        logText (front ++ (value ++ back)) (front.length + i) n = some () := by
      intro i n inside
      exact logText_inside (by omega)
    simp only [readAttribute, if_neg unknown, see, if_neg other]
    split
    · split
      · simp only [logs 2 2 (by omega), text 4 (value.length - 4) (by omega), Option.bind_eq_bind,
          Option.bind_some, Option.pure_def]
      · rfl
    · split
      · rw [isIPv4_behind type, Option.bind_eq_bind, Option.bind_some]
        split
        · rename_i ipv4
          have size : value.length = 8 := (of_decide_eq_true ipv4).1
          rw [logs 2 6 (by omega)]
          rfl
        · rfl
      · split
        · rw [← Nat.add_zero front.length, text 0 value.length (by omega)]
          rfl
        · rfl

theorem cookie_append (cookie : Cookie front c₀ c₁ c₂ c₃) (rest : List UInt8) :
    Cookie (front ++ rest) c₀ c₁ c₂ c₃ := by
  have kept : ∀ {i : Nat} {c : UInt8}, front[i]? = some c → (front ++ rest)[i]? = some c := by
    intro i c there
    obtain ⟨inside, _⟩ := List.getElem?_eq_some_iff.mp there
    rw [List.getElem?_append_left inside, there]
  exact ⟨kept cookie.first, kept cookie.second, kept cookie.third, kept cookie.fourth⟩

/-- The attributes are those that stand in the bytes without padding. -/
theorem parseAttributes_behind (cookie : Cookie front c₀ c₁ c₂ c₃) (bytes : List UInt8)
    (m : MappedAddr) {fuel : Nat} (enough : bytes.length < fuel) :
    ∃ changed : List UInt8, changed.length = bytes.length ∧
      parseAttributes fuel (front ++ bytes) front.length m =
        some (front ++ changed,
          (unpadded bytes).foldl (see fun v => address (xored v c₀ c₁ c₂ c₃)) m) := by
  induction fuel generalizing front bytes m with
  | zero => omega
  | succ fuel ih =>
    have total : (front ++ bytes).length = front.length + bytes.length := List.length_append
    by_cases short : bytes.length < 4
    · refine ⟨bytes, rfl, ?_⟩
      rw [parseAttributes, if_neg (by omega), unpadded_short short]
      rfl
    · have type := @readU16_behind front bytes [] 0 (by omega)
      have length := @readU16_behind front bytes [] 2 (by omega)
      rw [List.append_nil] at type length
      rw [Nat.add_zero] at type
      by_cases cut : 4 + (readNU16 bytes 2).toNat ≤ bytes.length
      · -- the header, the value and what is behind it
        let value := (bytes.drop 4).take (readNU16 bytes 2).toNat
        let back := bytes.drop (4 + (readNU16 bytes 2).toNat)
        have size : value.length = (readNU16 bytes 2).toNat := by
          simp only [value, List.length_take, List.length_drop]
          omega
        have whole : front ++ bytes = (front ++ bytes.take 4) ++ (value ++ back) := by
          have parts : value ++ back = bytes.drop 4 := by
            simp only [value, back]
            rw [← List.drop_drop, List.take_append_drop]
          rw [parts, List.append_assoc, List.take_append_drop]
        have here : (front ++ bytes.take 4).length = front.length + 4 := by
          rw [List.length_append, List.length_take]
          omega
        obtain ⟨changed, same, read⟩ := @readAttribute_behind (front ++ bytes.take 4) back
          c₀ c₁ c₂ c₃ (cookie_append cookie _) { type := readNU16 bytes 0, value } m
        have further := cookie_append (cookie_append cookie (bytes.take 4)) changed
        obtain ⟨rest, sameRest, others⟩ := ih further back
          (see (fun v => address (xored v c₀ c₁ c₂ c₃)) m { type := readNU16 bytes 0, value })
          (by simp only [back, List.length_drop]; omega)
        refine ⟨bytes.take 4 ++ (changed ++ rest), ?_, ?_⟩
        · simp only [List.length_append, same, size, sameRest, back, List.length_drop,
            List.length_take]
          omega
        · have next : (front ++ bytes.take 4 ++ changed).length =
              front.length + 4 + (readNU16 bytes 2).toNat := by
            rw [List.length_append, here, same, size]
          rw [parseAttributes, if_pos (by omega), type, Option.bind_eq_bind, Option.bind_some,
            length, Option.bind_some, if_neg (by omega), whole, ← here, ← size, read]
          rw [here, size, ← next, ← List.append_assoc]
          simp only [Option.bind_eq_bind, Option.bind_some]
          rw [others, unpadded_fits cut, List.foldl_cons]
          simp only [List.append_assoc, value, back]
      · refine ⟨bytes, rfl, ?_⟩
        rw [parseAttributes, if_pos (by omega), type, Option.bind_eq_bind, Option.bind_some, length,
          Option.bind_some, if_pos (by omega), unpadded_cut cut]
        rfl

end buffer

section cookie

theorem joined_xor {m n : Nat} (a c : BitVec m) (b d : BitVec n) :
    (a ^^^ c).toNat * 2 ^ n + (b ^^^ d).toNat =
      (a.toNat * 2 ^ n + b.toNat) ^^^ (c.toNat * 2 ^ n + d.toNat) := by
  have joined : ∀ (high : BitVec m) (low : BitVec n),
      high.toNat * 2 ^ n + low.toNat = (high ++ low).toNat := by
    intro high low
    rw [BitVec.toNat_append, ← Nat.shiftLeft_add_eq_or_of_lt low.isLt, Nat.shiftLeft_eq]
  rw [joined, joined, joined, ← BitVec.toNat_xor, BitVec.xor_append]

theorem word_xor (a b c d : UInt8) :
    UInt16.ofNat ((a ^^^ c).toNat * 256 + (b ^^^ d).toNat) =
      UInt16.ofNat (a.toNat * 256 + b.toNat) ^^^ UInt16.ofNat (c.toNat * 256 + d.toNat) := by
  have both := congrArg UInt16.ofNat (joined_xor a.toBitVec c.toBitVec b.toBitVec d.toBitVec)
  rw [UInt16.ofNat_xor] at both
  exact both

theorem double_xor (a b c d : UInt16) :
    BitVec.ofNat 32 ((a ^^^ c).toNat * 2 ^ 16 + (b ^^^ d).toNat) =
      BitVec.ofNat 32 (a.toNat * 2 ^ 16 + b.toNat) ^^^
        BitVec.ofNat 32 (c.toNat * 2 ^ 16 + d.toNat) := by
  have both := congrArg (BitVec.ofNat 32)
    (joined_xor a.toBitVec c.toBitVec b.toBitVec d.toBitVec)
  rw [BitVec.ofNat_xor] at both
  exact both

/-- The cookie is taken out byte by byte. -/
theorem address_xored {value : List UInt8} (size : value.length = 8) :
    address (xored value 0x21 0x12 0xA4 0x42) = xorAddress value := by
  match value, size with
  | [v₀, v₁, v₂, v₃, v₄, v₅, v₆, v₇], _ =>
    have port := word_xor v₂ v₃ 0x21 0x12
    have high := word_xor v₄ v₅ 0x21 0x12
    have low := word_xor v₆ v₇ 0xA4 0x42
    have addr := double_xor (UInt16.ofNat (v₄.toNat * 256 + v₅.toNat))
      (UInt16.ofNat (v₆.toNat * 256 + v₇.toNat)) 0x2112 0xA442
    simp only [address, xorAddress, SockaddrIn.mk.injEq]
    constructor
    · exact port
    · refine Eq.trans ?_ addr
      exact congrArg (BitVec.ofNat 32) (congrArg₂ (fun h l : UInt16 => h.toNat * 2 ^ 16 + l.toNat)
        high low)

theorem see_magicCookie (m : MappedAddr) (a : TypedValue) :
    see (fun v => address (xored v 0x21 0x12 0xA4 0x42)) m a = see xorAddress m a := by
  by_cases xor : XorMapped a
  · simp only [see, xor, address_xored xor.2.1]
  · simp only [see, xor, if_false]

end cookie

section answers
variable {seen : List TypedValue} {m : MappedAddr}

/-- The first XOR-MAPPED-ADDRESS, else the last MAPPED-ADDRESS. -/
def firstOffer (seen : List TypedValue) : Option SockaddrIn :=
  match seen.find? (XorMapped ·) with
  | some a => some (xorAddress a.value)
  | none => (seen.reverse.find? (Mapped ·)).map fun a => address a.value

theorem firstOffer_xor {a : TypedValue} (xor : XorMapped a) :
    firstOffer (a :: seen) = some (xorAddress a.value) := by
  simp [firstOffer, xor]

theorem firstOffer_other {a : TypedValue} (other : ¬ XorMapped a) :
    firstOffer (a :: seen) =
      (firstOffer seen).or (if Mapped a then some (address a.value) else none) := by
  simp only [firstOffer, List.find?_cons, other, decide_false, List.reverse_cons,
    List.find?_append]
  cases seen.find? (XorMapped ·) with
  | some b => rfl
  | none =>
    cases seen.reverse.find? (Mapped ·) with
    | some b => rfl
    | none =>
      by_cases mapped : Mapped a
      · simp [mapped]
      · simp [mapped]

theorem foldl_see_decided (xor : m.haveXorMappedAddress = true) (found : m.haveAddress = true) :
    seen.foldl (see xorAddress) m = m := by
  induction seen with
  | nil => rfl
  | cons a seen ih =>
    have same : see xorAddress m a = m := by
      obtain ⟨haveAddress, haveXorMappedAddress, mappedAddr⟩ := m
      simp only at xor found
      simp [see, xor, found]
    rw [List.foldl_cons, same, ih]

theorem foldl_see (fresh : m.haveXorMappedAddress = false) :
    match firstOffer seen with
    | some addr =>
        (seen.foldl (see xorAddress) m).haveAddress = true ∧
          (seen.foldl (see xorAddress) m).mappedAddr = some addr
    | none => seen.foldl (see xorAddress) m = m := by
  induction seen generalizing m with
  | nil => rfl
  | cons a seen ih =>
    by_cases xor : XorMapped a
    · have first : see xorAddress m a =
          { haveAddress := true, haveXorMappedAddress := true
            mappedAddr := some (xorAddress a.value) } := by
        simp [see, xor, fresh]
      rw [firstOffer_xor xor, List.foldl_cons, first, foldl_see_decided rfl rfl]
      exact ⟨rfl, rfl⟩
    · rw [firstOffer_other xor, List.foldl_cons]
      by_cases mapped : Mapped a
      · have next : see xorAddress m a =
            { haveAddress := true, haveXorMappedAddress := false
              mappedAddr := some (address a.value) } := by
          simp [see, xor, mapped, fresh]
        have rest := @ih (see xorAddress m a) (by rw [next])
        cases offer : firstOffer seen with
        | some addr =>
          rw [offer] at rest
          simpa using rest
        | none =>
          rw [offer] at rest
          rw [rest, next]
          simp [mapped]
      · have same : see xorAddress m a = m := by simp [see, xor, mapped]
        rw [same, if_neg mapped, Option.or_none]
        exact ih fresh

end answers

section responses

/-- The answer is the address that is to be found. -/
def Right (r : BindingResponse) : Prop :=
  (∃ addr buffer, parseStunResponse r.bytes = some (0, some addr, buffer) ∧
    Offers (r.attributes.map Padded.toTypedValue) (some addr)) ∨
  ∃ addr buffer, parseStunResponse r.bytes = some (-1, addr, buffer) ∧
    Offers (r.attributes.map Padded.toTypedValue) none

section header
variable {front : List UInt8} (size : front.length = 20)
include size

/-- The checks before the attributes. -/
theorem parse_header (bytes : List UInt8) :
    parseStunResponse (front ++ bytes) =
      if byteAt front 0 ≠ 0x01 ∨ byteAt front 1 &&& 0xEF ≠ 0x01 then
        some (-1, none, front ++ bytes)
      else if (readNU16 front 2).toNat > bytes.length then some (-1, none, front ++ bytes)
      else
        (parseAttributes (20 + bytes.length + 1) (front ++ bytes) 20
          { haveAddress := false, haveXorMappedAddress := false, mappedAddr := none }).map
          fun (buffer, m) => (if m.haveAddress then 0 else -1, m.mappedAddr, buffer) := by
  have total : (front ++ bytes).length = 20 + bytes.length := by rw [List.length_append, size]
  have first := @getElem?_behind [] front bytes 0 (by omega)
  have second := @getElem?_behind [] front bytes 1 (by omega)
  have length := @readU16_behind [] front bytes 2 (by omega)
  simp only [List.nil_append, List.length_nil, Nat.zero_add] at first second length
  have logged : logBytes (front ++ bytes) 0 8 = some () := if_pos (by omega)
  rw [parseStunResponse, if_neg (by omega), logged, first, second, length]
  simp only [Option.bind_eq_bind, Option.bind_some, total]
  have exceeds : (readNU16 front 2).toNat + 20 > 20 + bytes.length ↔
      (readNU16 front 2).toNat > bytes.length := by omega
  simp only [exceeds]
  split
  · rfl
  · split
    · rfl
    · rw [Option.map_eq_bind]
      rfl

theorem cookie_header :
    Cookie front (byteAt front 4) (byteAt front 5) (byteAt front 6) (byteAt front 7) := by
  have there : ∀ i, i < 20 → front[i]? = some (byteAt front i) := by
    intro i early
    have read := @getElem?_behind [] front [] i (by omega)
    simpa using read
  exact ⟨there 4 (by omega), there 5 (by omega), there 6 (by omega), there 7 (by omega)⟩

end header

/-- No byte outside the buffer is read or written. -/
theorem parse_inside (buffer : List UInt8) : ∃ result, parseStunResponse buffer = some result := by
  by_cases short : buffer.length < 20
  · exact ⟨_, by rw [parseStunResponse, if_pos short]⟩
  · have size : (buffer.take 20).length = 20 := by
      rw [List.length_take]
      omega
    have parsed := parse_header size (buffer.drop 20)
    rw [List.take_append_drop] at parsed
    rw [parsed]
    split
    · exact ⟨_, rfl⟩
    · split
      · exact ⟨_, rfl⟩
      · obtain ⟨changed, _, read⟩ := parseAttributes_behind (cookie_header size) (buffer.drop 20)
          { haveAddress := false, haveXorMappedAddress := false, mappedAddr := none }
          (show (buffer.drop 20).length < 20 + (buffer.drop 20).length + 1 by omega)
        rw [size, List.take_append_drop] at read
        rw [read]
        exact ⟨_, rfl⟩

theorem parse_bytes (r : BindingResponse) :
    ∃ addr buffer, parseStunResponse r.bytes =
      match firstOffer (unpadded (encode r.attributes)) with
      | some offer => some (0, some offer, buffer)
      | none => some (-1, addr, buffer) := by
  let front := [0x01, 0x01] ++ writeNU16 (UInt16.ofNat (encode r.attributes).length) ++
    magicCookie ++ r.transactionId
  have size : front.length = 20 := by
    simp only [front, writeNU16, magicCookie, List.length_append, List.length_cons,
      List.length_nil, r.identified]
  have cookie : Cookie front 0x21 0x12 0xA4 0x42 := ⟨rfl, rfl, rfl, rfl⟩
  have length : (readNU16 front 2).toNat = (encode r.attributes).length := by
    have written : readNU16 front 2 = UInt16.ofNat (encode r.attributes).length :=
      readNU16_writeNU16 (UInt16.ofNat (encode r.attributes).length)
        (magicCookie ++ r.transactionId)
    have fits := r.fits
    rw [written, UInt16.toNat_ofNat']
    omega
  have type : ¬ (byteAt front 0 ≠ 0x01 ∨ byteAt front 1 &&& 0xEF ≠ 0x01) := by
    have both : byteAt front 0 = 0x01 ∧ byteAt front 1 = 0x01 := ⟨rfl, rfl⟩
    rw [both.1, both.2]
    decide
  have words : (see fun v => address (xored v 0x21 0x12 0xA4 0x42)) = see xorAddress := by
    funext m a
    exact see_magicCookie m a
  let start : MappedAddr :=
    { haveAddress := false, haveXorMappedAddress := false, mappedAddr := none }
  obtain ⟨changed, _, read⟩ := parseAttributes_behind cookie (encode r.attributes) start
    (show (encode r.attributes).length < 20 + (encode r.attributes).length + 1 by omega)
  have told := @foldl_see (unpadded (encode r.attributes)) start rfl
  have parsed := parse_header size (encode r.attributes)
  rw [size, words] at read
  rw [if_neg type, if_neg (by omega), read, Option.map_some] at parsed
  change ∃ addr buffer, parseStunResponse (front ++ encode r.attributes) = _
  rw [parsed]
  cases offer : firstOffer (unpadded (encode r.attributes)) with
  | some addr =>
    rw [offer] at told
    exact ⟨none, front ++ changed, by simp [told.1, told.2]⟩
  | none =>
    rw [offer] at told
    exact ⟨none, front ++ changed, by simp [told, start]⟩

theorem right_iff (r : BindingResponse) :
    Right r ↔
      Offers (r.attributes.map Padded.toTypedValue)
        (firstOffer (unpadded (encode r.attributes))) := by
  obtain ⟨addr, buffer, parsed⟩ := parse_bytes r
  cases offer : firstOffer (unpadded (encode r.attributes)) with
  | some found =>
    rw [offer] at parsed
    constructor
    · intro right
      rcases right with ⟨found', buffer', parsed', offers⟩ | ⟨addr', buffer', parsed', _⟩
      · simp only [parsed, Option.some.injEq, Prod.mk.injEq] at parsed'
        rw [parsed'.2.1]
        exact offers
      · simp [parsed] at parsed'
    · intro offers
      exact .inl ⟨found, buffer, parsed, offers⟩
  | none =>
    rw [offer] at parsed
    constructor
    · intro right
      rcases right with ⟨found', buffer', parsed', _⟩ | ⟨addr', buffer', parsed', offers⟩
      · simp [parsed] at parsed'
      · exact offers
    · intro offers
      exact .inr ⟨addr, buffer, parsed, offers⟩

/-- Attributes read as they are offer what is to be found. -/
theorem offers_firstOffer (as : List TypedValue) : Offers as (firstOffer as) := by
  cases xor : as.find? (XorMapped ·) with
  | some a =>
    have offer : firstOffer as = some (xorAddress a.value) := by simp [firstOffer, xor]
    rw [offer]
    have passed := List.find?_some xor
    exact .inl ⟨a, List.mem_of_find?_eq_some xor, of_decide_eq_true passed, rfl⟩
  | none =>
    have none : ∀ a ∈ as, ¬ XorMapped a := by simpa using xor
    cases mapped : as.reverse.find? (Mapped ·) with
    | some a =>
      have offer : firstOffer as = some (address a.value) := by simp [firstOffer, xor, mapped]
      rw [offer]
      have passed := List.find?_some mapped
      have member := List.mem_reverse.mp (List.mem_of_find?_eq_some mapped)
      exact .inr ⟨none, a, member, of_decide_eq_true passed, rfl⟩
    | none =>
      have offer : firstOffer as = Option.none := by simp [firstOffer, xor, mapped]
      rw [offer]
      intro a member
      have absent : ∀ b ∈ as, ¬ Mapped b := by simpa using mapped
      exact ⟨none a member, absent a member⟩

/-- Only the last attribute is padded. -/
theorem right_of_aligned (r : BindingResponse) (aligned : ∀ a ∈ r.attributes.dropLast, a.Aligned) :
    Right r := by
  apply (right_iff r).mpr
  rw [unpadded_encode aligned]
  exact offers_firstOffer _

/-- The address is at hand before padding is read. -/
theorem right_of_xor_front (r : BindingResponse) {front others : List Padded} {last a : Padded}
    (whole : r.attributes = front ++ last :: others) (aligned : ∀ a ∈ front, a.Aligned)
    (member : a ∈ front ++ [last]) (xor : XorMapped a.toTypedValue) : Right r := by
  apply (right_iff r).mpr
  have seen : unpadded (encode r.attributes) = (front ++ [last]).map Padded.toTypedValue ++
      unpadded (last.padding ++ encode others) := by
    rw [whole, unpadded_front aligned, unpadded_head]
    simp
  have some : (((front ++ [last]).map Padded.toTypedValue).find? (XorMapped ·)).isSome := by
    apply List.find?_isSome.mpr
    exact ⟨a.toTypedValue, List.mem_map_of_mem member, decide_eq_true xor⟩
  obtain ⟨b, found⟩ := Option.isSome_iff_exists.mp some
  have offer : firstOffer (unpadded (encode r.attributes)) = Option.some (xorAddress b.value) := by
    rw [seen, firstOffer, List.find?_append, found]
    rfl
  have passed := List.find?_some found
  have inside : b ∈ r.attributes.map Padded.toTypedValue := by
    have early := List.mem_of_find?_eq_some found
    rw [whole]
    simp only [List.map_append, List.map_cons, List.map_nil, List.mem_append, List.mem_cons,
      List.not_mem_nil, or_false] at early ⊢
    tauto
  rw [offer]
  exact .inl ⟨b, inside, of_decide_eq_true passed, rfl⟩

/-- A software name of five bytes stands in front of the mapped address. -/
def softwareFirst : BindingResponse :=
  { transactionId := List.replicate 12 0x07
    attributes :=
      [{ type := 0x8022, value := [0x73, 0x74, 0x75, 0x6E, 0x64], padding := [0, 0, 0]
         short := by decide, padded := by decide },
       { type := 0x0020, value := [0x00, 0x01, 0xBC, 0x52, 0xE1, 0x12, 0xA6, 0x43], padding := []
         short := by decide, padded := by decide }]
    identified := rfl
    fits := by decide }

end responses

end StunAttributes
