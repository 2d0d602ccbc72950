import MiniUPnPd.Lib.Bytes

/-!
Records of a type, a length and a value, with 16 bits for the type and the length. A sender pads
the values to a multiple of four bytes, which the length does not count. A reader that does not
skip the padding finds the same records exactly as long as there is none but behind the last.
-/
namespace Tlv
open NetBytes

structure TypedValue where
  type : UInt16
  value : List UInt8
  deriving DecidableEq

structure Padded extends TypedValue where
  padding : List UInt8
  short : value.length < 2 ^ 16
  padded : padding.length = (4 - value.length % 4) % 4

def Padded.bytes (r : Padded) : List UInt8 :=
  writeNU16 r.type ++ (writeNU16 (UInt16.ofNat r.value.length) ++ (r.value ++ r.padding))

def encode (rs : List Padded) : List UInt8 := rs.flatMap Padded.bytes

/-- The records that stand in the bytes one right behind the other, up to the first that is cut
    off. -/
def unpadded (bytes : List UInt8) : List TypedValue :=
  if bytes.length < 4 then []
  else
    let length := (readNU16 bytes 2).toNat
    if 4 + length ≤ bytes.length then
      { type := readNU16 bytes 0, value := (bytes.drop 4).take length } ::
        unpadded (bytes.drop (4 + length))
    else []
termination_by bytes.length
decreasing_by
  simp only [List.length_drop]
  omega

def Padded.Aligned (r : Padded) : Prop := r.value.length % 4 = 0

theorem unpadded_short {bytes : List UInt8} (short : bytes.length < 4) : unpadded bytes = [] := by
  rw [unpadded, if_pos short]

theorem unpadded_fits {bytes : List UInt8} (fits : 4 + (readNU16 bytes 2).toNat ≤ bytes.length) :
    unpadded bytes =
      { type := readNU16 bytes 0, value := (bytes.drop 4).take (readNU16 bytes 2).toNat } ::
        unpadded (bytes.drop (4 + (readNU16 bytes 2).toNat)) := by
  have long : ¬ bytes.length < 4 := by omega
  rw [unpadded, if_neg long]
  exact if_pos fits

theorem unpadded_cut {bytes : List UInt8} (cut : ¬ 4 + (readNU16 bytes 2).toNat ≤ bytes.length) :
    unpadded bytes = [] := by
  rw [unpadded]
  split
  · rfl
  · exact if_neg cut

/-- What stands behind a value is read as the next record, also if it is padding. -/
theorem unpadded_record (r : TypedValue) (short : r.value.length < 2 ^ 16) (rest : List UInt8) :
    unpadded (writeNU16 r.type ++ (writeNU16 (UInt16.ofNat r.value.length) ++ (r.value ++ rest))) =
      r :: unpadded rest := by
  let bytes := writeNU16 r.type ++ (writeNU16 (UInt16.ofNat r.value.length) ++ (r.value ++ rest))
  have type : readNU16 bytes 0 = r.type := readNU16_writeNU16 r.type
    (writeNU16 (UInt16.ofNat r.value.length) ++ (r.value ++ rest))
  have length : (readNU16 bytes 2).toNat = r.value.length := by
    have written : readNU16 bytes 2 = UInt16.ofNat r.value.length :=
      readNU16_writeNU16 (UInt16.ofNat r.value.length) (r.value ++ rest)
    rw [written, UInt16.toNat_ofNat']
    omega
  have behind : bytes.drop 4 = r.value ++ rest := rfl
  have size : bytes.length = 4 + (r.value.length + rest.length) := by
    simp only [bytes, writeNU16, List.length_append, List.length_cons, List.length_nil]
    omega
  have value : (bytes.drop 4).take r.value.length = r.value := by
    rw [behind, List.take_left']
    rfl
  have next : bytes.drop (4 + r.value.length) = rest := by
    rw [← List.drop_drop, behind, List.drop_left']
    rfl
  have read := unpadded_fits (show 4 + (readNU16 bytes 2).toNat ≤ bytes.length by omega)
  rw [length, type, value, next] at read
  exact read

theorem unpadded_aligned {r : Padded} (aligned : r.Aligned) (rest : List UInt8) :
    unpadded (r.bytes ++ rest) = r.toTypedValue :: unpadded rest := by
  have none : r.padding = [] := by
    apply List.length_eq_zero_iff.mp
    rw [r.padded, aligned]
  rw [Padded.bytes, none, List.append_nil, List.append_assoc, List.append_assoc]
  exact unpadded_record r.toTypedValue r.short rest

/-- The padding behind the last record is too short for another one. -/
theorem unpadded_last (r : Padded) : unpadded r.bytes = [r.toTypedValue] := by
  have padded := r.padded
  rw [Padded.bytes, unpadded_record r.toTypedValue r.short, unpadded_short (by omega)]

theorem unpadded_encode {rs : List Padded} (aligned : ∀ r ∈ rs.dropLast, r.Aligned) :
    unpadded (encode rs) = rs.map Padded.toTypedValue := by
  induction rs with
  | nil => exact unpadded_short (by decide)
  | cons r rs ih =>
    cases rs with
    | nil => simpa [encode] using unpadded_last r
    | cons next rs =>
      have first : r.Aligned := aligned r (by simp)
      have others := ih fun s member => aligned s (by
        rw [List.dropLast_cons_cons]
        exact List.mem_cons_of_mem r member)
      rw [encode, List.flatMap_cons, unpadded_aligned first, List.map_cons]
      exact congrArg (r.toTypedValue :: ·) others

/-- The aligned records in front are read as they are. -/
theorem unpadded_front {rs others : List Padded} (aligned : ∀ r ∈ rs, r.Aligned) :
    unpadded (encode (rs ++ others)) = rs.map Padded.toTypedValue ++ unpadded (encode others) := by
  induction rs with
  | nil => rfl
  | cons r rs ih =>
    have rest := ih fun s member => aligned s (List.mem_cons_of_mem r member)
    have step := unpadded_aligned (aligned r List.mem_cons_self) (encode (rs ++ others))
    exact step.trans (congrArg (r.toTypedValue :: ·) rest)

/-- A record of which the padding is read as the next record is still read itself. -/
theorem unpadded_head (r : Padded) (others : List Padded) :
    unpadded (encode (r :: others)) =
      r.toTypedValue :: unpadded (r.padding ++ encode others) := by
  rw [encode, List.flatMap_cons, Padded.bytes, List.append_assoc, List.append_assoc,
    List.append_assoc]
  exact unpadded_record r.toTypedValue r.short (r.padding ++ encode others)

end Tlv
