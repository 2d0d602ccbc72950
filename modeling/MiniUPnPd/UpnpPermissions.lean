import MiniUPnPd.Lib.Inet
import MiniUPnPd.Lib.WordBitmap

/-!
UPnP permission rules. A request is checked against the list from the front and the
first rule that matches decides. `get_permitted_ext_ports` answers the same question
for all external ports at once: it goes through the list from the back and lets every
rule overwrite the bits of its port range, whole words where it can.
-/
namespace UpnpPermissions
open WordBitmap

inductive PermType where
  | allow
  | deny
  deriving DecidableEq, Repr

structure UpnpPerm where
  type : PermType
  eportMin : UInt16
  eportMax : UInt16
  address : InAddr
  mask : InAddr
  iportMin : UInt16
  iportMax : UInt16
  deriving DecidableEq, Repr

def matchPermission (perm : UpnpPerm) (eport : UInt16) (address : InAddr) (iport : UInt16) : Bool :=
  if eport < perm.eportMin ∨ perm.eportMax < eport then false
  else if iport < perm.iportMin ∨ perm.iportMax < iport then false
  else if address &&& perm.mask ≠ perm.address &&& perm.mask then false
  else true

def checkUpnpRuleAgainstPermissions :
    List UpnpPerm → (eport : UInt16) → (address : InAddr) → (iport : UInt16) → Bool
  | [], _, _, _ => true
  | perm :: permary, eport, address, iport =>
      if matchPermission perm eport address iport then perm.type = .allow
      else checkUpnpRuleAgainstPermissions permary eport address iport

/-- `uint32_t allowed[65536 / 32]` -/
abbrev PortBitmap := Words 32 2048

theorem word_inside {j : Nat} {eportMax : UInt16} (within : j ≤ eportMax.toNat) :
    j / 32 < 2048 := by
  have top := eportMax.toNat_lt
  omega

def storeBit (perm : UpnpPerm) (allowed : PortBitmap) (j : Nat)
    (within : j ≤ perm.eportMax.toNat) : PortBitmap :=
  if perm.type = .allow then setBit allowed j (word_inside within)
  else clearBit allowed j (word_inside within)

/-- The inner loop, one bit at once up to the next word or the end of the range. -/
def storeBits (perm : UpnpPerm) (allowed : PortBitmap) (j : Nat)
    (within : j ≤ perm.eportMax.toNat) : PortBitmap × Nat :=
  let stored := storeBit perm allowed j within
  if more : (j + 1) % 32 ≠ 0 ∧ j + 1 ≤ perm.eportMax.toNat then
    storeBits perm stored (j + 1) more.2
  else (stored, j + 1)
termination_by perm.eportMax.toNat - j

theorem storeBits_progress (perm : UpnpPerm) (allowed : PortBitmap) (j : Nat)
    (within : j ≤ perm.eportMax.toNat) : j < (storeBits perm allowed j within).2 := by
  fun_induction storeBits perm allowed j within with
  | case1 allowed j within stored more ih => omega
  | case2 allowed j within stored done => simp

def wordFor (perm : UpnpPerm) : BitVec 32 := if perm.type = .allow then 0xffffffff else 0

def storeRange (perm : UpnpPerm) (allowed : PortBitmap) (j : Nat) : PortBitmap :=
  if within : j ≤ perm.eportMax.toNat then
    if j % 32 = 0 ∧ perm.eportMax.toNat ≥ j + 31 then
      storeRange perm (allowed.set (j / 32) (wordFor perm) (word_inside within)) (j + 32)
    else
      storeRange perm (storeBits perm allowed j within).1 (storeBits perm allowed j within).2
  else allowed
termination_by perm.eportMax.toNat + 1 - j
decreasing_by
  · omega
  · have progress := storeBits_progress perm allowed j within
    omega

def applyPermission (addr : InAddr) (iport : UInt16) (perm : UpnpPerm)
    (allowed : PortBitmap) : PortBitmap :=
  if addr &&& perm.mask ≠ perm.address &&& perm.mask then allowed
  else if iport < perm.iportMin ∨ perm.iportMax < iport then allowed
  else storeRange perm allowed perm.eportMin.toNat

def getPermittedExtPorts (permary : List UpnpPerm) (addr : InAddr) (iport : UInt16) : PortBitmap :=
  permary.foldr (applyPermission addr iport) (Vector.replicate 2048 0xffffffff)

theorem bit_storeBit (perm : UpnpPerm) (allowed : PortBitmap) (j : Nat)
    (within : j ≤ perm.eportMax.toNat) (i : Nat) :
    bit (storeBit perm allowed j within) i =
      if i = j then decide (perm.type = .allow) else bit allowed i := by
  unfold storeBit
  by_cases allow : perm.type = .allow
  · rw [if_pos allow, bit_setBit (by decide)]
    simp [allow]
  · rw [if_neg allow, bit_clearBit (by decide)]
    simp [allow]

theorem storeBits_end (perm : UpnpPerm) (allowed : PortBitmap) (j : Nat)
    (within : j ≤ perm.eportMax.toNat) :
    (storeBits perm allowed j within).2 ≤ perm.eportMax.toNat + 1 := by
  fun_induction storeBits perm allowed j within with
  | case1 allowed j within stored more ih => exact ih
  | case2 allowed j within stored done =>
    show j + 1 ≤ perm.eportMax.toNat + 1
    omega

theorem bit_storeBits (perm : UpnpPerm) (allowed : PortBitmap) (j : Nat)
    (within : j ≤ perm.eportMax.toNat) (i : Nat) :
    bit (storeBits perm allowed j within).1 i =
      if j ≤ i ∧ i < (storeBits perm allowed j within).2 then decide (perm.type = .allow)
      else bit allowed i := by
  fun_induction storeBits perm allowed j within with
  | case1 allowed j within stored more ih =>
    have progress := storeBits_progress perm stored (j + 1) more.2
    rw [ih, bit_storeBit]
    grind
  | case2 allowed j within stored done =>
    rw [bit_storeBit]
    grind

theorem bit_set_word (perm : UpnpPerm) (allowed : PortBitmap) (j : Nat)
    (within : j ≤ perm.eportMax.toNat) (i : Nat) :
    bit (allowed.set (j / 32) (wordFor perm) (word_inside within)) i =
      if i / 32 = j / 32 then decide (perm.type = .allow) else bit allowed i := by
  by_cases allow : perm.type = .allow
  · have ones := bit_set_ones (by decide) allowed (j / 32) (word_inside within) i
    simpa [wordFor, allow] using ones
  · have zero := bit_set_zero allowed (j / 32) (word_inside within) i
    simpa [wordFor, allow] using zero

/-- The two ways of storing meet at the word boundaries: together they write exactly the
    bits from `j` to the end of the range. -/
theorem bit_storeRange (perm : UpnpPerm) (allowed : PortBitmap) (j i : Nat) :
    bit (storeRange perm allowed j) i =
      if j ≤ i ∧ i ≤ perm.eportMax.toNat then decide (perm.type = .allow)
      else bit allowed i := by
  fun_induction storeRange perm allowed j with
  | case1 allowed j within word ih =>
    rw [ih, bit_set_word perm allowed j within]
    grind
  | case2 allowed j within partly ih =>
    have progress := storeBits_progress perm allowed j within
    have stop := storeBits_end perm allowed j within
    rw [ih, bit_storeBits]
    grind
  | case3 allowed j past => grind

theorem matchPermission_iff (perm : UpnpPerm) (eport : UInt16) (address : InAddr)
    (iport : UInt16) :
    matchPermission perm eport address iport = true ↔
      (perm.eportMin.toNat ≤ eport.toNat ∧ eport.toNat ≤ perm.eportMax.toNat) ∧
        ¬ (iport < perm.iportMin ∨ perm.iportMax < iport) ∧
        address &&& perm.mask = perm.address &&& perm.mask := by
  unfold matchPermission
  simp only [UInt16.lt_iff_toNat_lt]
  grind

theorem bit_applyPermission (addr : InAddr) (iport : UInt16) (perm : UpnpPerm)
    (allowed : PortBitmap) (eport : UInt16) :
    bit (applyPermission addr iport perm allowed) eport.toNat =
      if matchPermission perm eport addr iport then decide (perm.type = .allow)
      else bit allowed eport.toNat := by
  simp only [applyPermission, matchPermission_iff]
  by_cases network : addr &&& perm.mask = perm.address &&& perm.mask
  · by_cases outside : iport < perm.iportMin ∨ perm.iportMax < iport
    · simp [network, outside]
    · simp only [network, outside, ne_eq, not_true_eq_false, ↓reduceIte, not_false_eq_true,
        and_true, bit_storeRange]
  · simp [network]

theorem bit_getPermittedExtPorts (permary : List UpnpPerm) (addr : InAddr)
    (iport eport : UInt16) :
    bit (getPermittedExtPorts permary addr iport) eport.toNat =
      checkUpnpRuleAgainstPermissions permary eport addr iport := by
  induction permary with
  | nil =>
    have inside : eport.toNat / 32 < 2048 := word_inside (Nat.le_refl _)
    have ones := bit_replicate_ones (w := 32) (by decide) eport.toNat inside
    simpa [getPermittedExtPorts, checkUpnpRuleAgainstPermissions] using ones
  | cons perm permary ih =>
    have store := bit_applyPermission addr iport perm (getPermittedExtPorts permary addr iport) eport
    have unfolded : getPermittedExtPorts (perm :: permary) addr iport =
        applyPermission addr iport perm (getPermittedExtPorts permary addr iport) := rfl
    rw [unfolded, Bool.eq_iff_iff, store, checkUpnpRuleAgainstPermissions]
    by_cases matched : matchPermission perm eport addr iport
    · simp [matched]
    · simpa [matched] using ih

/-- Both readings of the permission list agree: the one that fills the bitmap from the last
    rule to the first, and the one that stops at the first rule that matches. -/
theorem permitted_bitmap_agrees (permary : List UpnpPerm) (addr : InAddr)
    (iport eport : UInt16) :
    bit (getPermittedExtPorts permary addr iport) eport.toNat = true ↔
      checkUpnpRuleAgainstPermissions permary eport addr iport = true := by
  rw [bit_getPermittedExtPorts]

end UpnpPermissions
