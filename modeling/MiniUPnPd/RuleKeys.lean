import MiniUPnPd.LeaseFile
import MiniUPnPd.Netfilter.Iptcrdr

/-!
Rules and descriptions by their key, the external port and the protocol. The rules hold
the protocol as 16 bits without sign and the descriptions as 16 bits with sign; for the
protocols of the IP header, one byte, both are the protocol itself.
-/
namespace RuleKeys
open Iptc Iptcrdr LeaseFile

variable {eport : UInt16} {proto : Int}

def isByte (proto : Int) : Prop := 0 ≤ proto ∧ proto < 256

instance (proto : Int) : Decidable (isByte proto) := inferInstanceAs (Decidable (_ ∧ _))

theorem toInt_of_byte (byte : isByte proto) : (Int16.ofInt proto).toInt = proto := by
  obtain ⟨low, high⟩ := byte
  have size : (Int16.size : Int) = 65536 := rfl
  rw [Int16.toInt_ofInt, Int.bmod_eq_of_le] <;> omega

theorem ofInt_inj {a b : Int} (left : isByte a) (right : isByte b) :
    Int16.ofInt a = Int16.ofInt b ↔ a = b := by
  constructor
  · intro same
    rw [← toInt_of_byte left, same, toInt_of_byte right]
  · intro same
    rw [same]

theorem ofInt_inj_word {a b : Int} (lowA : 0 ≤ a) (highA : a < 65536) (lowB : 0 ≤ b)
    (highB : b < 65536) (same : Int16.ofInt a = Int16.ofInt b) : a = b := by
  have values : a.bmod 65536 = b.bmod 65536 := by
    simpa only [Int16.toInt_ofInt] using congrArg Int16.toInt same
  have remainders : a % 65536 = b % 65536 := by
    have left : a.bmod 65536 % 65536 = a % 65536 := Int.bmod_emod
    have right : b.bmod 65536 % 65536 = b % 65536 := Int.bmod_emod
    rw [← left, ← right, values]
  omega

theorem descMatches_iff (byte : isByte proto) (p : RdrDesc) :
    descMatches eport proto p = true ↔ p.eport = eport ∧ p.proto = Int16.ofInt proto := by
  simp only [descMatches, Bool.decide_and, Bool.and_eq_true, decide_eq_true_eq]
  constructor
  · intro both
    refine ⟨both.1, ?_⟩
    rw [← both.2, Int16.ofInt_toInt]
  · intro both
    exact ⟨both.1, by rw [both.2, toInt_of_byte byte]⟩

/-- The comparison in `get_redirect_desc` and the one in `del_redirect_desc`. -/
theorem descMatches_eq (byte : isByte proto) (eport : UInt16) :
    (fun p : RdrDesc => decide (p.eport = eport ∧ p.proto = Int16.ofInt proto)) =
      descMatches eport proto := by
  funext p
  rw [Bool.eq_iff_iff, descMatches_iff byte, decide_eq_true_eq]

theorem redirectMatches_iff (e : IptEntry) :
    redirectMatches proto eport e = true ↔ proto = e.proto.toNat ∧ eport = e.dpts.1 := by
  simp [redirectMatches]

theorem redirectMatches_other {eport' : UInt16} {proto' : Int}
    (other : ¬ (eport' = eport ∧ proto' = proto)) (e : IptEntry)
    (hit : redirectMatches proto' eport' e = true) : redirectMatches proto eport e = false := by
  rw [redirectMatches_iff] at hit
  by_contra also
  rw [Bool.not_eq_false, redirectMatches_iff] at also
  exact other ⟨hit.2.trans also.2.symm, hit.1.trans also.1.symm⟩

theorem protoAtoi_byte (protocol : CString) : isByte (protoAtoi protocol) := by
  unfold protoAtoi
  split
  · decide
  · split <;> decide

theorem ofInt_toNat_byte (byte : isByte proto) : ((UInt16.ofInt proto).toNat : Int) = proto := by
  obtain ⟨low, high⟩ := byte
  obtain ⟨n, here⟩ := Int.eq_ofNat_of_zero_le low
  subst here
  have small : n < 65536 := by omega
  simp only [UInt16.ofInt, UInt16.toNat_ofNat']
  omega

theorem portRange_fst (port : UInt16) : (portRange port).1 = port := by
  unfold portRange
  split <;> simp_all

theorem natRule_key (rhost : Option CString) (eport : UInt16) (iaddr : CString) (iport : UInt16)
    (byte : isByte proto) :
    (natRule proto eport iaddr iport rhost).dpts.1 = eport ∧
      (((natRule proto eport iaddr iport rhost).proto.toNat : Nat) : Int) = proto := by
  exact ⟨portRange_fst eport, ofInt_toNat_byte byte⟩

end RuleKeys
