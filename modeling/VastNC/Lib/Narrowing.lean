import Mathlib

/-! Signed corrections kept in fewer bits than the words they correct. -/

namespace Narrowing

variable {v w : Nat}

theorem setWidth_signExtend (h : v ≤ w) (a : BitVec v) : (a.signExtend w).setWidth v = a := by
  apply BitVec.eq_of_getLsbD_eq
  intro i hi
  simp only [BitVec.getLsbD_setWidth, BitVec.getLsbD_signExtend]
  simp [hi, show i < w by omega]

theorem setWidth_sub (h : v ≤ w) (x y : BitVec w) : (x - y).setWidth v = x.setWidth v - y.setWidth v := by
  rw [BitVec.sub_eq_add_neg, BitVec.setWidth_add _ _ h, BitVec.setWidth_neg_of_le h, BitVec.sub_eq_add_neg]

/-- A word survives the narrowing when its signed value fits. -/
theorem signExtend_setWidth_iff (hv : 0 < v) (h : v ≤ w) (x : BitVec w) :
    (x.setWidth v).signExtend w = x ↔ -2 ^ (v - 1) ≤ x.toInt ∧ x.toInt < 2 ^ (v - 1) := by
  rw [← BitVec.toInt_inj, BitVec.toInt_signExtend_of_le h]
  constructor
  · intro he
    rw [← he]
    exact ⟨BitVec.le_toInt _, BitVec.toInt_lt⟩
  · rintro ⟨hle, hlt⟩
    have hpow : ((2 ^ v : Nat) : Int) = 2 * 2 ^ (v - 1) := by
      rw [← pow_succ', Nat.sub_add_cancel hv, Nat.cast_pow, Nat.cast_ofNat]
    rw [BitVec.toInt_setWidth, ← Int.bmod_bmod_of_dvd (Nat.pow_dvd_pow 2 h), ← BitVec.toInt_eq_toNat_bmod]
    exact Int.bmod_eq_of_le_mul_two (by omega) (by omega)

/-- A correction `a` of a clock to which the narrowed rest of what is due is added. -/
theorem accumulate_iff (hv : 0 < v) (h : v ≤ w) (a : BitVec v) (y z : BitVec w) :
    (a + (y - a.signExtend w).setWidth v).signExtend w = z ↔
      (-2 ^ (v - 1) ≤ z.toInt ∧ z.toInt < 2 ^ (v - 1)) ∧ y.setWidth v = z.setWidth v := by
  have hsum : a + (y - a.signExtend w).setWidth v = y.setWidth v := by
    rw [setWidth_sub h, setWidth_signExtend h]
    exact add_sub_cancel a _
  rw [hsum, ← signExtend_setWidth_iff hv h]
  constructor
  · intro he
    have hn : y.setWidth v = z.setWidth v := by
      rw [← he, setWidth_signExtend h]
    exact ⟨by rw [← hn, he], hn⟩
  · rintro ⟨he, hn⟩
    rw [hn, he]

end Narrowing
