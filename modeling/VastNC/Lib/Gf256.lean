import Mathlib

/-! The binary extension field of 256 elements with reduction polynomial
`x⁸ + x⁴ + x³ + x² + 1`, on bytes: addition is exclusive or, multiplication is
shift and add. The ring laws follow from one fact about multiplication by `x`. -/

namespace Gf256

def xtime (a : BitVec 8) : BitVec 8 :=
  (a <<< 1) ^^^ (if a.msb then 0x1D#8 else 0#8)

@[simp] theorem xtime_zero : xtime 0#8 = 0#8 := rfl

theorem xtime_xor (a b : BitVec 8) : xtime (a ^^^ b) = xtime a ^^^ xtime b := by
  have hmask : ∀ c d : Bool, (if (c ^^ d) then 0x1D#8 else 0#8) =
      (if c then 0x1D#8 else 0#8) ^^^ (if d then 0x1D#8 else 0#8) := by decide
  simp only [xtime, BitVec.shiftLeft_xor_distrib, BitVec.msb_xor, hmask]
  ac_rfl

def select (c : Bool) (a : BitVec 8) : BitVec 8 := if c then a else 0#8

theorem select_xor (c : Bool) (a b : BitVec 8) :
    select c (a ^^^ b) = select c a ^^^ select c b := by
  cases c <;> simp [select]

theorem select_bxor (c d : Bool) (a : BitVec 8) :
    select (c ^^ d) a = select c a ^^^ select d a := by
  cases c <;> cases d <;> simp [select]

theorem xtime_select (c : Bool) (a : BitVec 8) : xtime (select c a) = select c (xtime a) := by
  cases c <;> simp [select, xtime]

/-- Horner's rule over the bits of `a`, highest first. -/
def mul (a b : BitVec 8) : BitVec 8 :=
  [7, 6, 5, 4, 3, 2, 1, 0].foldl (fun acc i => xtime acc ^^^ select (a.getLsbD i) b) 0#8

theorem mul_eq (a b : BitVec 8) : mul a b =
    xtime (xtime (xtime (xtime (xtime (xtime (xtime (xtime 0#8 ^^^ select (a.getLsbD 7) b) ^^^
      select (a.getLsbD 6) b) ^^^ select (a.getLsbD 5) b) ^^^ select (a.getLsbD 4) b) ^^^
      select (a.getLsbD 3) b) ^^^ select (a.getLsbD 2) b) ^^^ select (a.getLsbD 1) b) ^^^
      select (a.getLsbD 0) b := rfl

theorem mul_xor (a b c : BitVec 8) : mul a (b ^^^ c) = mul a b ^^^ mul a c := by
  simp only [mul_eq, select_xor, xtime_xor]
  ac_rfl

theorem xor_mul (a b c : BitVec 8) : mul (a ^^^ b) c = mul a c ^^^ mul b c := by
  simp only [mul_eq, BitVec.getLsbD_xor, select_bxor, xtime_xor]
  ac_rfl

theorem mul_xtime (a b : BitVec 8) : mul a (xtime b) = xtime (mul a b) := by
  simp only [mul_eq, xtime_xor, xtime_select, xtime_zero]

/-- The reduction polynomial vanishes at multiplication by `x`. -/
theorem xtime_eighth (a : BitVec 8) :
    xtime (xtime (xtime (xtime (xtime (xtime (xtime (xtime a))))))) =
      xtime (xtime (xtime (xtime a))) ^^^ xtime (xtime (xtime a)) ^^^ xtime (xtime a) ^^^ a := by
  revert a
  decide +kernel

theorem getLsbD_xtime (a : BitVec 8) :
    (xtime a).getLsbD 0 = a.getLsbD 7 ∧ (xtime a).getLsbD 1 = a.getLsbD 0 ∧
    (xtime a).getLsbD 2 = (a.getLsbD 1 ^^ a.getLsbD 7) ∧
    (xtime a).getLsbD 3 = (a.getLsbD 2 ^^ a.getLsbD 7) ∧
    (xtime a).getLsbD 4 = (a.getLsbD 3 ^^ a.getLsbD 7) ∧
    (xtime a).getLsbD 5 = a.getLsbD 4 ∧ (xtime a).getLsbD 6 = a.getLsbD 5 ∧
    (xtime a).getLsbD 7 = a.getLsbD 6 := by
  revert a
  decide +kernel

theorem xtime_mul (a b : BitVec 8) : mul (xtime a) b = xtime (mul a b) := by
  obtain ⟨h0, h1, h2, h3, h4, h5, h6, h7⟩ := getLsbD_xtime a
  simp only [mul_eq, h0, h1, h2, h3, h4, h5, h6, h7,
    select_bxor, xtime_xor, xtime_select, xtime_zero, xtime_eighth, select_xor]
  ac_rfl

theorem one_mul (a : BitVec 8) : mul 1#8 a = a := by
  revert a
  decide +kernel

theorem mul_one (a : BitVec 8) : mul a 1#8 = a := by
  revert a
  decide +kernel

theorem zero_mul (a : BitVec 8) : mul 0#8 a = 0#8 := by
  revert a
  decide +kernel

theorem mul_zero (a : BitVec 8) : mul a 0#8 = 0#8 := by
  simpa using mul_xor a 0#8 0#8

theorem select_mul (c : Bool) (a b : BitVec 8) : mul (select c a) b = select c (mul a b) := by
  cases c <;> simp [select, zero_mul]

theorem mul_select (c : Bool) (a b : BitVec 8) : mul a (select c b) = select c (mul a b) := by
  cases c
  · exact mul_zero a
  · rfl

theorem mul_assoc (a b c : BitVec 8) : mul (mul a b) c = mul a (mul b c) := by
  rw [mul_eq a b, mul_eq a (mul b c)]
  simp only [xor_mul, xtime_mul, select_mul, xtime_zero, zero_mul]

theorem mul_comm (a b : BitVec 8) : mul a b = mul b a := by
  conv_rhs => rw [← mul_one a, mul_eq a 1#8]
  simp only [mul_xor, mul_xtime, mul_select, mul_one, xtime_zero, mul_zero, mul_eq a b]

end Gf256

@[ext]
structure Gf256 where
  bits : BitVec 8
  deriving DecidableEq, Repr

namespace Gf256

def ofByte (b : UInt8) : Gf256 := ⟨b.toBitVec⟩

def toByte (a : Gf256) : UInt8 := ⟨a.bits⟩

@[simp] theorem toByte_ofByte (b : UInt8) : (ofByte b).toByte = b := rfl

@[simp] theorem ofByte_toByte (a : Gf256) : ofByte a.toByte = a := rfl

instance : Zero Gf256 := ⟨⟨0#8⟩⟩
instance : One Gf256 := ⟨⟨1#8⟩⟩
instance : Add Gf256 := ⟨fun a b => ⟨a.bits ^^^ b.bits⟩⟩
instance : Neg Gf256 := ⟨id⟩
instance : Mul Gf256 := ⟨fun a b => ⟨mul a.bits b.bits⟩⟩

instance : CommRing Gf256 where
  add_assoc a b c := Gf256.ext (BitVec.xor_assoc a.bits b.bits c.bits)
  zero_add a := Gf256.ext BitVec.zero_xor
  add_zero a := Gf256.ext BitVec.xor_zero
  add_comm a b := Gf256.ext (BitVec.xor_comm a.bits b.bits)
  neg_add_cancel a := Gf256.ext BitVec.xor_self
  left_distrib a b c := Gf256.ext (mul_xor a.bits b.bits c.bits)
  right_distrib a b c := Gf256.ext (xor_mul a.bits b.bits c.bits)
  zero_mul a := Gf256.ext (zero_mul a.bits)
  mul_zero a := Gf256.ext (mul_zero a.bits)
  mul_assoc a b c := Gf256.ext (mul_assoc a.bits b.bits c.bits)
  one_mul a := Gf256.ext (one_mul a.bits)
  mul_one a := Gf256.ext (mul_one a.bits)
  mul_comm a b := Gf256.ext (mul_comm a.bits b.bits)
  nsmul := nsmulRec
  zsmul := zsmulRec

def x : Gf256 := ⟨2#8⟩

theorem x_pow (n : Nat) : x ^ n = ⟨xtime^[n] 1#8⟩ := by
  induction n with
  | zero => rfl
  | succ n ih =>
    have hmul : x * (⟨xtime^[n] 1#8⟩ : Gf256) = ⟨xtime (mul 1#8 (xtime^[n] 1#8))⟩ :=
      Gf256.ext (xtime_mul 1#8 _)
    rw [pow_succ', ih, hmul, one_mul, Function.iterate_succ_apply']

theorem orderOf_x : orderOf x = 255 := by
  apply orderOf_eq_of_pow_and_pow_div_prime (by norm_num)
  · rw [x_pow]
    decide +kernel
  · intro p hp hdvd
    have hmem : p ∈ Nat.primeFactors 255 := Nat.mem_primeFactors.mpr ⟨hp, hdvd, by norm_num⟩
    have hfac : Nat.primeFactors 255 = {3, 5, 17} := by
      have hprod : 255 = 3 * (5 * 17) := by norm_num
      rw [hprod, Nat.primeFactors_mul (by norm_num) (by norm_num),
        Nat.primeFactors_mul (by norm_num) (by norm_num),
        Nat.Prime.primeFactors (by norm_num), Nat.Prime.primeFactors (by norm_num),
        Nat.Prime.primeFactors (by norm_num)]
      rfl
    simp only [hfac, Finset.mem_insert, Finset.mem_singleton] at hmem
    rcases hmem with rfl | rfl | rfl <;> rw [x_pow] <;> decide +kernel

def equivFin : Gf256 ≃ Fin 256 where
  toFun a := a.bits.toFin
  invFun i := ⟨⟨i⟩⟩
  left_inv _ := rfl
  right_inv _ := rfl

instance : Fintype Gf256 := Fintype.ofEquiv (Fin 256) equivFin.symm

theorem card_eq : Fintype.card Gf256 = 256 := by
  rw [Fintype.card_congr equivFin, Fintype.card_fin]

theorem exists_x_pow {a : Gf256} (ha : a ≠ 0) : ∃ k, x ^ k = a := by
  have hone : x ^ 255 = 1 := orderOf_x ▸ pow_orderOf_eq_one x
  have hnz : ∀ k, x ^ k ≠ 0 := by
    intro k hk
    have h : (x ^ k) ^ 255 = 1 := by rw [pow_right_comm, hone, one_pow]
    rw [hk, zero_pow (by norm_num)] at h
    exact absurd h (by decide)
  have hcard : ((Finset.range 255).image (x ^ ·)).card = 255 := by
    rw [Finset.card_image_of_injOn, Finset.card_range]
    intro i hi j hj h
    refine pow_injOn_Iio_orderOf ?_ ?_ h
    · simpa [orderOf_x] using hi
    · simpa [orderOf_x] using hj
  have hsub : (Finset.range 255).image (x ^ ·) ⊆ Finset.univ.erase 0 := by
    intro b hb
    obtain ⟨k, -, rfl⟩ := Finset.mem_image.mp hb
    exact Finset.mem_erase.mpr ⟨hnz k, Finset.mem_univ _⟩
  have heq := Finset.eq_of_subset_of_card_le hsub (by
    rw [hcard, Finset.card_erase_of_mem (Finset.mem_univ _), Finset.card_univ, card_eq])
  have hmem : a ∈ (Finset.range 255).image (x ^ ·) :=
    heq ▸ Finset.mem_erase.mpr ⟨ha, Finset.mem_univ a⟩
  obtain ⟨k, -, hk⟩ := Finset.mem_image.mp hmem
  exact ⟨k, hk⟩

instance : Inv Gf256 := ⟨fun a => a ^ 254⟩

theorem mul_inv_self {a : Gf256} (ha : a ≠ 0) : a * a⁻¹ = 1 := by
  obtain ⟨k, rfl⟩ := exists_x_pow ha
  have hone : x ^ 255 = 1 := orderOf_x ▸ pow_orderOf_eq_one x
  calc x ^ k * (x ^ k) ^ 254 = (x ^ k) ^ 255 := (pow_succ' (x ^ k) 254).symm
    _ = (x ^ 255) ^ k := pow_right_comm x k 255
    _ = 1 := by rw [hone, one_pow]

instance : Field Gf256 where
  exists_pair_ne := ⟨0, 1, by decide⟩
  mul_inv_cancel _ := mul_inv_self
  inv_zero := zero_pow (by norm_num)
  nnqsmul := _
  nnqsmul_def _ _ := rfl
  qsmul := _
  qsmul_def _ _ := rfl

end Gf256
