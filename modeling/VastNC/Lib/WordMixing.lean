import Mathlib

/-! The steps that hash functions mix a machine word with, none of which loses a bit of it. -/

namespace WordMixing

variable {w k : Nat}

theorem eq_zero_of_shiftRight_self {x : BitVec w} (hk : 0 < k) (h : x = x >>> k) : x = 0#w := by
  have hdiv : x.toNat = x.toNat / 2 ^ k := by
    have hn := congrArg BitVec.toNat h
    simpa only [BitVec.toNat_ushiftRight, Nat.shiftRight_eq_div_pow] using hn
  apply BitVec.eq_of_toNat_eq
  by_contra hx
  have hlt := Nat.div_lt_self (Nat.pos_of_ne_zero (by simpa using hx)) (Nat.one_lt_two_pow (by omega : k ≠ 0))
  omega

theorem xorShift_injective (hk : 0 < k) : Function.Injective (fun x : BitVec w => x ^^^ (x >>> k)) := by
  intro x y h
  -- the difference of two such words is its own shift
  have hself : x ^^^ y = (x ^^^ y) >>> k := by
    have hxor : x ^^^ (x >>> k) ^^^ (y ^^^ (y >>> k)) = 0#w := by
      simp only [show x ^^^ (x >>> k) = y ^^^ (y >>> k) from h, BitVec.xor_self]
    rw [BitVec.ushiftRight_xor_distrib]
    apply BitVec.xor_eq_zero_iff.mp
    calc x ^^^ y ^^^ (x >>> k ^^^ y >>> k) = x ^^^ (x >>> k) ^^^ (y ^^^ (y >>> k)) := by
          ac_rfl
      _ = 0#w := hxor
  exact BitVec.xor_eq_zero_iff.mp (eq_zero_of_shiftRight_self hk hself)

theorem mul_odd_injective {a : BitVec w} (ha : a.toNat % 2 = 1) :
    Function.Injective (fun x : BitVec w => x * a) := by
  intro x y h
  have hmod : x.toNat * a.toNat ≡ y.toNat * a.toNat [MOD 2 ^ w] := by
    simpa only [Nat.ModEq, BitVec.toNat_mul] using congrArg BitVec.toNat h
  have hco : Nat.gcd (2 ^ w) a.toNat = 1 := by
    apply Nat.Coprime.pow_left
    exact (Nat.coprime_two_left).mpr (Nat.odd_iff.mpr ha)
  apply BitVec.eq_of_toNat_eq
  exact (Nat.ModEq.cancel_right_of_coprime hco hmod).eq_of_lt_of_lt x.isLt y.isLt

end WordMixing
