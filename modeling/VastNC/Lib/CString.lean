import Mathlib.Data.List.Basic
import Mathlib.Data.List.TakeWhile

/-! Bytes compared as C strings: behind a zero byte nothing is looked at. -/

namespace CString

/-- The bytes in front of the first zero byte. -/
def text (bs : List UInt8) : List UInt8 := bs.takeWhile (· != 0)

/-- `strncmp`, by the sign of its result; a string that ends in front of `n` bytes counts as
ended there by a zero. -/
def strncmp : List UInt8 → List UInt8 → Nat → Int
  | _, _, 0 => 0
  | [], [], _ => 0
  | [], d :: _, _ + 1 => if d = 0 then 0 else -1
  | c :: _, [], _ + 1 => if c = 0 then 0 else 1
  | c :: cs, d :: ds, n + 1 =>
    if c = d then (if c = 0 then 0 else strncmp cs ds n) else if c < d then -1 else 1

theorem text_cons_zero (bs : List UInt8) : text (0 :: bs) = [] := rfl

theorem text_cons {b : UInt8} (h : b ≠ 0) (bs : List UInt8) : text (b :: bs) = b :: text bs :=
  List.takeWhile_cons_of_pos (by simpa using h)

theorem strncmp_cons_ne {c d : UInt8} (h : c ≠ d) (cs ds : List UInt8) (n : Nat) :
    strncmp (c :: cs) (d :: ds) (n + 1) ≠ 0 := by
  rw [strncmp, if_neg h]
  split <;> decide

/-- Strings of one length are equal to `strncmp` when their texts are. -/
theorem strncmp_eq_zero_iff {cs ds : List UInt8} (h : cs.length = ds.length) :
    strncmp cs ds cs.length = 0 ↔ text cs = text ds := by
  induction cs generalizing ds with
  | nil =>
    cases List.eq_nil_of_length_eq_zero h.symm
    exact iff_of_true rfl rfl
  | cons c cs ih =>
    cases ds with
    | nil => cases h
    | cons d ds =>
      have hl : cs.length = ds.length := Nat.succ.inj h
      by_cases hcd : c = d
      · subst hcd
        by_cases hc : c = 0
        · subst hc
          exact iff_of_true rfl rfl
        · rw [List.length_cons, strncmp, if_pos rfl, if_neg hc, ih hl, text_cons hc, text_cons hc,
            List.cons.injEq, and_iff_right rfl]
      · refine iff_of_false (strncmp_cons_ne hcd cs ds cs.length) fun ht => hcd ?_
        by_cases hc : c = 0
        · subst hc
          have hd : d = 0 := by
            by_contra hd
            rw [text_cons_zero, text_cons hd] at ht
            cases ht
          exact hd.symm
        · have hd : d ≠ 0 := by
            rintro rfl
            rw [text_cons_zero, text_cons hc] at ht
            cases ht
          rw [text_cons hc, text_cons hd] at ht
          exact (List.cons.inj ht).1

end CString
