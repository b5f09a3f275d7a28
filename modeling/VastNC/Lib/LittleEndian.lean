import Mathlib

/-! Fixed-width little-endian words and the windows of a byte memory they are
read from. -/

namespace LittleEndian

/-- The `w` low bytes of `n`, least significant first. -/
def toLE : Nat → Nat → List UInt8
  | 0, _ => []
  | w + 1, n => UInt8.ofNat n :: toLE w (n / 256)

def ofLE : List UInt8 → Nat
  | [] => 0
  | b :: bs => b.toNat + 256 * ofLE bs

@[simp] theorem length_toLE (w n : Nat) : (toLE w n).length = w := by
  induction w generalizing n with
  | zero => rfl
  | succ w ih => simp [toLE, ih]

theorem ofLE_toLE (w n : Nat) : ofLE (toLE w n) = n % 256 ^ w := by
  induction w generalizing n with
  | zero => simp [toLE, ofLE, Nat.mod_one]
  | succ w ih =>
    have hm := Nat.mod_mul (x := n) (a := 256) (b := 256 ^ w)
    simp only [toLE, ofLE, ih, UInt8.toNat_ofNat', Nat.pow_succ', hm]

theorem ofLE_toLE_of_lt {w n : Nat} (h : n < 256 ^ w) : ofLE (toLE w n) = n := by
  rw [ofLE_toLE, Nat.mod_eq_of_lt h]

theorem ofLE_lt (bs : List UInt8) : ofLE bs < 256 ^ bs.length := by
  induction bs with
  | nil => simp [ofLE]
  | cons b bs ih =>
    have hb := b.toNat_lt
    simp only [ofLE, List.length_cons, Nat.pow_succ]
    omega

theorem toLE_ofLE (bs : List UInt8) : toLE bs.length (ofLE bs) = bs := by
  induction bs with
  | nil => rfl
  | cons b bs ih =>
    have hb := b.toNat_lt
    have hdiv : (b.toNat + 256 * ofLE bs) / 256 = ofLE bs := by omega
    have hmod : (b.toNat + 256 * ofLE bs) % 256 = b.toNat := by omega
    have hhead : UInt8.ofNat (b.toNat + 256 * ofLE bs) = b := by
      apply UInt8.toNat_inj.mp
      rw [UInt8.toNat_ofNat', hmod]
    simp only [List.length_cons, ofLE, toLE, hdiv, hhead, ih]

theorem toLE_ofLE_mod {w m : Nat} {bs : List UInt8} (h : bs.length = w) (hm : m = 256 ^ w) :
    toLE w (ofLE bs % m) = bs := by
  subst h hm
  rw [Nat.mod_eq_of_lt (ofLE_lt bs), toLE_ofLE]

theorem ofLE_append (xs ys : List UInt8) : ofLE (xs ++ ys) = ofLE xs + 256 ^ xs.length * ofLE ys := by
  induction xs with
  | nil => simp [ofLE]
  | cons x xs ih =>
    simp only [List.cons_append, ofLE, List.length_cons, ih, Nat.pow_succ']
    ring

theorem drop_toLE (k w n : Nat) : (toLE (k + w) n).drop k = toLE w (n / 256 ^ k) := by
  induction k generalizing n with
  | zero => simp
  | succ k ih =>
    rw [show k + 1 + w = k + w + 1 by omega, toLE, List.drop_succ_cons, ih, Nat.div_div_eq_div_mul, Nat.pow_succ']

def window (mem : Nat → UInt8) (off len : Nat) : List UInt8 :=
  (List.range len).map (fun i => mem (off + i))

@[simp] theorem length_window (mem : Nat → UInt8) (off len : Nat) :
    (window mem off len).length = len := by simp [window]

theorem window_congr {mem mem' : Nat → UInt8} {off len : Nat}
    (h : ∀ i, off ≤ i → i < off + len → mem i = mem' i) :
    window mem off len = window mem' off len := by
  apply List.map_congr_left
  intro i hi
  have hlt := List.mem_range.mp hi
  exact h (off + i) (by omega) (by omega)

theorem window_add (mem : Nat → UInt8) (off a b : Nat) :
    window mem off (a + b) = window mem off a ++ window mem (off + a) b := by
  simp only [window, List.range_add, List.map_append, List.map_map]
  congr 1
  apply List.map_congr_left
  intro i _
  simp [Nat.add_assoc]

theorem window_slice {mem : Nat → UInt8} {w pre bs post : List UInt8} {off len : Nat}
    (h : window mem 0 w.length = w) (hw : w = pre ++ bs ++ post)
    (hoff : pre.length = off) (hlen : bs.length = len) : window mem off len = bs := by
  subst hoff hlen
  have hl : w.length = pre.length + bs.length + post.length := by simp [hw, Nat.add_assoc]
  rw [hl, window_add, window_add, Nat.zero_add, hw] at h
  have hpre := (List.append_inj h (by simp)).1
  exact (List.append_inj hpre (by simp)).2

def memOf (bs : List UInt8) (i : Nat) : UInt8 := bs.getD i 0

theorem window_memOf (bs : List UInt8) : window (memOf bs) 0 bs.length = bs := by
  apply List.ext_getElem (by simp)
  intro i h₁ h₂
  simp [window, memOf, List.getD_eq_getElem?_getD, h₂]

end LittleEndian
