import VastNC.Lib.FixedCodec

/-! A block of memory of a given length. Copies into it and out of it fail where they leave it. -/

open LittleEndian

structure Block where
  capacity : Nat
  byte : Nat → UInt8

/-- The copy that leaves its block. -/
structure Overrun where
  off : Nat
  len : Nat

namespace Block

def bytes (b : Block) (off len : Nat) : List UInt8 := window b.byte off len

def load (b : Block) (off len : Nat) : Except Overrun (List UInt8) :=
  if off + len ≤ b.capacity then .ok (b.bytes off len) else .error ⟨off, len⟩

def patch (b : Block) (off : Nat) (bs : List UInt8) : Block :=
  { b with byte := fun i => if off ≤ i then bs.getD (i - off) (b.byte i) else b.byte i }

def copy (b : Block) (off : Nat) (bs : List UInt8) : Except Overrun Block :=
  if off + bs.length ≤ b.capacity then .ok (b.patch off bs) else .error ⟨off, bs.length⟩

variable {b : Block} {off len : Nat} {bs : List UInt8}

@[simp] theorem length_bytes (b : Block) (off len : Nat) : (b.bytes off len).length = len :=
  length_window _ _ _

@[simp] theorem capacity_patch (b : Block) (off : Nat) (bs : List UInt8) :
    (b.patch off bs).capacity = b.capacity := rfl

theorem load_ok (h : off + len ≤ b.capacity) : b.load off len = .ok (b.bytes off len) := if_pos h

theorem copy_ok (h : off + bs.length ≤ b.capacity) : b.copy off bs = .ok (b.patch off bs) := if_pos h

theorem ok_bind {ε α β : Type} (a : α) (f : α → Except ε β) : (Except.ok a >>= f) = f a := rfl

theorem load_bind {β : Type} (h : off + len ≤ b.capacity) (f : List UInt8 → Except Overrun β) :
    (b.load off len >>= f) = f (b.bytes off len) := by
  rw [load_ok h]
  rfl

theorem copy_bind {β : Type} (h : off + bs.length ≤ b.capacity) (f : Block → Except Overrun β) :
    (b.copy off bs >>= f) = f (b.patch off bs) := by
  rw [copy_ok h]
  rfl

theorem bytes_add (b : Block) (off m n : Nat) : b.bytes off (m + n) = b.bytes off m ++ b.bytes (off + m) n :=
  window_add _ _ _ _

theorem take_bytes {n : Nat} (h : n ≤ len) : (b.bytes off len).take n = b.bytes off n := by
  obtain ⟨k, rfl⟩ := Nat.exists_eq_add_of_le h
  simp [bytes_add]

theorem drop_bytes {n : Nat} (h : n ≤ len) : (b.bytes off len).drop n = b.bytes (off + n) (len - n) := by
  obtain ⟨k, rfl⟩ := Nat.exists_eq_add_of_le h
  simp [bytes_add]

theorem bytes_patch_before {off' : Nat} (h : off' + len ≤ off) :
    (b.patch off bs).bytes off' len = b.bytes off' len := by
  apply window_congr
  intro i _ hi
  show (if off ≤ i then _ else b.byte i) = b.byte i
  rw [if_neg (by omega)]

theorem bytes_patch_self (b : Block) (off : Nat) (bs : List UInt8) :
    (b.patch off bs).bytes off bs.length = bs := by
  apply List.ext_getElem (by simp)
  intro i _ hi
  simp [bytes, window, patch, List.getD_eq_getElem?_getD, hi]

/-- What is copied behind the first `off` bytes stands behind them. -/
theorem bytes_patch_append (b : Block) (off : Nat) (bs : List UInt8) :
    (b.patch off bs).bytes 0 (off + bs.length) = b.bytes 0 off ++ bs := by
  rw [bytes_add, bytes_patch_before (Nat.zero_add off).le, Nat.zero_add, bytes_patch_self]

theorem patch_patch {off' : Nat} {xs : List UInt8} (h : off' = off + xs.length) (ys : List UInt8) :
    (b.patch off xs).patch off' ys = b.patch off (xs ++ ys) := by
  subst h
  rw [patch, patch, patch, mk.injEq]
  refine ⟨rfl, funext fun i => ?_⟩
  by_cases h : off ≤ i
  · by_cases hx : off + xs.length ≤ i
    · have hge : xs.length ≤ i - off := by omega
      have hsub : i - off - xs.length = i - (off + xs.length) := by omega
      simp [h, hx, List.getD_eq_getElem?_getD, List.getElem?_append_right hge, List.getElem?_eq_none hge, hsub]
    · have hlt : i - off < xs.length := by omega
      simp [h, hx, List.getD_eq_getElem?_getD, List.getElem?_append_left hlt]
  · have hx : ¬ off + xs.length ≤ i := by omega
    simp [h, hx]

end Block
