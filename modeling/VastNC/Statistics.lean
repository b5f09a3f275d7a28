import VastNC.Serializable

/-! `StatType`: statistics of recorded values, and what of them arrives at another host. -/

namespace VastNC

open LittleEndian Block

/-- `memcpy` over the start of a word. -/
def overlay (word : UInt64) (bytes : List UInt8) : UInt64 :=
  UInt64.ofNat (ofLE (bytes ++ (toLE 8 word.toNat).drop bytes.length))

structure StatType where
  minimum : UInt64
  maximum : UInt64
  total : UInt64
  numRecords : UInt64
  deriving DecidableEq, Repr

namespace StatType

/-- `(size_t)(-1)`. -/
def noMinimum : UInt64 := 0xffffffffffffffff

def reset : StatType where
  minimum := noMinimum
  maximum := 0
  total := 0
  numRecords := 0

def calculateAverage (s : StatType) : StatType := if s.minimum = noMinimum then { s with minimum := 0 } else s

def addRecord (s : StatType) (value : UInt64) : StatType :=
  if value = 0 then s
  else
    { minimum := if value < s.minimum then value else s.minimum
      maximum := if s.maximum < value then value else s.maximum
      total := s.total + value
      numRecords := s.numRecords + 1 }

def sizeOf (_ : StatType) : Nat := 4 * 4

def serializeAt (s : StatType) (b : Block) (p : Nat) : Except Overrun (Block × Nat) := do
  let b ← b.copy p (toLE 4 s.minimum.toNat)
  let p := p + 4
  let b ← b.copy p (toLE 4 s.maximum.toNat)
  let p := p + 4
  let b ← b.copy p (toLE 4 s.total.toNat)
  let p := p + 4
  let b ← b.copy p (toLE 4 s.numRecords.toNat)
  return (b, s.sizeOf)

def deserializeAt (s : StatType) (b : Block) (p size : Nat) : Except Overrun (StatType × Nat) :=
  if s.sizeOf ≤ size then do
    let minimum ← b.load p 4
    let p := p + 4
    let maximum ← b.load p 4
    let p := p + 4
    let total ← b.load p 4
    let p := p + 4
    let numRecords ← b.load p 4
    let s := StatType.mk (overlay s.minimum minimum) (overlay s.maximum maximum) (overlay s.total total)
      (overlay s.numRecords numRecords)
    return (s.calculateAverage, s.sizeOf)
  else return (s, 0)

def serializable : Serializable StatType := ⟨sizeOf, serializeAt, deserializeAt⟩

def recorded (values : List UInt64) : StatType := values.foldl addRecord reset

/-- What `into` becomes when `s` is serialized to a buffer of its size and read from there. -/
def transmit (heap : Nat → UInt8) (s into : StatType) : Except Overrun (StatType × Nat) := do
  let (b, n) ← s.serializeAt ⟨s.sizeOf, heap⟩ 0
  into.deserializeAt b 0 n

/-- The four statistics are those sent, with no minimum read as 0. -/
structure Restored (sent got : StatType) : Prop where
  minimum : got.minimum = if sent.numRecords = 0 then 0 else sent.minimum
  maximum : got.maximum = sent.maximum
  total : got.total = sent.total
  numRecords : got.numRecords = sent.numRecords

def encode (s : StatType) : List UInt8 :=
  toLE 4 s.minimum.toNat ++ (toLE 4 s.maximum.toNat ++ (toLE 4 s.total.toNat ++ toLE 4 s.numRecords.toNat))

variable {b : Block} {p size : Nat} {s into : StatType}

theorem serializeAt_eq (h : p + 16 ≤ b.capacity) : s.serializeAt b p = .ok (b.patch p s.encode, 16) := by
  rw [serializeAt, copy_bind (by simp; omega), copy_bind (by simp; omega), copy_bind (by simp; omega),
    copy_bind (by simp; omega), patch_patch (by simp), patch_patch (by simp), patch_patch (by simp)]
  rfl

def overlaid (s into : StatType) : StatType where
  minimum := overlay into.minimum (toLE 4 s.minimum.toNat)
  maximum := overlay into.maximum (toLE 4 s.maximum.toNat)
  total := overlay into.total (toLE 4 s.total.toNat)
  numRecords := overlay into.numRecords (toLE 4 s.numRecords.toNat)

theorem deserializeAt_eq (hs : 16 ≤ size) (h : p + 16 ≤ b.capacity) (he : b.bytes p 16 = s.encode) :
    into.deserializeAt b p size = .ok ((s.overlaid into).calculateAverage, 16) := by
  have hsplit : s.encode = b.bytes p 4 ++ (b.bytes (p + 4) 4 ++ (b.bytes (p + 8) 4 ++ b.bytes (p + 12) 4)) := by
    rw [← he, show 16 = 4 + (4 + (4 + 4)) by rfl, bytes_add, bytes_add, bytes_add]
  obtain ⟨hmin, hrest⟩ := List.append_inj hsplit (by simp)
  obtain ⟨hmax, hrest⟩ := List.append_inj hrest (by simp)
  obtain ⟨htotal, hnum⟩ := List.append_inj hrest (by simp)
  rw [deserializeAt, if_pos (show into.sizeOf ≤ size from hs), load_bind (by omega), load_bind (by omega),
    load_bind (by omega), load_bind (by omega), ← hmin, ← hmax, ← htotal, ← hnum]
  rfl

theorem transmit_eq (heap : Nat → UInt8) (s into : StatType) :
    transmit heap s into = .ok ((s.overlaid into).calculateAverage, 16) := by
  have hbytes := bytes_patch_self (Block.mk s.sizeOf heap) 0 s.encode
  rw [transmit, serializeAt_eq (by rfl), ok_bind]
  exact deserializeAt_eq le_rfl (by rfl) hbytes

theorem toNat_overlay (word n : UInt64) :
    (overlay word (toLE 4 n.toNat)).toNat = n.toNat % 2 ^ 32 + 2 ^ 32 * (word.toNat / 2 ^ 32) := by
  have hn := n.toNat_lt
  have hw := word.toNat_lt
  have hlt : word.toNat / 256 ^ 4 < 256 ^ 4 := by omega
  rw [overlay, length_toLE, drop_toLE 4 4, ofLE_append, ofLE_toLE, ofLE_toLE, length_toLE, Nat.mod_eq_of_lt hlt,
    UInt64.toNat_ofNat_of_lt' (by simp only [UInt64.size]; omega)]
  rfl

/-- The statistics of values that add up to `sum`. -/
structure Sound (s : StatType) (sum : Nat) : Prop where
  total : s.total.toNat = sum
  maximum : s.maximum.toNat ≤ sum
  numRecords : s.numRecords.toNat ≤ sum
  none : s.numRecords = 0 → sum = 0 ∧ s.minimum = noMinimum
  some : s.numRecords ≠ 0 → s.minimum.toNat ≤ sum

theorem sound_reset : reset.Sound 0 where
  total := rfl
  maximum := le_rfl
  numRecords := le_rfl
  none := fun _ => ⟨rfl, rfl⟩
  some := fun h => absurd rfl h

theorem Sound.addRecord {sum : Nat} {value : UInt64} (hs : s.Sound sum) (h : sum + value.toNat < 2 ^ 32) :
    (s.addRecord value).Sound (sum + value.toNat) := by
  by_cases hv : value = 0
  · simpa [StatType.addRecord, hv] using hs
  · have hpos : 0 < value.toNat := Nat.pos_of_ne_zero fun hz => hv (UInt64.toNat_inj.mp hz)
    have hnum := hs.numRecords
    have hcount : (s.numRecords + 1).toNat = s.numRecords.toNat + 1 := by
      rw [UInt64.toNat_add]
      exact Nat.mod_eq_of_lt (show s.numRecords.toNat + 1 < 2 ^ 64 by omega)
    have hmax := hs.maximum
    rw [StatType.addRecord, if_neg hv]
    refine ⟨?_, ?_, ?_, ?_, ?_⟩
    · show (s.total + value).toNat = sum + value.toNat
      rw [UInt64.toNat_add, hs.total, Nat.mod_eq_of_lt (by omega)]
    · show (if s.maximum < value then value else s.maximum).toNat ≤ sum + value.toNat
      split <;> omega
    · show (s.numRecords + 1).toNat ≤ sum + value.toNat
      omega
    · intro hz
      have hzero : (s.numRecords + 1).toNat = 0 := congrArg UInt64.toNat hz
      omega
    · intro _
      show (if value < s.minimum then value else s.minimum).toNat ≤ sum + value.toNat
      split
      · omega
      · rename_i hge
        have hle := UInt64.le_iff_toNat_le.mp (UInt64.not_lt.mp hge)
        omega

theorem sound_recorded {values : List UInt64} (h : (values.map UInt64.toNat).sum < 2 ^ 32) :
    (recorded values).Sound (values.map UInt64.toNat).sum := by
  induction values using List.reverseRecOn with
  | nil => exact sound_reset
  | append_singleton values value ih =>
    simp only [List.map_append, List.map_cons, List.map_nil, List.sum_append, List.sum_singleton] at h ⊢
    rw [recorded, List.foldl_append]
    exact (ih (by omega)).addRecord h

theorem overlay_zero {n : UInt64} (h : n.toNat < 2 ^ 32) : overlay 0 (toLE 4 n.toNat) = n := by
  apply UInt64.toNat_inj.mp
  rw [toNat_overlay, Nat.mod_eq_of_lt h]
  simp

@[simp] theorem calculateAverage_maximum (s : StatType) : s.calculateAverage.maximum = s.maximum := by
  simp only [calculateAverage]
  split <;> rfl

@[simp] theorem calculateAverage_total (s : StatType) : s.calculateAverage.total = s.total := by
  simp only [calculateAverage]
  split <;> rfl

@[simp] theorem calculateAverage_numRecords (s : StatType) : s.calculateAverage.numRecords = s.numRecords := by
  simp only [calculateAverage]
  split <;> rfl

/-- The other three statistics arrive: the upper halves of their defaults are 0, as theirs are. -/
theorem others_restored {sum : Nat} (hs : s.Sound sum) (h : sum < 2 ^ 32) :
    (s.overlaid reset).calculateAverage.maximum = s.maximum ∧
      (s.overlaid reset).calculateAverage.total = s.total ∧
      (s.overlaid reset).calculateAverage.numRecords = s.numRecords := by
  have hmax := hs.maximum
  have htotal := hs.total
  have hnum := hs.numRecords
  simp only [calculateAverage_maximum, calculateAverage_total, calculateAverage_numRecords]
  exact ⟨overlay_zero (by omega), overlay_zero (by omega), overlay_zero (by omega)⟩

/-- The upper half of the minimum that arrives is that of the default object. -/
theorem toNat_overlay_noMinimum {n : UInt64} (h : n.toNat < 2 ^ 32) :
    (overlay noMinimum (toLE 4 n.toNat)).toNat = n.toNat + (2 ^ 64 - 2 ^ 32) := by
  rw [toNat_overlay, Nat.mod_eq_of_lt h]
  rfl

theorem minimum_lost {n : UInt64} (h : n.toNat < 2 ^ 32) (s : StatType)
    (hs : s.minimum = overlay noMinimum (toLE 4 n.toNat)) : s.calculateAverage.minimum ≠ n := by
  have hval : s.minimum.toNat = n.toNat + (2 ^ 64 - 2 ^ 32) := by rw [hs, toNat_overlay_noMinimum h]
  intro he
  by_cases hall : s.minimum = noMinimum
  · have hz : n = 0 := by
      rw [← he, calculateAverage, if_pos hall]
    have hmax : s.minimum.toNat = 2 ^ 64 - 1 := by rw [hall]; rfl
    rw [hz] at hval
    simp only [UInt64.toNat_zero] at hval
    omega
  · have hkept : s.minimum = n := by rw [← he, calculateAverage, if_neg hall]
    rw [hkept] at hval
    omega

theorem restored_none {sum : Nat} (hs : s.Sound sum) (h : sum < 2 ^ 32) (hnone : s.numRecords = 0) :
    Restored s (s.overlaid reset).calculateAverage := by
  obtain ⟨hmax, htotal, hnum⟩ := others_restored hs h
  refine ⟨?_, hmax, htotal, hnum⟩
  have hmin : (s.overlaid reset).minimum = noMinimum := by
    simp only [overlaid, reset, (hs.none hnone).2]
    decide +kernel
  rw [if_pos hnone, calculateAverage, if_pos hmin]

/-- What is sent of recorded values is restored exactly when there are none: the upper half of the
default minimum is never overwritten. -/
theorem statistics_restored_iff (heap : Nat → UInt8) (values : List UInt64)
    (h : (values.map UInt64.toNat).sum < 2 ^ 32) :
    (∃ got n, transmit heap (recorded values) reset = .ok (got, n) ∧ Restored (recorded values) got) ↔
      ∀ v ∈ values, v = 0 := by
  have hs := sound_recorded h
  have hzero : (∀ v ∈ values, v = 0) ↔ (values.map UInt64.toNat).sum = 0 := by
    rw [List.sum_eq_zero_iff]
    simp [← UInt64.toNat_inj]
  rw [transmit_eq, hzero]
  constructor
  · rintro ⟨got, n, hgot, hrest⟩
    obtain ⟨rfl, -⟩ := Prod.mk.inj (Except.ok.inj hgot)
    by_contra hne
    have hrec : (recorded values).numRecords ≠ 0 := fun hnone => hne (hs.none hnone).1
    have hmin := hrest.minimum
    rw [if_neg hrec] at hmin
    have hle := hs.some hrec
    have hover : ((recorded values).overlaid reset).minimum =
        overlay noMinimum (toLE 4 (recorded values).minimum.toNat) := by
      simp only [overlaid, reset]
    exact minimum_lost (by omega) ((recorded values).overlaid reset) hover hmin
  · intro hsum
    have hnone : (recorded values).numRecords = 0 := by
      have hle := hs.numRecords
      exact UInt64.toNat_inj.mp (show (recorded values).numRecords.toNat = 0 by omega)
    exact ⟨_, _, rfl, restored_none hs h hnone⟩

theorem statistics_restored_iff_empty : ∃ got n, transmit (fun _ => 0) (recorded [0, 0]) reset = .ok (got, n) ∧
    Restored (recorded [0, 0]) got :=
  (statistics_restored_iff (fun _ => 0) [0, 0] (by simp)).mpr (by simp)

theorem statistics_not_restored : ¬ ∀ (heap : Nat → UInt8) (values : List UInt64),
    (values.map UInt64.toNat).sum < 2 ^ 32 →
    ∃ got n, transmit heap (recorded values) reset = .ok (got, n) ∧ Restored (recorded values) got := by
  intro h
  obtain ⟨got, n, hgot, hrest⟩ := h (fun _ => 0) [5] (by simp)
  rw [transmit_eq] at hgot
  obtain ⟨rfl, -⟩ := Prod.mk.inj (Except.ok.inj hgot)
  exact absurd hrest.minimum (by decide +kernel)

end StatType

end VastNC
