import VastNC.Framing
import VastNC.Serializable

/-! `VASTBuffer` in memory: the block that `data` points to, the part of it in use and its size, counted in
machine words. What it holds is the `VASTBuffer` of the framing. -/

namespace VastNC

open LittleEndian Block

/-- `bufsize` is what the buffer takes for the size of its block. -/
structure ExpandingBuffer where
  data : Block
  size : UInt64
  bufsize : UInt64

/-- An object behind a `Serializable` pointer: what it answers to `serialize (NULL)`, and what it writes. -/
structure SerializableObject where
  serializeNull : UInt64
  serialize : Block → Nat → Except Overrun (Block × UInt64)

/-- An object with something to write, which announces what it then writes. -/
structure SteadyObject extends SerializableObject where
  bytes : List UInt8
  nonempty : bytes ≠ []
  announced : serializeNull.toNat = bytes.length
  written : ∀ b p, p + bytes.length ≤ b.capacity → serialize b p = .ok (b.patch p bytes, serializeNull)

/-- A record of the repository behind such a pointer. -/
def Serializable.object {α : Type} (s : Serializable α) (a : α) : SerializableObject where
  serializeNull := UInt64.ofNat (s.sizeOf a)
  serialize b p := do
    let (b, n) ← s.serializeAt a b p
    return (b, UInt64.ofNat n)

theorem RecordType.steady (t : RecordType) (a : t.Obj) : ∃ obj : SteadyObject,
    obj.toSerializableObject = t.serializable.object a ∧ obj.bytes = t.codec.encode (t.fields a) := by
  have hsize : t.codec.size < 2 ^ 64 := by cases t <;> decide
  have hlen : (t.codec.encode (t.fields a)).length = t.codec.size := t.codec.length_encode _
  refine ⟨⟨t.serializable.object a, t.codec.encode (t.fields a), ?_, ?_, ?_⟩, rfl, rfl⟩
  · apply List.ne_nil_of_length_pos
    rw [hlen]
    exact t.agrees.pos
  · show (UInt64.ofNat (t.serializable.sizeOf a)).toNat = _
    rw [t.agrees.sizeOf, hlen, UInt64.toNat_ofNat_of_lt' hsize]
  · intro b p h
    rw [hlen] at h
    simp only [Serializable.object, t.agrees.serialize a b p h, t.agrees.sizeOf, ok_bind]
    rfl

namespace ExpandingBuffer

/-- The constructor with a given size; `heap` is what newly allocated memory holds. -/
def ofCapacity (heap : Nat → UInt8) (size : UInt64) : ExpandingBuffer where
  data := ⟨size.toNat, heap⟩
  size := 0
  bufsize := size

def newsize (b : ExpandingBuffer) (len : UInt64) : UInt64 := ((b.size + len) / 32000 + 1) * 32000

def expand (heap : Nat → UInt8) (b : ExpandingBuffer) (len : UInt64) :
    Except Overrun (ExpandingBuffer × Bool) :=
  if b.newsize len ≤ b.bufsize then return (b, false)
  else do
    let bytes ← b.data.load 0 b.size.toNat
    let temp ← (Block.mk (b.newsize len).toNat heap).copy 0 bytes
    return ({ b with data := temp, bufsize := b.newsize len }, true)

def reserve (heap : Nat → UInt8) (b : ExpandingBuffer) (len : UInt64) : Except Overrun ExpandingBuffer :=
  let b := { b with size := 0 }
  if b.bufsize < len then do
    let (b, _) ← b.expand heap len
    return b
  else return b

def clear (b : ExpandingBuffer) : ExpandingBuffer := { b with size := 0 }

/-- The check of both `add`: there is space, or the buffer has been expanded. -/
def makeSpace (heap : Nat → UInt8) (b : ExpandingBuffer) (len : UInt64) :
    Except Overrun (ExpandingBuffer × Bool) :=
  if b.bufsize < b.size + len then b.expand heap len else return (b, true)

/-- `add (void *, size_t)`. -/
def add (heap : Nat → UInt8) (b : ExpandingBuffer) (stuff : List UInt8) :
    Except Overrun (ExpandingBuffer × Bool) := do
  let len := UInt64.ofNat stuff.length
  let (b, space) ← b.makeSpace heap len
  if space = false then return (b, false)
  else do
    let data ← b.data.copy b.size.toNat stuff
    return ({ b with data, size := b.size + len }, true)

/-- `add (Serializable *)`. -/
def addObject (heap : Nat → UInt8) (b : ExpandingBuffer) (obj : SerializableObject) :
    Except Overrun (ExpandingBuffer × Bool) := do
  let len := obj.serializeNull
  if len ≤ 0 then return (b, false)
  else do
    let (b, space) ← b.makeSpace heap len
    if space = false then return (b, false)
    else do
      let (data, written) ← obj.serialize b.data b.size.toNat
      if written ≠ len then return ({ b with data }, false)
      else return ({ b with data, size := b.size + len }, true)

inductive Op where
  | add (stuff : List UInt8)
  | addObject (obj : SteadyObject)
  | clear
  | reserve (len : UInt64)

def step (heap : Nat → UInt8) (b : ExpandingBuffer) : Op → Except Overrun (ExpandingBuffer × Option Bool)
  | .add stuff => do
    let (b, added) ← b.add heap stuff
    return (b, some added)
  | .addObject obj => do
    let (b, added) ← b.addObject heap obj.toSerializableObject
    return (b, some added)
  | .clear => return (b.clear, none)
  | .reserve len => do
    let b ← b.reserve heap len
    return (b, none)

def run (heap : Nat → UInt8) (b : ExpandingBuffer) :
    List Op → Except Overrun (ExpandingBuffer × List (Option Bool))
  | [] => return (b, [])
  | op :: ops => do
    let (b, answer) ← b.step heap op
    let (b, answers) ← b.run heap ops
    return (b, answer :: answers)

/-- What has been added since the last `clear` or `reserve`, one call later. -/
def addedAfter (added : List UInt8) : Op → List UInt8
  | .add stuff => added ++ stuff
  | .addObject obj => added ++ obj.bytes
  | .clear => []
  | .reserve _ => []

def added (ops : List Op) : List UInt8 := ops.foldl addedAfter []

def held (b : ExpandingBuffer) : List UInt8 := b.data.bytes 0 b.size.toNat

/-- The buffer knows the size of its block and stays inside it. -/
structure Valid (b : ExpandingBuffer) : Prop where
  capacity : b.data.capacity = b.bufsize.toNat
  fits : b.size ≤ b.bufsize

variable {b : ExpandingBuffer} {heap : Nat → UInt8} {len : UInt64}

@[simp] theorem length_held (b : ExpandingBuffer) : b.held.length = b.size.toNat := length_bytes ..

theorem toNat_newsize (h : b.size.toNat + len.toNat + vastBufsiz ≤ 2 ^ 64) :
    (b.newsize len).toNat = ((b.size.toNat + len.toNat) / vastBufsiz + 1) * vastBufsiz := by
  simp only [vastBufsiz] at h ⊢
  simp only [newsize, UInt64.toNat_mul, UInt64.toNat_add, UInt64.toNat_div, UInt64.reduceToNat]
  omega

def expanded (heap : Nat → UInt8) (b : ExpandingBuffer) (len : UInt64) : ExpandingBuffer :=
  ⟨(Block.mk (b.newsize len).toNat heap).patch 0 b.held, b.size, b.newsize len⟩

theorem expand_eq (hv : b.Valid) (h : b.bufsize < b.newsize len) :
    b.expand heap len = .ok (b.expanded heap len, true) := by
  have hfits := UInt64.le_iff_toNat_le.mp hv.fits
  have hlt := UInt64.lt_iff_toNat_lt.mp h
  have hload : 0 + b.size.toNat ≤ b.data.capacity := by rw [hv.capacity]; omega
  have hcopy : 0 + b.held.length ≤ (Block.mk (b.newsize len).toNat heap).capacity := by
    show 0 + b.held.length ≤ (b.newsize len).toNat
    rw [length_held]
    omega
  rw [expand, if_neg (by simpa using h), load_bind hload]
  exact copy_bind hcopy _

theorem expand_kept (h : b.newsize len ≤ b.bufsize) : b.expand heap len = .ok (b, false) := if_pos h

theorem Valid.expanded (hv : b.Valid) (h : b.bufsize < b.newsize len) : (b.expanded heap len).Valid where
  capacity := rfl
  fits := UInt64.le_of_lt (UInt64.lt_of_le_of_lt hv.fits h)

theorem held_expanded : (b.expanded heap len).held = b.held := by
  have h := bytes_patch_self (Block.mk (b.newsize len).toNat heap) 0 b.held
  rwa [length_held] at h

/-- The size of the block with room for `len` more bytes, in numbers that do not wrap. -/
def roomy (b : ExpandingBuffer) (len : Nat) : Nat :=
  if b.size.toNat + len ≤ b.bufsize.toNat then b.bufsize.toNat
  else ((b.size.toNat + len) / vastBufsiz + 1) * vastBufsiz

theorem le_roomy (b : ExpandingBuffer) (len : Nat) : b.size.toNat + len ≤ b.roomy len := by
  simp only [roomy, vastBufsiz]
  split <;> omega

/-- The buffer is expanded only when `newsize` exceeds its size, so that `expand` never refuses. -/
theorem makeSpace_spec (heap : Nat → UInt8) (hv : b.Valid)
    (h : b.size.toNat + len.toNat + vastBufsiz ≤ 2 ^ 64) :
    ∃ b', b.makeSpace heap len = .ok (b', true) ∧ b'.Valid ∧ b'.size = b.size ∧ b'.held = b.held ∧
      b'.bufsize.toNat = b.roomy len.toNat := by
  have hsum : (b.size + len).toNat = b.size.toNat + len.toNat := by
    simp only [vastBufsiz] at h
    rw [UInt64.toNat_add, Nat.mod_eq_of_lt (by omega)]
  by_cases hb : b.bufsize < b.size + len
  · have hgt : ¬ b.size.toNat + len.toNat ≤ b.bufsize.toNat := by
      have hlt := UInt64.lt_iff_toNat_lt.mp hb
      omega
    have hnew : b.bufsize < b.newsize len := by
      rw [UInt64.lt_iff_toNat_lt, toNat_newsize h]
      simp only [vastBufsiz]
      omega
    refine ⟨b.expanded heap len, ?_, hv.expanded hnew, rfl, held_expanded, ?_⟩
    · rw [makeSpace, if_pos hb, expand_eq hv hnew]
    · rw [roomy, if_neg hgt]
      exact toNat_newsize h
  · have hle : b.size.toNat + len.toNat ≤ b.bufsize.toNat := by
      rw [UInt64.lt_iff_toNat_lt] at hb
      omega
    exact ⟨b, if_neg hb, hv, rfl, rfl, (if_pos hle).symm⟩

def stored (b : ExpandingBuffer) (bs : List UInt8) (len : UInt64) : ExpandingBuffer :=
  { b with data := b.data.patch b.size.toNat bs, size := b.size + len }

theorem stored_spec {bs : List UInt8} (hv : b.Valid) (hlen : len.toNat = bs.length)
    (h : b.size.toNat + bs.length ≤ b.bufsize.toNat) :
    (b.stored bs len).Valid ∧ (b.stored bs len).held = b.held ++ bs := by
  have hsum : (b.size + len).toNat = b.size.toNat + bs.length := by
    have hlt := b.bufsize.toNat_lt
    rw [UInt64.toNat_add, hlen, Nat.mod_eq_of_lt (by omega)]
  refine ⟨⟨hv.capacity, ?_⟩, ?_⟩
  · rw [UInt64.le_iff_toNat_le]
    show (b.size + len).toNat ≤ b.bufsize.toNat
    omega
  · show (b.data.patch b.size.toNat bs).bytes 0 (b.size + len).toNat = b.held ++ bs
    rw [hsum, bytes_patch_append]
    rfl

theorem add_spec (heap : Nat → UInt8) {stuff : List UInt8} (hv : b.Valid)
    (h : b.size.toNat + stuff.length + vastBufsiz ≤ 2 ^ 64) :
    ∃ b', b.add heap stuff = .ok (b', true) ∧ b'.Valid ∧ b'.held = b.held ++ stuff ∧
      b'.bufsize.toNat = b.roomy stuff.length := by
  have hlen : (UInt64.ofNat stuff.length).toNat = stuff.length := by
    simp only [vastBufsiz] at h
    exact UInt64.toNat_ofNat_of_lt' (by simp only [UInt64.size]; omega)
  obtain ⟨b₁, hspace, hv₁, hsize, hheld, hbuf⟩ := makeSpace_spec heap hv (hlen.symm ▸ h)
  rw [hlen] at hbuf
  have hfits : b₁.size.toNat + stuff.length ≤ b₁.bufsize.toNat := by
    have hle := b.le_roomy stuff.length
    rw [hsize]
    omega
  obtain ⟨hstored, heq⟩ := stored_spec hv₁ hlen hfits
  refine ⟨b₁.stored stuff (UInt64.ofNat stuff.length), ?_, hstored, by rw [heq, hheld], hbuf⟩
  rw [add, hspace, ok_bind]
  exact copy_bind (hv₁.capacity ▸ hfits) _

theorem addObject_spec (heap : Nat → UInt8) {obj : SteadyObject} (hv : b.Valid)
    (h : b.size.toNat + obj.bytes.length + vastBufsiz ≤ 2 ^ 64) :
    ∃ b', b.addObject heap obj.toSerializableObject = .ok (b', true) ∧ b'.Valid ∧
      b'.held = b.held ++ obj.bytes := by
  have hpos : ¬ obj.serializeNull ≤ 0 := by
    have hne := List.length_pos_iff.mpr obj.nonempty
    have hlen := obj.announced
    simp only [UInt64.le_iff_toNat_le, UInt64.reduceToNat]
    omega
  obtain ⟨b₁, hspace, hv₁, hsize, hheld, hbuf⟩ := makeSpace_spec heap hv (obj.announced.symm ▸ h)
  have hfits : b₁.size.toNat + obj.bytes.length ≤ b₁.bufsize.toNat := by
    have hle := b.le_roomy obj.serializeNull.toNat
    have hlen := obj.announced
    rw [hsize]
    omega
  obtain ⟨hstored, heq⟩ := stored_spec hv₁ obj.announced hfits
  refine ⟨b₁.stored obj.bytes obj.serializeNull, ?_, hstored, by rw [heq, hheld]⟩
  simp only [addObject, if_neg hpos, hspace, ok_bind]
  rw [if_neg (by decide), obj.written _ _ (hv₁.capacity ▸ hfits), ok_bind]
  simp only [ne_eq, not_true_eq_false, if_false]
  rfl

theorem Valid.clear (hv : b.Valid) : b.clear.Valid := ⟨hv.capacity, by simp [ExpandingBuffer.clear]⟩

theorem reserve_spec (heap : Nat → UInt8) (len : UInt64) (hv : b.Valid) :
    ∃ b', b.reserve heap len = .ok b' ∧ b'.Valid ∧ b'.held = [] := by
  have hclear := hv.clear
  by_cases hlt : b.bufsize < len
  · by_cases hnew : b.clear.newsize len ≤ b.bufsize
    · refine ⟨b.clear, ?_, hclear, rfl⟩
      show (if b.bufsize < len then b.clear.expand heap len >>= _ else _) = _
      rw [if_pos hlt, expand_kept hnew]
      rfl
    · have hgt : b.clear.bufsize < b.clear.newsize len := UInt64.not_le.mp hnew
      refine ⟨b.clear.expanded heap len, ?_, hclear.expanded hgt, held_expanded⟩
      show (if b.bufsize < len then b.clear.expand heap len >>= _ else _) = _
      rw [if_pos hlt, expand_eq hclear hgt]
      rfl
  · exact ⟨b.clear, if_neg hlt, hclear, rfl⟩

def Op.answer : Op → Option Bool
  | .add _ => some true
  | .addObject _ => some true
  | .clear => none
  | .reserve _ => none

theorem step_spec (heap : Nat → UInt8) {op : Op} (hv : b.Valid)
    (h : (addedAfter b.held op).length + vastBufsiz ≤ 2 ^ 64) :
    ∃ b', b.step heap op = .ok (b', op.answer) ∧ b'.Valid ∧ b'.held = addedAfter b.held op := by
  cases op with
  | add stuff =>
    obtain ⟨b', hadd, hv', hheld, -⟩ := add_spec heap hv
      (by simpa only [addedAfter, List.length_append, length_held] using h)
    exact ⟨b', by simp only [step, hadd, ok_bind]; rfl, hv', hheld⟩
  | addObject obj =>
    obtain ⟨b', hadd, hv', hheld⟩ := addObject_spec heap hv
      (by simpa only [addedAfter, List.length_append, length_held] using h)
    exact ⟨b', by simp only [step, hadd, ok_bind]; rfl, hv', hheld⟩
  | clear => exact ⟨b.clear, rfl, hv.clear, rfl⟩
  | reserve len =>
    obtain ⟨b', hres, hv', hheld⟩ := reserve_spec heap len hv
    exact ⟨b', by simp only [step, hres, ok_bind]; rfl, hv', hheld⟩

theorem run_spec (heap : Nat → UInt8) {ops : List Op} (hv : b.Valid)
    (h : ∀ pre, pre <+: ops → (pre.foldl addedAfter b.held).length + vastBufsiz ≤ 2 ^ 64) :
    ∃ b', b.run heap ops = .ok (b', ops.map Op.answer) ∧ b'.Valid ∧ b'.held = ops.foldl addedAfter b.held := by
  induction ops generalizing b with
  | nil => exact ⟨b, rfl, hv, rfl⟩
  | cons op ops ih =>
    obtain ⟨b₁, hstep, hv₁, hheld⟩ := step_spec heap hv (h [op] (by simp))
    have hrest : ∀ pre, pre <+: ops → (pre.foldl addedAfter b₁.held).length + vastBufsiz ≤ 2 ^ 64 := by
      intro pre hpre
      rw [hheld]
      exact h (op :: pre) (by simpa using hpre)
    obtain ⟨b', hrun, hv', hheld'⟩ := ih hv₁ hrest
    refine ⟨b', ?_, hv', by rw [hheld', hheld]; rfl⟩
    simp only [run, hstep, ok_bind, hrun]
    rfl

/-- Every call of `add` returns true, nothing added is lost, and the buffer stays inside its block. What is
added at any time lies in memory, with space for one more increment. -/
theorem added_is_held (heap : Nat → UInt8) (capacity : UInt64) (ops : List Op)
    (h : ∀ pre, pre <+: ops → (added pre).length + vastBufsiz ≤ 2 ^ 64) :
    ∃ b, (ofCapacity heap capacity).run heap ops = .ok (b, ops.map Op.answer) ∧
      b.size ≤ b.bufsize ∧ b.data.capacity = b.bufsize.toNat ∧ b.data.bytes 0 b.size.toNat = added ops := by
  have hv : (ofCapacity heap capacity).Valid := ⟨rfl, by simp [ofCapacity]⟩
  obtain ⟨b, hrun, hv', hheld⟩ := run_spec heap hv h
  exact ⟨b, hrun, hv'.fits, hv'.capacity, hheld⟩

theorem added_is_held_small : ∃ obj : SteadyObject,
    obj.toSerializableObject = RecordType.ipaddr.serializable.object (⟨1, 2, 0⟩ : IPaddr) ∧
    ∃ b, (ofCapacity (fun _ => 0) 3).run (fun _ => 0) [.reserve 9, .add [1, 2, 3, 4, 5], .addObject obj] =
        .ok (b, [none, some true, some true]) ∧
      b.data.bytes 0 b.size.toNat = [1, 2, 3, 4, 5] ++ obj.bytes := by
  obtain ⟨obj, hobj, hbytes⟩ := RecordType.steady .ipaddr (⟨1, 2, 0⟩ : IPaddr)
  have hlen : obj.bytes.length = 8 := by
    rw [hbytes]
    exact RecordType.ipaddr.codec.length_encode _
  have hfit : ∀ pre, pre <+: [Op.reserve 9, .add [1, 2, 3, 4, 5], .addObject obj] →
      (added pre).length + vastBufsiz ≤ 2 ^ 64 := by
    intro pre hpre
    rw [← List.mem_inits] at hpre
    simp only [List.inits, List.map_cons, List.map_nil, List.mem_cons, List.not_mem_nil, or_false] at hpre
    rcases hpre with rfl | rfl | rfl | rfl <;> simp [added, addedAfter, vastBufsiz, hlen]
  obtain ⟨b, hrun, -, -, hheld⟩ := added_is_held (fun _ => 0) 3 _ hfit
  exact ⟨obj, hobj, b, hrun, hheld⟩

/-- The abstract buffer that this one stands for. -/
structure StandsFor (b : ExpandingBuffer) (v : VASTBuffer) : Prop where
  valid : b.Valid
  data : b.held = v.data
  bufsize : b.bufsize.toNat = v.bufsize

theorem StandsFor.add {v : VASTBuffer} {stuff : List UInt8} (hs : b.StandsFor v)
    (h : b.size.toNat + stuff.length + vastBufsiz ≤ 2 ^ 64) :
    ∃ b' v', b.add heap stuff = .ok (b', true) ∧ v.add stuff = some v' ∧ b'.StandsFor v' := by
  obtain ⟨b', hadd, hv', hheld, hbuf⟩ := add_spec heap hs.valid h
  have hlen : v.data.length = b.size.toNat := by rw [← hs.data, length_held]
  have hdata : b'.held = v.data ++ stuff := by rw [hheld, hs.data]
  by_cases hfit : v.data.length + stuff.length ≤ v.bufsize
  · refine ⟨b', _, hadd, dif_pos hfit, hv', hdata, ?_⟩
    rw [hbuf, roomy, ← hlen, hs.bufsize, if_pos hfit]
  · have hgt : ¬ v.newsize stuff.length ≤ v.bufsize := by
      have hlt := v.lt_newsize stuff.length
      omega
    refine ⟨b', ⟨v.data ++ stuff, v.newsize stuff.length, ?_⟩, hadd, ?_, hv', hdata, ?_⟩
    · rw [List.length_append]
      exact (v.lt_newsize stuff.length).le
    · rw [VASTBuffer.add, dif_neg hfit, VASTBuffer.expand, if_neg hgt]
      rfl
    · rw [hbuf, roomy, ← hlen, hs.bufsize, if_neg hfit]
      rfl

theorem StandsFor.clear {v : VASTBuffer} (hs : b.StandsFor v) : b.clear.StandsFor v.clear :=
  ⟨hs.valid.clear, rfl, hs.bufsize⟩

end ExpandingBuffer

end VastNC
