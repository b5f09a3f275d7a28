import VastNC.ParserSafety

/-! `Vast::Message`: the overlay's own message, its buffer and its wire form. The count of
targets is one byte on the wire. -/

namespace VastNC

open LittleEndian

/-- Ids in a row are different. -/
theorem nodup_ofNat_range {count : Nat} (first : Nat) (h : count + first ≤ 2 ^ 64) :
    ((List.range count).map fun i => UInt64.ofNat (i + first)).Nodup := by
  refine List.Nodup.map_on (fun x hx y hy hxy => ?_) List.nodup_range
  have hx' := List.mem_range.mp hx
  have hy' := List.mem_range.mp hy
  have hn := congrArg UInt64.toNat hxy
  rw [UInt64.toNat_ofNat', UInt64.toNat_ofNat', Nat.mod_eq_of_lt (by omega), Nat.mod_eq_of_lt (by omega)] at hn
  exact Nat.add_right_cancel hn

def vastMsgsiz : Nat := 1024

/-- `data` is the valid part of the buffer, so its length is the field `size`; `capacity` is
the length of the allocated block. -/
structure Message where
  fromId : UInt64 := 0
  msgtype : UInt16
  msggroup : UInt8 := 0
  priority : UInt8 := 3
  reliable : Bool := true
  targets : List UInt64 := []
  data : List UInt8 := []
  curr : Nat := 0
  alloc : Bool := true
  free : Nat := vastMsgsiz
  capacity : Nat := vastMsgsiz
  deriving DecidableEq, Repr

namespace Message

def clear (m : Message) (type : UInt16) (sender : UInt64 := 0) (priority : UInt8 := 3) : Message :=
  { m with
    fromId := sender, targets := [], msgtype := type, reliable := true, priority, alloc := true
    curr := 0, free := m.free + m.data.length, data := [], msggroup := 0 }

def expand (m : Message) (len : Nat) : Message :=
  if len ≤ m.free then m
  else
    let newsize := ((m.data.length + len) / vastMsgsiz + 1) * vastMsgsiz
    { m with free := newsize - m.data.length, capacity := newsize }

def addSize (m : Message) (item : List UInt8) : Message :=
  { m with data := m.data ++ item, curr := m.curr + item.length, free := m.free - item.length }

def store (m : Message) (item : List UInt8) (recordSize : Bool := false) : Option Message :=
  if m.alloc = false then none
  else
    let m := m.expand (if recordSize then item.length + 4 else item.length)
    let m := { m with curr := m.data.length }
    let m := if recordSize then m.addSize (toLE 4 item.length) else m
    some (m.addSize item)

def addTarget (m : Message) (target : UInt64) : Message :=
  if target ∈ m.targets then m else { m with targets := m.targets ++ [target] }

def contentEquals (m other : Message) : Bool :=
  m.fromId == other.fromId && m.msgtype == other.msgtype && m.msggroup == other.msggroup &&
    m.reliable == other.reliable && m.priority == other.priority && m.data == other.data &&
    m.targets == other.targets

/-- `sizeof` of sender, size, type, group, priority, reliability and target count. -/
def headerSize : Nat := 8 + 4 + 2 + 1 + 1 + 1 + 1

def sizeOf (m : Message) : Nat := headerSize + 8 * m.targets.length + m.data.length

def headerBytes (m : Message) : List UInt8 :=
  toLE 8 m.fromId.toNat ++ toLE 4 m.data.length ++ toLE 2 m.msgtype.toNat ++
    [m.msggroup, m.priority, if m.reliable then 1 else 0]

/-- The count is cast to a byte; the loop writes every target. -/
def serialize (m : Message) : List UInt8 :=
  m.headerBytes ++ [UInt8.ofNat m.targets.length] ++ m.targets.flatMap (fun t => toLE 8 t.toNat) ++
    m.data

structure Restored where
  ret : Nat
  msg : Message
  trace : List Access

def headerReads : List Access :=
  [.read 0 8, .read 8 4, .read 12 2, .read 14 1, .read 15 1, .read 16 1, .read 17 1]

def readTargets (buf : Nat → UInt8) (count : Nat) : List UInt64 :=
  (List.range count).map (fun i => readU64 buf (headerSize + 8 * i))

def deserialize (m : Message) (buf : Nat → UInt8) (size : Nat) : Restored :=
  if size < headerSize then ⟨0, m.clear 0, []⟩
  else
    let sizeRestored := ofLE (window buf 8 4)
    let m : Message :=
      { m.clear 0 with
        fromId := readU64 buf 0, msgtype := UInt16.ofNat (ofLE (window buf 12 2))
        msggroup := buf 14, priority := buf 15, reliable := buf 16 != 0 }
    let numTargets := (buf 17).toNat
    if size - headerSize < numTargets * 8 + sizeRestored then ⟨0, m, headerReads⟩
    else
      let p := headerSize + 8 * numTargets
      let m := { m with targets := m.targets ++ readTargets buf numTargets }
      let trace := headerReads ++
        (List.range numTargets).map (fun i => Access.read (headerSize + 8 * i) 8) ++
        [.read p sizeRestored]
      match m.store (window buf p sizeRestored) with
      | none => ⟨0, m, trace⟩
      | some m => ⟨sizeRestored + headerSize, { m with curr := 0 }, trace⟩

theorem contentEquals_iff {m other : Message} : m.contentEquals other = true ↔
    m.fromId = other.fromId ∧ m.msgtype = other.msgtype ∧ m.msggroup = other.msggroup ∧
      m.reliable = other.reliable ∧ m.priority = other.priority ∧ m.data = other.data ∧
      m.targets = other.targets := by
  simp only [contentEquals, Bool.and_eq_true, beq_iff_eq, and_assoc]

@[simp] theorem length_headerBytes (m : Message) : m.headerBytes.length = 17 := by
  simp [headerBytes]

theorem length_flatMap_toLE (ts : List UInt64) :
    (ts.flatMap (fun t => toLE 8 t.toNat)).length = 8 * ts.length := by
  induction ts with
  | nil => rfl
  | cons t ts ih =>
    rw [List.flatMap_cons, List.length_append, length_toLE, ih, List.length_cons]
    omega

theorem length_serialize (m : Message) : m.serialize.length = m.sizeOf := by
  simp only [serialize, List.length_append, length_headerBytes, List.length_singleton,
    length_flatMap_toLE, sizeOf, headerSize]

theorem expand_eq (m : Message) (len : Nat) :
    ∃ free capacity, m.expand len = { m with free, capacity } := by
  rw [expand]
  split
  · exact ⟨m.free, m.capacity, rfl⟩
  · exact ⟨_, _, rfl⟩

theorem store_eq {m : Message} (h : m.alloc = true) (item : List UInt8) :
    ∃ free capacity, m.store item = some { m with
      data := m.data ++ item, curr := m.data.length + item.length, free, capacity } := by
  have hn : ¬ m.alloc = false := by simp [h]
  obtain ⟨free, capacity, he⟩ := expand_eq m item.length
  simp only [store, hn, if_false, Bool.false_eq_true, he]
  exact ⟨_, _, rfl⟩

section Deserialize

variable (buf : Nat → UInt8) (size : Nat) (m : Message)

def announced : Nat := headerSize + 8 * (buf 17).toNat + ofLE (window buf 8 4)

/-- What an accepted buffer restores, apart from the bookkeeping of the buffer. -/
structure Restores (r : Message) : Prop where
  fromId : r.fromId = readU64 buf 0
  msgtype : r.msgtype = UInt16.ofNat (ofLE (window buf 12 2))
  msggroup : r.msggroup = buf 14
  priority : r.priority = buf 15
  reliable : r.reliable = (buf 16 != 0)
  targets : r.targets = readTargets buf (buf 17).toNat
  data : r.data = window buf (headerSize + 8 * (buf 17).toNat) (ofLE (window buf 8 4))
  curr : r.curr = 0

variable {buf size}

theorem deserialize_accepted (h : announced buf ≤ size) :
    (m.deserialize buf size).ret = headerSize + ofLE (window buf 8 4) ∧
      Restores buf (m.deserialize buf size).msg ∧
      (m.deserialize buf size).trace = headerReads ++
        (List.range (buf 17).toNat).map (fun i => Access.read (headerSize + 8 * i) 8) ++
        [.read (headerSize + 8 * (buf 17).toNat) (ofLE (window buf 8 4))] := by
  simp only [announced] at h
  have h1 : ¬ size < headerSize := by omega
  have h2 : ¬ size - headerSize < (buf 17).toNat * 8 + ofLE (window buf 8 4) := by omega
  obtain ⟨free, capacity, hs⟩ := store_eq (m := { m.clear 0 with
    fromId := readU64 buf 0, msgtype := UInt16.ofNat (ofLE (window buf 12 2))
    msggroup := buf 14, priority := buf 15, reliable := buf 16 != 0
    targets := readTargets buf (buf 17).toNat }) rfl
    (window buf (headerSize + 8 * (buf 17).toNat) (ofLE (window buf 8 4)))
  have ht : (m.clear 0).targets = [] := rfl
  simp only [deserialize, h1, h2, if_false, ht, List.nil_append, hs]
  exact ⟨Nat.add_comm _ _, ⟨rfl, rfl, rfl, rfl, rfl, rfl, rfl, rfl⟩, trivial⟩

theorem deserialize_rejected (h : size < announced buf) :
    (m.deserialize buf size).ret = 0 ∧ (m.deserialize buf size).msg.targets = [] ∧
      ((m.deserialize buf size).trace = [] ∨
        headerSize ≤ size ∧ (m.deserialize buf size).trace = headerReads) := by
  simp only [announced] at h
  rw [deserialize]
  split
  · exact ⟨rfl, rfl, .inl rfl⟩
  · have h2 : size - headerSize < (buf 17).toNat * 8 + ofLE (window buf 8 4) := by omega
    dsimp only
    rw [if_pos h2]
    exact ⟨rfl, rfl, .inr ⟨by omega, rfl⟩⟩

theorem headerReads_within (h : headerSize ≤ size) : ∀ a ∈ headerReads, a.Within size := by
  intro a ha
  simp only [headerSize] at h
  simp only [headerReads, List.mem_cons, List.not_mem_nil, or_false] at ha
  rcases ha with rfl | rfl | rfl | rfl | rfl | rfl | rfl
  all_goals exact Access.read_within (by omega)

theorem deserialize_within : ∀ a ∈ (m.deserialize buf size).trace, a.Within size := by
  by_cases h : announced buf ≤ size
  · obtain ⟨-, -, htrace⟩ := deserialize_accepted m h
    simp only [announced] at h
    rw [htrace]
    intro a ha
    rcases List.mem_append.mp ha with ha | ha
    · rcases List.mem_append.mp ha with ha | ha
      · exact headerReads_within (by omega) a ha
      · obtain ⟨i, hi, rfl⟩ := List.mem_map.mp ha
        have hlt := List.mem_range.mp hi
        exact Access.read_within (by omega)
    · rw [List.mem_singleton.mp ha]
      exact Access.read_within (by omega)
  · obtain ⟨-, -, htrace | ⟨hs, htrace⟩⟩ := deserialize_rejected m (Nat.lt_of_not_le h)
    · simp [htrace]
    · rw [htrace]
      exact headerReads_within hs

end Deserialize

theorem window_one (buf : Nat → UInt8) (off : Nat) : window buf off 1 = [buf off] := rfl

theorem toLE_readU64 (buf : Nat → UInt8) (off : Nat) :
    toLE 8 (readU64 buf off).toNat = window buf off 8 := by
  rw [readU64, UInt64.toNat_ofNat', toLE_ofLE_mod (m := 2 ^ 64) (by simp) rfl]

theorem flatMap_readTargets (buf : Nat → UInt8) (count : Nat) :
    (readTargets buf count).flatMap (fun t => toLE 8 t.toNat) = window buf headerSize (8 * count) := by
  induction count with
  | zero => rfl
  | succ count ih =>
    rw [readTargets, List.range_succ, List.map_append, List.flatMap_append, ← readTargets, ih,
      Nat.mul_succ, window_add]
    simp only [List.map_cons, List.map_nil, List.flatMap_cons, List.flatMap_nil, List.append_nil,
      toLE_readU64]

@[simp] theorem length_readTargets (buf : Nat → UInt8) (count : Nat) :
    (readTargets buf count).length = count := by simp [readTargets]

theorem Restores.headerBytes {buf : Nat → UInt8} {r : Message} (h : Restores buf r)
    (hb : buf 16 = 0 ∨ buf 16 = 1) : r.headerBytes = window buf 0 17 := by
  have hr : (if r.reliable then 1 else 0) = buf 16 := by
    rcases hb with hb | hb <;> rw [h.reliable, hb] <;> rfl
  have hw : window buf 0 17 = window buf 0 8 ++ window buf 8 4 ++ window buf 12 2 ++
      [buf 14, buf 15, buf 16] := by
    rw [show 17 = 8 + 4 + 2 + 3 from rfl, window_add, window_add, window_add]
    rfl
  have hd : toLE 4 r.data.length = window buf 8 4 := by
    rw [h.data, length_window]
    have hh := toLE_ofLE (window buf 8 4)
    rwa [length_window] at hh
  have ht : toLE 2 r.msgtype.toNat = window buf 12 2 := by
    rw [h.msgtype, UInt16.toNat_ofNat', toLE_ofLE_mod (m := 2 ^ 16) (by simp) rfl]
  rw [Message.headerBytes, hw, hr, hd, ht, h.fromId, toLE_readU64, h.msggroup, h.priority]

theorem Restores.serialize {buf : Nat → UInt8} {r : Message} (h : Restores buf r)
    (hb : buf 16 = 0 ∨ buf 16 = 1) : r.serialize = window buf 0 (announced buf) := by
  have hc : UInt8.ofNat r.targets.length = buf 17 := by
    rw [h.targets, length_readTargets, UInt8.ofNat_toNat]
  have hw : window buf 0 (announced buf) = window buf 0 17 ++ [buf 17] ++
      window buf headerSize (8 * (buf 17).toNat) ++
      window buf (headerSize + 8 * (buf 17).toNat) (ofLE (window buf 8 4)) := by
    rw [announced, window_add, window_add, show headerSize = 17 + 1 from rfl, window_add]
    simp only [Nat.zero_add, window_one]
  rw [Message.serialize, h.headerBytes hb, hc, h.targets, flatMap_readTargets, h.data, hw]

/-- `deserialize` stays inside the buffer, accepts exactly the buffers that hold what the header
announces, and `serialize` writes back what it has read. -/
theorem deserialize_accepts_format (m : Message) (buf : Nat → UInt8) (size : Nat) :
    (∀ a ∈ (m.deserialize buf size).trace, a.Within size) ∧
    ((m.deserialize buf size).ret ≠ 0 ↔ 18 + 8 * (buf 17).toNat + ofLE (window buf 8 4) ≤ size) ∧
    ((m.deserialize buf size).ret ≠ 0 →
      (m.deserialize buf size).ret = 18 + ofLE (window buf 8 4) ∧
      (m.deserialize buf size).msg.curr = 0 ∧
      (m.deserialize buf size).msg.data =
        window buf (18 + 8 * (buf 17).toNat) (ofLE (window buf 8 4)) ∧
      (buf 16 = 0 ∨ buf 16 = 1 → (m.deserialize buf size).msg.serialize =
        window buf 0 (18 + 8 * (buf 17).toNat + ofLE (window buf 8 4)))) := by
  refine ⟨deserialize_within m, ?_⟩
  by_cases h : announced buf ≤ size
  · obtain ⟨hret, hr, -⟩ := deserialize_accepted m h
    refine ⟨⟨fun _ => h, fun _ => ?_⟩, fun _ => ⟨hret, hr.curr, hr.data, hr.serialize⟩⟩
    rw [hret, headerSize]
    omega
  · obtain ⟨hret, -, -⟩ := deserialize_rejected m (Nat.lt_of_not_le h)
    exact ⟨⟨fun hn => absurd hret hn, fun hle => absurd hle h⟩, fun hn => absurd hret hn⟩

section RoundTrip

variable {buf : Nat → UInt8} {m : Message}

theorem readU64_of_window {off : Nat} {t : UInt64} (h : window buf off 8 = toLE 8 t.toNat) :
    readU64 buf off = t := by
  have ht : ofLE (toLE 8 t.toNat) = t.toNat := ofLE_toLE_of_lt t.toNat_lt
  rw [readU64, h, ht, UInt64.ofNat_toNat]

theorem map_readU64 {off : Nat} {ts : List UInt64}
    (h : window buf off (8 * ts.length) = ts.flatMap (fun t => toLE 8 t.toNat)) :
    (List.range ts.length).map (fun i => readU64 buf (off + 8 * i)) = ts := by
  induction ts generalizing off with
  | nil => rfl
  | cons t ts ih =>
    rw [List.length_cons, Nat.mul_succ, Nat.add_comm, window_add, List.flatMap_cons] at h
    obtain ⟨hhead, htail⟩ := List.append_inj h (by simp)
    have hfirst : readU64 buf (off + 8 * 0) = t := readU64_of_window hhead
    have hrest : (List.range ts.length).map ((fun i => readU64 buf (off + 8 * i)) ∘ Nat.succ) = ts := by
      rw [← ih htail, List.length_map, List.length_range]
      apply List.map_congr_left
      intro i _
      simp only [Function.comp_apply, Nat.mul_succ, Nat.add_comm (8 * i) 8, Nat.add_assoc]
    rw [List.length_cons, List.range_succ_eq_map, List.map_cons, List.map_map, hfirst, hrest]

structure Holds (buf : Nat → UInt8) (m : Message) : Prop where
  bytes : window buf 0 m.serialize.length = m.serialize

theorem Holds.of_memOf (m : Message) : Holds (memOf m.serialize) m := ⟨window_memOf _⟩

namespace Holds

theorem header (h : Holds buf m) : window buf 0 17 = m.headerBytes := by
  have hs : m.serialize = [] ++ m.headerBytes ++ ([UInt8.ofNat m.targets.length] ++
      m.targets.flatMap (fun t => toLE 8 t.toNat) ++ m.data) := by simp [serialize]
  exact window_slice h.bytes hs rfl (by simp)

theorem count (h : Holds buf m) : buf 17 = UInt8.ofNat m.targets.length := by
  have hs : m.serialize = m.headerBytes ++ [UInt8.ofNat m.targets.length] ++
      (m.targets.flatMap (fun t => toLE 8 t.toNat) ++ m.data) := by simp [serialize]
  have hw : window buf 17 1 = [UInt8.ofNat m.targets.length] :=
    window_slice h.bytes hs (by simp) rfl
  rw [window_one] at hw
  exact List.head_eq_of_cons_eq hw

theorem targets (h : Holds buf m) : window buf headerSize (8 * m.targets.length) =
    m.targets.flatMap (fun t => toLE 8 t.toNat) :=
  window_slice h.bytes rfl (by simp [headerSize]) (length_flatMap_toLE _)

theorem data (h : Holds buf m) :
    window buf (headerSize + 8 * m.targets.length) m.data.length = m.data := by
  have hs : m.serialize = m.headerBytes ++ [UInt8.ofNat m.targets.length] ++
      m.targets.flatMap (fun t => toLE 8 t.toNat) ++ m.data ++ [] := by rw [serialize, List.append_nil]
  refine window_slice h.bytes hs ?_ rfl
  rw [List.length_append, length_flatMap_toLE, List.length_append, length_headerBytes]
  rfl

theorem headerBytes_window (h : Holds buf m) :
    window buf 0 m.headerBytes.length = m.headerBytes := by
  rw [length_headerBytes, h.header]

theorem size (h : Holds buf m) (hm : m.data.length < 2 ^ 32) : ofLE (window buf 8 4) = m.data.length := by
  have hs : m.headerBytes = toLE 8 m.fromId.toNat ++ toLE 4 m.data.length ++
      (toLE 2 m.msgtype.toNat ++ [m.msggroup, m.priority, if m.reliable then 1 else 0]) := by
    simp [headerBytes]
  have hw : window buf 8 4 = toLE 4 m.data.length :=
    window_slice h.headerBytes_window hs (by simp) (by simp)
  rw [hw, ofLE_toLE_of_lt (by simpa using hm)]

theorem restores_header (h : Holds buf m) {r : Message} (hr : Restores buf r) :
    r.fromId = m.fromId ∧ r.msgtype = m.msgtype ∧ r.msggroup = m.msggroup ∧
      r.reliable = m.reliable ∧ r.priority = m.priority := by
  have hs : m.headerBytes = [] ++ toLE 8 m.fromId.toNat ++ (toLE 4 m.data.length ++
      toLE 2 m.msgtype.toNat ++ [m.msggroup, m.priority, if m.reliable then 1 else 0]) := by
    simp [headerBytes]
  have h0 : window buf 0 8 = toLE 8 m.fromId.toNat :=
    window_slice h.headerBytes_window hs rfl (by simp)
  have h12 : window buf 12 2 = toLE 2 m.msgtype.toNat :=
    window_slice h.headerBytes_window rfl (by simp) (by simp)
  have h14 : window buf 14 3 = [m.msggroup, m.priority, if m.reliable then 1 else 0] :=
    window_slice h.headerBytes_window (List.append_nil _).symm (by simp) rfl
  have hty : ofLE (toLE 2 m.msgtype.toNat) = m.msgtype.toNat := ofLE_toLE_of_lt m.msgtype.toNat_lt
  have hw : window buf 14 3 = [buf 14, buf 15, buf 16] := rfl
  rw [hw] at h14
  injection h14 with h14 ht
  injection ht with h15 ht
  injection ht with h16 _
  refine ⟨by rw [hr.fromId, readU64_of_window h0], ?_, by rw [hr.msggroup, h14], ?_,
    by rw [hr.priority, h15]⟩
  · rw [hr.msgtype, h12, hty, UInt16.ofNat_toNat]
  · rw [hr.reliable, h16]
    cases m.reliable <;> rfl

theorem announced_eq (h : Holds buf m) (hm : m.data.length < 2 ^ 32) (ht : m.targets.length ≤ 255) :
    (buf 17).toNat = m.targets.length ∧ announced buf = m.serialize.length := by
  have hc : (buf 17).toNat = m.targets.length := by
    rw [h.count, UInt8.toNat_ofNat', Nat.mod_eq_of_lt (by omega)]
  exact ⟨hc, by rw [announced, hc, h.size hm, length_serialize, sizeOf]⟩

theorem deserialize_contentEquals (h : Holds buf m) (hm : m.data.length < 2 ^ 32)
    (ht : m.targets.length ≤ 255) (fresh : Message) :
    ((fresh.deserialize buf m.serialize.length).msg.contentEquals m) = true := by
  obtain ⟨hc, ha⟩ := h.announced_eq hm ht
  obtain ⟨-, hr, -⟩ := deserialize_accepted fresh ha.le
  obtain ⟨hf, hty, hg, hre, hp⟩ := h.restores_header hr
  rw [contentEquals_iff]
  refine ⟨hf, hty, hg, hre, hp, ?_, ?_⟩
  · rw [hr.data, hc, h.size hm, h.data]
  · rw [hr.targets, hc, readTargets, map_readU64 h.targets]

end Holds

theorem length_targets_deserialize_lt (fresh : Message) (buf : Nat → UInt8) (size : Nat) :
    (fresh.deserialize buf size).msg.targets.length < 256 := by
  by_cases h : announced buf ≤ size
  · obtain ⟨-, hr, -⟩ := deserialize_accepted fresh h
    rw [hr.targets, length_readTargets]
    exact (buf 17).toNat_lt
  · obtain ⟨-, ht, -⟩ := deserialize_rejected fresh (Nat.lt_of_not_le h)
    simp [ht]

/-- The restored message has the content of the serialized one exactly when the number of
targets fits into its byte. -/
theorem deserialize_serialize_iff (h : Holds buf m) (hm : m.data.length < 2 ^ 32) (type : UInt16) :
    (({ msgtype := type } : Message).deserialize buf m.serialize.length).msg.contentEquals m = true ↔
      m.targets.length ≤ 255 := by
  refine ⟨fun he => ?_, fun ht => h.deserialize_contentEquals hm ht _⟩
  obtain ⟨-, -, -, -, -, -, ht⟩ := contentEquals_iff.mp he
  have hlt := length_targets_deserialize_lt { msgtype := type } buf m.serialize.length
  rw [ht] at hlt
  omega

end RoundTrip

def addressed (count : Nat) : Message :=
  ((List.range count).map UInt64.ofNat).foldl addTarget { msgtype := 7, fromId := 5, data := [1, 0, 2] }

theorem foldl_addTarget {m : Message} {ids : List UInt64} (h : (m.targets ++ ids).Nodup) :
    (ids.foldl addTarget m).targets = m.targets ++ ids := by
  induction ids generalizing m with
  | nil => rw [List.foldl_nil, List.append_nil]
  | cons id ids ih =>
    have hid : id ∉ m.targets := by
      intro hm
      exact (List.nodup_append'.mp h).2.2 hm List.mem_cons_self
    have hadd : (m.addTarget id).targets = m.targets ++ [id] := by rw [addTarget, if_neg hid]
    have hap : m.targets ++ [id] ++ ids = m.targets ++ id :: ids := List.append_cons .. |>.symm
    rw [List.foldl_cons, ih (by rwa [hadd, hap]), hadd, hap]

theorem length_targets_addressed {count : Nat} (h : count ≤ 2 ^ 64) :
    (addressed count).targets.length = count := by
  have hnd : ((List.range count).map UInt64.ofNat).Nodup := nodup_ofNat_range 0 h
  rw [addressed, foldl_addTarget (by simpa using hnd)]
  simp

theorem deserialize_serialize_three : (addressed 3).targets = [0, 1, 2] ∧
    (({ msgtype := 0 } : Message).deserialize (memOf (addressed 3).serialize)
      (addressed 3).serialize.length).msg.contentEquals (addressed 3) = true :=
  ⟨by decide, (deserialize_serialize_iff (Holds.of_memOf _) (by decide) 0).mpr (by decide)⟩

/-- 256 targets: the byte that counts them is 0, and none is read back. -/
theorem deserialize_serialize_loses_targets :
    (addressed 256).targets.length = 256 ∧
      (({ msgtype := 0 } : Message).deserialize (memOf (addressed 256).serialize)
        (addressed 256).serialize.length).msg.contentEquals (addressed 256) = false := by
  have hl := length_targets_addressed (show 256 ≤ 2 ^ 64 by decide)
  refine ⟨hl, Bool.eq_false_iff.mpr (fun he => ?_)⟩
  obtain ⟨-, -, -, -, -, -, ht⟩ := contentEquals_iff.mp he
  have hlt := length_targets_deserialize_lt { msgtype := 0 } (memOf (addressed 256).serialize)
    (addressed 256).serialize.length
  rw [ht, hl] at hlt
  omega

end Message

end VastNC
