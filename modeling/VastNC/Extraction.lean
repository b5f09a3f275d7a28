import VastNC.Extract

/-! The overloads of `Message::extract`, with what they return and what they leave in the
variable of the caller. -/

namespace VastNC

structure Extracted (δ : Type) where
  ret : Nat
  msg : Message
  dest : δ

namespace Message

variable {α : Type}

/-- The four bytes at the cursor, read as an `item_size`. -/
def itemPrefix (m : Message) : Nat := LittleEndian.ofLE ((m.data.drop m.curr).take 4)

def remaining (m : Message) : Nat := m.data.length - m.curr

/-- `extract (char *, vsize_t, bool)`; `dest` is the memory at the pointer. An `itemSize` of 0
asks for an item stored with its size. -/
def extractBytes (m : Message) (itemSize : Nat) (dest : List UInt8) (fromEnd : Bool) :
    Extracted (List UInt8) :=
  if itemSize = 0 ∧ fromEnd = true then ⟨0, m, dest⟩
  else
    let (itemSize, m) :=
      if itemSize = 0 ∧ m.curr + 4 ≤ m.data.length then (m.itemPrefix, { m with curr := m.curr + 4 })
      else (itemSize, m)
    match m.extract itemSize fromEnd with
    | none => ⟨0, m, dest⟩
    | some (item, m) => ⟨itemSize, m, item ++ dest.drop itemSize⟩

/-- `extract (Serializable &, bool)`. -/
def extractRecord (m : Message) (c : FixedCodec α) (obj : α) (fromEnd : Bool) : Extracted α :=
  match m.extractAs c fromEnd with
  | none => ⟨0, m, obj⟩
  | some (a, m) => ⟨c.size, m, a⟩

/-- The overloads for one value call the first overload and return `sizeof` whatever it says. -/
def extractValue (m : Message) (c : FixedCodec α) (item : α) (fromEnd : Bool) : Extracted α :=
  let r := m.extractBytes c.size (c.encode item) fromEnd
  ⟨c.size, r.msg, c.decode r.dest⟩

def extractId (m : Message) (id : UInt64) (fromEnd : Bool) : Extracted UInt64 :=
  m.extractValue FixedCodec.u64 id fromEnd

def extractUint32 (m : Message) (item : UInt32) (fromEnd : Bool) : Extracted UInt32 :=
  m.extractValue FixedCodec.u32 item fromEnd

def extractLayer (m : Message) (item : UInt16) (fromEnd : Bool) : Extracted UInt16 :=
  m.extractValue FixedCodec.u16 item fromEnd

def extractListsize (m : Message) (size : UInt8) (fromEnd : Bool) : Extracted UInt8 :=
  m.extractValue FixedCodec.u8 size fromEnd

def extractFloat (m : Message) (item : Coord) (fromEnd : Bool) : Extracted Coord :=
  m.extractValue Coord.codec item fromEnd

/-- `VASTnet::processHandshake`; `remoteId` is what the variable holds before the call. -/
def processHandshake (m : Message) (remoteId : UInt64) : UInt64 := (m.extractId remoteId false).dest

end Message

/-- What one `extract` reads; a record is one of the `Serializable` types of a fixed size, which `Message`
is not. -/
inductive Item where
  | id
  | uint32
  | layer
  | listsize
  | float
  | bytes (itemSize : Nat)
  | record {α : Type} (c : FixedCodec α)

namespace Item

def Dest : Item → Type
  | id => UInt64
  | uint32 => UInt32
  | layer => UInt16
  | listsize => UInt8
  | float => Coord
  | bytes _ => List UInt8
  | record (α := α) _ => α

/-- The bytes behind the cursor that an item needs. -/
def needs (m : Message) : Item → Nat
  | id => 8
  | uint32 => 4
  | layer => 2
  | listsize => 1
  | float => 4
  | bytes 0 => if 4 ≤ m.remaining then 4 + m.itemPrefix else 4
  | bytes n => n
  | record c => c.size

/-- The requests whose failure shows: a record, bytes of a given size, and bytes stored with
their size where not even the size can be read or the end is asked for. -/
def Reported (m : Message) (fromEnd : Bool) : Item → Prop
  | bytes itemSize => itemSize ≠ 0 ∨ fromEnd = true ∨ m.remaining < 4
  | record _ => True
  | _ => False

end Item

namespace Message

def extractItem (m : Message) : (i : Item) → i.Dest → Bool → Extracted i.Dest
  | .id => m.extractId
  | .uint32 => m.extractUint32
  | .layer => m.extractLayer
  | .listsize => m.extractListsize
  | .float => m.extractFloat
  | .bytes itemSize => m.extractBytes itemSize
  | .record c => m.extractRecord c

variable {m : Message} {fromEnd : Bool}

theorem extract_short {n : Nat} (h : m.remaining < n) : m.extract n fromEnd = none := by
  rw [remaining] at h
  rw [extract, if_pos (by omega)]

theorem extractBytes_fixed {itemSize : Nat} (h : itemSize ≠ 0) (dest : List UInt8) :
    m.extractBytes itemSize dest fromEnd =
      match m.extract itemSize fromEnd with
      | none => ⟨0, m, dest⟩
      | some (item, m') => ⟨itemSize, m', item ++ dest.drop itemSize⟩ := by
  rw [extractBytes, if_neg (by simp [h])]
  simp only [h, false_and, if_false]

theorem extractBytes_short {itemSize : Nat} (h : m.remaining < itemSize) (dest : List UInt8) :
    m.extractBytes itemSize dest fromEnd = ⟨0, m, dest⟩ := by
  rw [extractBytes_fixed (by omega), extract_short h]

theorem extractBytes_unsized (h : m.remaining < 4) (dest : List UInt8) :
    m.extractBytes 0 dest fromEnd = ⟨0, m, dest⟩ := by
  rw [remaining] at h
  cases fromEnd with
  | true => exact if_pos ⟨rfl, rfl⟩
  | false =>
    have hsize : ¬ m.curr + 4 ≤ m.data.length := by omega
    simp only [extractBytes, hsize, and_false, if_false, extract, Bool.false_eq_true]
    by_cases hc : m.curr + 0 > m.data.length
    · rw [if_pos hc]
    · rw [if_neg hc]
      rfl

/-- The size has been read when it turns out that the bytes are missing. -/
theorem extractBytes_sized (h4 : 4 ≤ m.remaining) (h : m.remaining < 4 + m.itemPrefix)
    (dest : List UInt8) :
    m.extractBytes 0 dest false = ⟨0, { m with curr := m.curr + 4 }, dest⟩ := by
  rw [remaining] at h4 h
  have hshort : ({ m with curr := m.curr + 4 } : Message).remaining < m.itemPrefix := by
    rw [remaining]
    dsimp only
    omega
  rw [extractBytes, if_neg (by simp), if_pos ⟨rfl, by omega⟩]
  simp only [extract_short hshort]

theorem extractBytes_end (dest : List UInt8) : m.extractBytes 0 dest true = ⟨0, m, dest⟩ :=
  if_pos ⟨rfl, rfl⟩

theorem extractRecord_short {c : FixedCodec α} (h : m.remaining < c.size) (obj : α) :
    m.extractRecord c obj fromEnd = ⟨0, m, obj⟩ := by
  rw [extractRecord, extractAs, extract_short h]
  rfl

/-- The one part of the failure that stays hidden: the returned size. -/
theorem extractValue_short {c : FixedCodec α} (h : m.remaining < c.size) (item : α) :
    m.extractValue c item fromEnd = ⟨c.size, m, item⟩ := by
  rw [extractValue, extractBytes_short h]
  simp only [FixedCodec.decode_encode]

theorem extractValue_hidden {c : FixedCodec α} (hc : 0 < c.size) (h : m.remaining < c.size) (item : α) :
    ¬ m.extractValue c item fromEnd = ⟨0, m, item⟩ := by
  rw [extractValue_short h]
  intro hr
  exact Nat.ne_of_gt hc (congrArg Extracted.ret hr)

/-- Without an id in the message, the caller gets what its variable held before. -/
theorem processHandshake_short (h : m.remaining < 8) (remoteId : UInt64) :
    m.processHandshake remoteId = remoteId :=
  congrArg Extracted.dest (extractValue_short (c := FixedCodec.u64) h remoteId)

theorem extractBytes_failed_iff {itemSize : Nat} (h : m.remaining < (Item.bytes itemSize).needs m)
    (dest : List UInt8) :
    m.extractBytes itemSize dest fromEnd = ⟨0, m, dest⟩ ↔ (Item.bytes itemSize).Reported m fromEnd := by
  cases itemSize with
  | succ n => exact ⟨fun _ => .inl (Nat.succ_ne_zero n), fun _ => extractBytes_short h dest⟩
  | zero =>
    by_cases h4 : 4 ≤ m.remaining
    · have hneed : m.remaining < 4 + m.itemPrefix := by simpa [Item.needs, h4] using h
      cases fromEnd with
      | true => exact ⟨fun _ => .inr (.inl rfl), fun _ => extractBytes_end dest⟩
      | false =>
        constructor
        · intro hr
          rw [extractBytes_sized h4 hneed] at hr
          have hcurr : m.curr + 4 = m.curr := congrArg (fun r => r.msg.curr) hr
          omega
        · rintro (hr | hr | hr)
          · exact absurd rfl hr
          · cases hr
          · omega
    · exact ⟨fun _ => .inr (.inr (Nat.lt_of_not_le h4)),
        fun _ => extractBytes_unsized (Nat.lt_of_not_le h4) dest⟩

/-- A failed extraction returns 0 and changes nothing exactly for the requests that report it. -/
theorem failed_extraction_iff (m : Message) (i : Item) (dest : i.Dest) (fromEnd : Bool) :
    (m.remaining < i.needs m → m.extractItem i dest fromEnd = ⟨0, m, dest⟩) ↔
      (m.remaining < i.needs m → i.Reported m fromEnd) := by
  refine forall_congr' fun h => ?_
  cases i with
  | id => exact iff_of_false (extractValue_hidden (by decide) h dest) id
  | uint32 => exact iff_of_false (extractValue_hidden (by decide) h dest) id
  | layer => exact iff_of_false (extractValue_hidden (by decide) h dest) id
  | listsize => exact iff_of_false (extractValue_hidden (by decide) h dest) id
  | float => exact iff_of_false (extractValue_hidden (by decide) h dest) id
  | bytes itemSize => exact extractBytes_failed_iff h dest
  | record c => exact ⟨fun _ => trivial, fun _ => extractRecord_short h dest⟩

/-- An empty handshake: the id of the remote host is whatever its variable held. -/
theorem failed_extraction_handshake :
    ({ msgtype := 0 } : Message).remaining < Item.id.needs { msgtype := 0 } ∧
      ({ msgtype := 0 } : Message).extractItem .id (0xDEADBEEF : UInt64) false =
        ⟨8, { msgtype := 0 }, (0xDEADBEEF : UInt64)⟩ ∧
      ({ msgtype := 0 } : Message).extractItem .id (0xDEADBEEF : UInt64) false ≠
        ⟨0, { msgtype := 0 }, (0xDEADBEEF : UInt64)⟩ := by
  have h : ({ msgtype := 0 } : Message).remaining < 8 := by decide
  exact ⟨h, extractValue_short h _, extractValue_hidden (by decide) h _⟩

end Message

end VastNC
