import VastNC.Serializable
import VastNC.Extraction

/-! The buffer of a `Message` in memory: the block that `data` points to, the valid bytes at its
start, the cursor and the count of free bytes. What it holds is a `Message`. -/

namespace VastNC

open LittleEndian

/-- `heap` is what newly allocated memory holds. -/
structure MessageBuffer where
  block : Block
  size : Nat
  curr : Nat
  free : Nat
  alloc : Bool
  heap : Nat → UInt8

namespace MessageBuffer

variable {α : Type}

/-- The constructor of an empty message. -/
def empty (heap : Nat → UInt8) : MessageBuffer where
  block := ⟨vastMsgsiz, heap⟩
  size := 0
  curr := 0
  free := vastMsgsiz
  alloc := true
  heap := heap

/-- The constructors that copy a bytestring. -/
def ofBytes (heap : Nat → UInt8) (msg : List UInt8) : Except Overrun MessageBuffer := do
  let block ← (Block.mk msg.length heap).copy 0 msg
  return { block, size := msg.length, curr := 0, free := 0, alloc := true, heap }

/-- The copy constructor. -/
def copied (m : MessageBuffer) : Except Overrun MessageBuffer := do
  let bytes ← m.block.load 0 m.size
  let block ← (Block.mk (m.size + m.free) m.heap).copy 0 bytes
  return { m with block }

/-- What `operator=` makes of the message on its left. -/
def assigned (m : MessageBuffer) : Except Overrun MessageBuffer := do
  let bytes ← m.block.load 0 m.size
  let block ← (Block.mk (m.size + m.free) m.heap).copy 0 bytes
  return { m with block, curr := 0 }

def expand (m : MessageBuffer) (len : Nat) : Except Overrun MessageBuffer :=
  if len ≤ m.free then return m
  else do
    let newsize := ((m.size + len) / vastMsgsiz + 1) * vastMsgsiz
    let bytes ← m.block.load 0 m.size
    let temp ← (Block.mk newsize m.heap).copy 0 bytes
    return { m with free := newsize - m.size, block := temp }

def reset (m : MessageBuffer) : MessageBuffer := { m with curr := 0 }

def clear (m : MessageBuffer) : MessageBuffer :=
  { m with alloc := true, curr := 0, free := m.free + m.size, size := 0 }

def addSize (m : MessageBuffer) (itemSize : Nat) : MessageBuffer :=
  { m with curr := m.curr + itemSize, free := m.free - itemSize, size := m.size + itemSize }

/-- `memcpy` to the cursor, with the size adjusted. -/
def append (m : MessageBuffer) (bs : List UInt8) : Except Overrun MessageBuffer := do
  let block ← m.block.copy m.curr bs
  return { m with block }.addSize bs.length

/-- `store (const char *, vsize_t, bool)`. -/
def storeBytes (m : MessageBuffer) (item : List UInt8) (recordSize : Bool) :
    Except Overrun (MessageBuffer × Bool) :=
  if m.alloc = false then return (m, false)
  else do
    let m ← m.expand (if recordSize then item.length + 4 else item.length)
    let m := { m with curr := m.size }
    let m ← (if recordSize then m.append (toLE 4 item.length) else pure m)
    let m ← m.append item
    return (m, true)

/-- `store (const Serializable &)`. -/
def storeRecord (m : MessageBuffer) (s : Serializable α) (obj : α) : Except Overrun (MessageBuffer × Bool) := do
  let itemSize := s.sizeOf obj
  let m ← m.expand itemSize
  let m := { m with curr := m.size }
  let (block, written) ← s.serializeAt obj m.block m.curr
  if written ≠ itemSize then return ({ m with block }, false)
  else return ({ m with block }.addSize itemSize, true)

/-- The part of `extract` behind the item size. -/
def copyOut (m : MessageBuffer) (itemSize : Nat) (fromEnd : Bool) :
    Except Overrun (MessageBuffer × Nat × List UInt8) :=
  if m.curr + itemSize > m.size then return (m, 0, [])
  else if fromEnd then do
    let bytes ← m.block.load (m.size - itemSize) itemSize
    return ({ m with size := m.size - itemSize }, itemSize, bytes)
  else do
    let bytes ← m.block.load m.curr itemSize
    return ({ m with curr := m.curr + itemSize }, itemSize, bytes)

/-- `extract (char *, vsize_t, bool)`: the size returned and the bytes copied to the pointer. -/
def extractBytes (m : MessageBuffer) (itemSize : Nat) (fromEnd : Bool) :
    Except Overrun (MessageBuffer × Nat × List UInt8) :=
  if itemSize = 0 ∧ fromEnd = true then return (m, 0, [])
  else if itemSize = 0 ∧ m.curr + 4 ≤ m.size then do
    let bytes ← m.block.load m.curr 4
    { m with curr := m.curr + 4 }.copyOut (ofLE bytes) fromEnd
  else m.copyOut itemSize fromEnd

/-- `extract (Serializable &, bool)`; the cursor is put back where the end is read. -/
def extractRecord (m : MessageBuffer) (s : Serializable α) (obj : α) (fromEnd : Bool) :
    Except Overrun (MessageBuffer × Nat × α) :=
  let itemSize := s.sizeOf obj
  if m.curr + itemSize > m.size then return (m, 0, obj)
  else do
    let temp := m.curr
    let m := if fromEnd then { m with curr := m.size - itemSize } else m
    let (obj, restored) ← s.deserializeAt obj m.block m.curr itemSize
    if restored = 0 then return (m, 0, obj)
    else
      let m := { m with curr := m.curr + itemSize }
      return (if fromEnd then { m with curr := temp, size := m.size - itemSize } else m, itemSize, obj)

/-- The valid bytes. -/
def content (m : MessageBuffer) : List UInt8 := m.block.bytes 0 m.size

/-- What the buffer holds, in a message that is otherwise cleared. -/
def toMessage (m : MessageBuffer) : Message :=
  { msgtype := 0, data := m.content, curr := m.curr, alloc := m.alloc, free := m.free
    capacity := m.block.capacity }

/-- The message owns its block; the cursor is in the valid bytes, and these and the free ones are
in the block. -/
structure Disciplined (m : MessageBuffer) : Prop where
  alloc : m.alloc = true
  curr : m.curr ≤ m.size
  room : m.size + m.free ≤ m.block.capacity

variable {m : MessageBuffer} {len : Nat} {bs : List UInt8}

@[simp] theorem length_content (m : MessageBuffer) : m.content.length = m.size := Block.length_bytes _ _ _

theorem disciplined_empty (heap : Nat → UInt8) : (empty heap).Disciplined := ⟨rfl, le_rfl, by simp [empty]⟩

/-- A newly allocated block takes the bytes that it is allocated for. -/
theorem copied_bytes {capacity : Nat} (heap : Nat → UInt8) (bs : List UInt8) (h : bs.length ≤ capacity) :
    ∃ block, (Block.mk capacity heap).copy 0 bs = .ok block ∧ block.capacity = capacity ∧
      block.bytes 0 bs.length = bs := by
  refine ⟨_, Block.copy_ok ?_, rfl, ?_⟩
  · show 0 + bs.length ≤ capacity
    omega
  · apply Block.bytes_patch_self

theorem ofBytes_ok (heap : Nat → UInt8) (msg : List UInt8) :
    ∃ m, ofBytes heap msg = .ok m ∧ m.Disciplined ∧ m.content = msg := by
  obtain ⟨block, hcopy, hcap, hbytes⟩ := copied_bytes heap msg le_rfl
  rw [ofBytes, hcopy, Block.ok_bind]
  exact ⟨_, rfl, ⟨rfl, Nat.zero_le _, hcap.ge⟩, hbytes⟩

theorem Disciplined.load_content (h : m.Disciplined) : m.block.load 0 m.size = .ok m.content := by
  have hroom := h.room
  exact Block.load_ok (by omega)

/-- The copy of the valid bytes into a block that is large enough. -/
theorem moved_content {capacity : Nat} (hc : m.size ≤ capacity) :
    ∃ block, (Block.mk capacity m.heap).copy 0 m.content = .ok block ∧ block.capacity = capacity ∧
      block.bytes 0 m.size = m.content := by
  have hmove := copied_bytes m.heap m.content (by simpa using hc)
  rwa [length_content] at hmove

theorem Disciplined.expand (h : m.Disciplined) (len : Nat) :
    ∃ m', m.expand len = .ok m' ∧ m'.Disciplined ∧ m'.toMessage = m.toMessage.expand len ∧ len ≤ m'.free := by
  rw [MessageBuffer.expand, Message.expand]
  by_cases hle : len ≤ m.free
  · rw [if_pos hle, if_pos (show len ≤ m.toMessage.free from hle)]
    exact ⟨m, rfl, h, rfl, hle⟩
  · have hsize : m.toMessage.data.length = m.size := m.length_content
    have hpos : m.size + len < ((m.size + len) / vastMsgsiz + 1) * vastMsgsiz := by
      rw [vastMsgsiz]
      omega
    rw [if_neg hle, if_neg (show ¬ len ≤ m.toMessage.free from hle), h.load_content, Block.ok_bind, hsize]
    generalize ((m.size + len) / vastMsgsiz + 1) * vastMsgsiz = newsize at hpos
    obtain ⟨block, hcopy, hcap, hbytes⟩ := moved_content (show m.size ≤ newsize by omega)
    dsimp only
    rw [hcopy, Block.ok_bind]
    refine ⟨_, rfl, ⟨h.alloc, h.curr, ?_⟩, ?_, ?_⟩
    · show m.size + (newsize - m.size) ≤ block.capacity
      omega
    · rw [toMessage, toMessage, Message.mk.injEq]
      exact ⟨rfl, rfl, rfl, rfl, rfl, rfl, hbytes, rfl, rfl, rfl, hcap⟩
    · show len ≤ newsize - m.size
      omega

theorem Disciplined.append (h : m.Disciplined) (hc : m.curr = m.size) (hf : bs.length ≤ m.free) :
    ∃ m', m.append bs = .ok m' ∧ m'.Disciplined ∧ m'.toMessage = m.toMessage.addSize bs ∧
      m'.curr = m'.size ∧ m'.free = m.free - bs.length := by
  have hroom := h.room
  rw [MessageBuffer.append, Block.copy_bind (by omega)]
  refine ⟨_, rfl, ⟨h.alloc, ?_, ?_⟩, ?_, ?_, rfl⟩
  · show m.curr + bs.length ≤ m.size + bs.length
    omega
  · show m.size + bs.length + (m.free - bs.length) ≤ m.block.capacity
    omega
  · rw [toMessage, toMessage, Message.addSize, Message.mk.injEq]
    refine ⟨rfl, rfl, rfl, rfl, rfl, rfl, ?_, rfl, rfl, rfl, rfl⟩
    rw [content, content, hc]
    apply Block.bytes_patch_append
  · show m.curr + bs.length = m.size + bs.length
    rw [hc]

theorem Disciplined.toEnd (h : m.Disciplined) : { m with curr := m.size }.Disciplined :=
  ⟨h.alloc, le_rfl, h.room⟩

theorem toMessage_toEnd (m : MessageBuffer) : { m with curr := m.size }.toMessage =
    { m.toMessage with curr := m.toMessage.data.length } := by
  rw [show m.toMessage.data.length = m.size from m.length_content]
  rfl

theorem Disciplined.storeBytes (h : m.Disciplined) (item : List UInt8) (recordSize : Bool) :
    ∃ m', m.storeBytes item recordSize = .ok (m', true) ∧ m'.Disciplined ∧
      m.toMessage.store item recordSize = some m'.toMessage := by
  have halloc : ¬ m.alloc = false := by simp [h.alloc]
  rw [MessageBuffer.storeBytes, Message.store, if_neg halloc,
    if_neg (show ¬ m.toMessage.alloc = false from halloc)]
  obtain ⟨m₁, hexp, h₁, hmsg₁, hlen⟩ := h.expand (if recordSize then item.length + 4 else item.length)
  have h₂ := h₁.toEnd
  rw [hexp, Block.ok_bind, ← hmsg₁]
  dsimp only
  rw [← toMessage_toEnd]
  cases recordSize with
  | false =>
    obtain ⟨m₃, happ, h₃, hmsg₃, -⟩ := h₂.append rfl (show item.length ≤ m₁.free from hlen)
    refine ⟨m₃, ?_, h₃, congrArg some hmsg₃.symm⟩
    show (MessageBuffer.append _ item >>= fun m => _) = _
    rw [happ]
    rfl
  | true =>
    have hprefix : (toLE 4 item.length).length = 4 := length_toLE 4 item.length
    have hlen' : item.length + 4 ≤ m₁.free := hlen
    obtain ⟨m₃, happ₃, h₃, hmsg₃, hc₃, hf₃⟩ :=
      h₂.append rfl (show (toLE 4 item.length).length ≤ m₁.free by omega)
    have hfree : item.length ≤ m₃.free := by
      rw [hf₃, hprefix]
      exact Nat.le_sub_of_add_le hlen'
    obtain ⟨m₄, happ₄, h₄, hmsg₄, -⟩ := h₃.append hc₃ hfree
    refine ⟨m₄, ?_, h₄, ?_⟩
    · rw [if_pos rfl, happ₃, Block.ok_bind, happ₄, Block.ok_bind]
      rfl
    · rw [if_pos rfl, ← hmsg₃, ← hmsg₄]

theorem Disciplined.storeRecord {ρ : Type} {s : Serializable α} {c : FixedCodec ρ} {fields : α → ρ}
    (h : m.Disciplined) (hs : s.Agrees c fields) (obj : α) :
    ∃ m', m.storeRecord s obj = .ok (m', true) ∧ m'.Disciplined ∧
      m.toMessage.store (c.encode (fields obj)) = some m'.toMessage := by
  obtain ⟨m₁, hexp, h₁, hmsg₁, hlen⟩ := h.expand c.size
  have h₂ := h₁.toEnd
  have hroom := h₁.room
  have hsize : (c.encode (fields obj)).length = c.size := c.length_encode _
  obtain ⟨m₃, happ, h₃, hmsg₃, -⟩ := h₂.append rfl (show (c.encode (fields obj)).length ≤ m₁.free by omega)
  rw [MessageBuffer.append, Block.copy_bind (show m₁.size + _ ≤ m₁.block.capacity by omega), hsize] at happ
  rw [MessageBuffer.storeRecord, hs.sizeOf, hexp, Block.ok_bind]
  dsimp only
  rw [hs.serialize obj _ _ (by omega), Block.ok_bind]
  refine ⟨m₃, ?_, h₃, ?_⟩
  · dsimp only
    rw [if_neg (not_not.mpr rfl)]
    exact congrArg (fun m => Except.ok (m, true)) (Except.ok.inj happ)
  · rw [Message.store, if_neg (show ¬ m.toMessage.alloc = false by simp [toMessage, h.alloc])]
    simp only [Bool.false_eq_true, if_false, hsize]
    rw [← hmsg₁, ← toMessage_toEnd, hmsg₃]

theorem extract_short {itemSize : Nat} (hshort : m.curr + itemSize > m.size) (fromEnd : Bool) :
    m.toMessage.extract itemSize fromEnd = none := by
  have hsize : m.toMessage.data.length = m.size := m.length_content
  rw [Message.extract, hsize]
  exact if_pos hshort

theorem Disciplined.cutEnd (h : m.Disciplined) {itemSize : Nat} (hn : m.curr + itemSize ≤ m.size) :
    { m with size := m.size - itemSize }.Disciplined ∧
      m.block.load (m.size - itemSize) itemSize = .ok (m.block.bytes (m.size - itemSize) itemSize) ∧
      m.toMessage.extract itemSize true =
        some (m.block.bytes (m.size - itemSize) itemSize, { m with size := m.size - itemSize }.toMessage) := by
  have hsize : m.toMessage.data.length = m.size := m.length_content
  have hroom := h.room
  refine ⟨⟨h.alloc, ?_, ?_⟩, Block.load_ok (by omega), ?_⟩
  · show m.curr ≤ m.size - itemSize
    omega
  · show m.size - itemSize + m.free ≤ m.block.capacity
    omega
  · have hdrop : m.content.drop (m.size - itemSize) = m.block.bytes (m.size - itemSize) itemSize := by
      rw [content, Block.drop_bytes (by omega), Nat.zero_add, Nat.sub_sub_self (by omega)]
    have htake : m.content.take (m.size - itemSize) = m.block.bytes 0 (m.size - itemSize) :=
      Block.take_bytes (by omega)
    rw [Message.extract, hsize, if_neg (show ¬ m.toMessage.curr + itemSize > m.size from not_lt.mpr hn),
      if_pos rfl]
    show some (m.content.drop _, ({ m.toMessage with data := m.content.take _ } : Message)) = _
    rw [hdrop, htake]
    rfl

theorem Disciplined.readOn (h : m.Disciplined) {itemSize : Nat} (hn : m.curr + itemSize ≤ m.size) :
    { m with curr := m.curr + itemSize }.Disciplined ∧
      m.block.load m.curr itemSize = .ok (m.block.bytes m.curr itemSize) ∧
      m.toMessage.extract itemSize false =
        some (m.block.bytes m.curr itemSize, { m with curr := m.curr + itemSize }.toMessage) := by
  have hsize : m.toMessage.data.length = m.size := m.length_content
  have hroom := h.room
  refine ⟨⟨h.alloc, hn, h.room⟩, Block.load_ok (by omega), ?_⟩
  have hitem : (m.content.drop m.curr).take itemSize = m.block.bytes m.curr itemSize := by
    rw [content, Block.drop_bytes h.curr, Nat.zero_add, Block.take_bytes (by omega)]
  rw [Message.extract, hsize, if_neg (show ¬ m.toMessage.curr + itemSize > m.size from not_lt.mpr hn),
    if_neg Bool.false_ne_true]
  show some ((m.content.drop m.curr).take itemSize, _) = _
  rw [hitem]
  rfl

theorem Disciplined.copyOut (h : m.Disciplined) (itemSize : Nat) (fromEnd : Bool) :
    (m.copyOut itemSize fromEnd = .ok (m, 0, []) ∧ m.toMessage.extract itemSize fromEnd = none) ∨
      ∃ m' bytes, m.copyOut itemSize fromEnd = .ok (m', itemSize, bytes) ∧ m'.Disciplined ∧
        m.toMessage.extract itemSize fromEnd = some (bytes, m'.toMessage) := by
  rw [MessageBuffer.copyOut]
  by_cases hshort : m.curr + itemSize > m.size
  · exact .inl ⟨if_pos hshort, extract_short hshort fromEnd⟩
  · right
    rw [if_neg hshort]
    cases fromEnd with
    | true =>
      obtain ⟨hd, hload, hext⟩ := h.cutEnd (not_lt.mp hshort)
      rw [if_pos rfl, hload]
      exact ⟨_, _, rfl, hd, hext⟩
    | false =>
      obtain ⟨hd, hload, hext⟩ := h.readOn (not_lt.mp hshort)
      rw [if_neg Bool.false_ne_true, hload]
      exact ⟨_, _, rfl, hd, hext⟩

theorem Disciplined.itemPrefix (h : m.Disciplined) (h4 : m.curr + 4 ≤ m.size) :
    m.toMessage.itemPrefix = ofLE (m.block.bytes m.curr 4) := by
  show ofLE ((m.content.drop m.curr).take 4) = _
  rw [content, Block.drop_bytes h.curr, Nat.zero_add, Block.take_bytes (by omega)]

theorem Disciplined.extractBytes (h : m.Disciplined) (itemSize : Nat) (fromEnd : Bool) (dest : List UInt8) :
    ∃ m' ret bytes, m.extractBytes itemSize fromEnd = .ok (m', ret, bytes) ∧ m'.Disciplined ∧
      m.toMessage.extractBytes itemSize dest fromEnd = ⟨ret, m'.toMessage, bytes ++ dest.drop ret⟩ := by
  have hsize : m.toMessage.data.length = m.size := m.length_content
  have hroom := h.room
  rw [MessageBuffer.extractBytes, Message.extractBytes]
  split
  · exact ⟨m, 0, [], rfl, h, rfl⟩
  · rw [hsize]
    by_cases hp : itemSize = 0 ∧ m.curr + 4 ≤ m.size
    · rw [if_pos hp, if_pos (show itemSize = 0 ∧ m.toMessage.curr + 4 ≤ m.size from hp),
        Block.load_bind (by omega),
        h.itemPrefix hp.2]
      dsimp only
      have h₁ : { m with curr := m.curr + 4 }.Disciplined := ⟨h.alloc, hp.2, h.room⟩
      have hmsg : ({ m.toMessage with curr := m.toMessage.curr + 4 } : Message) =
          { m with curr := m.curr + 4 }.toMessage := rfl
      rw [hmsg]
      rcases h₁.copyOut (ofLE (m.block.bytes m.curr 4)) fromEnd with ⟨hout, hext⟩ | ⟨m', bytes, hout, h', hext⟩
      · rw [hext]
        exact ⟨_, 0, [], hout, h₁, rfl⟩
      · rw [hext]
        exact ⟨m', _, bytes, hout, h', rfl⟩
    · rw [if_neg hp, if_neg (show ¬ (itemSize = 0 ∧ m.toMessage.curr + 4 ≤ m.size) from hp)]
      dsimp only
      rcases h.copyOut itemSize fromEnd with ⟨hout, hext⟩ | ⟨m', bytes, hout, h', hext⟩
      · rw [hext]
        exact ⟨m, 0, [], hout, h, rfl⟩
      · rw [hext]
        exact ⟨m', _, bytes, hout, h', rfl⟩

/-- What is restored of an object are its serialized fields. -/
theorem Disciplined.extractRecord {ρ : Type} {s : Serializable α} {c : FixedCodec ρ} {fields : α → ρ}
    (h : m.Disciplined) (hs : s.Agrees c fields) (obj : α) (fromEnd : Bool) :
    ∃ m' ret obj', m.extractRecord s obj fromEnd = .ok (m', ret, obj') ∧ m'.Disciplined ∧
      m.toMessage.extractRecord c (fields obj) fromEnd = ⟨ret, m'.toMessage, fields obj'⟩ := by
  have hroom := h.room
  have hpos : ¬ c.size = 0 := hs.pos.ne'
  rw [MessageBuffer.extractRecord, Message.extractRecord, Message.extractAs, hs.sizeOf]
  dsimp only
  by_cases hshort : m.curr + c.size > m.size
  · rw [if_pos hshort, extract_short hshort]
    exact ⟨m, 0, obj, rfl, h, rfl⟩
  · rw [if_neg hshort]
    cases fromEnd with
    | true =>
      obtain ⟨hd, -, hext⟩ := h.cutEnd (not_lt.mp hshort)
      obtain ⟨obj', hdes, hfields⟩ := hs.deserialize obj m.block (m.size - c.size) c.size le_rfl (by omega)
      simp only [if_true, hdes, Block.ok_bind, hext, hpos, if_false]
      refine ⟨_, _, obj', rfl, hd, ?_⟩
      rw [hfields]
      rfl
    | false =>
      obtain ⟨hd, -, hext⟩ := h.readOn (not_lt.mp hshort)
      obtain ⟨obj', hdes, hfields⟩ := hs.deserialize obj m.block m.curr c.size le_rfl (by omega)
      simp only [Bool.false_eq_true, if_false, hdes, Block.ok_bind, hext, hpos]
      refine ⟨_, _, obj', rfl, hd, ?_⟩
      rw [hfields]
      rfl

end MessageBuffer

end VastNC
