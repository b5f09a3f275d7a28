import VastNC.MessageBuffer
import VastNC.Lib.FallibleRun

/-! Runs of a `Message` that owns its buffer, and what comes out of it of what has been stored. -/

namespace VastNC

open LittleEndian

/-- Bytes whose number is a `vsize_t`. -/
abbrev VBytes := { bytes : List UInt8 // bytes.length < 2 ^ 32 }

inductive StoredItem where
  | fixed (item : VBytes)
  | sized (item : VBytes)
  | record (t : RecordType) (obj : t.Obj)

/-- The types of a call of `extract`; an item size of 0 asks for an item stored with its size. -/
inductive Request where
  | bytes (itemSize : UInt32)
  | record (t : RecordType) (obj : t.Obj)

/-- What a caller finds at its pointer, or in the serialized fields of its object. -/
inductive Answer where
  | bytes (ret : Nat) (item : List UInt8)
  | record (ret : Nat) (t : RecordType) (fields : t.Fields)

namespace StoredItem

def wire : StoredItem → List UInt8
  | fixed item => item.1
  | sized item => toLE 4 item.1.length ++ item.1
  | record t obj => t.codec.encode (t.fields obj)

/-- The call that extracts the item, into an object of the caller for a record. -/
def request (into : (t : RecordType) → t.Obj) : StoredItem → Request
  | fixed item => .bytes (UInt32.ofNat item.1.length)
  | sized _ => .bytes 0
  | record t _ => .record t (into t)

def answer : StoredItem → Answer
  | fixed item => .bytes item.1.length item.1
  | sized item => .bytes item.1.length item.1
  | record t obj => .record t.codec.size t (t.fields obj)

/-- An item of fixed size has at least one byte. -/
def Proper : StoredItem → Prop
  | fixed item => item.1 ≠ []
  | _ => True

def FixedSize : StoredItem → Prop
  | sized _ => False
  | _ => True

end StoredItem

inductive BufferOp where
  | store (item : StoredItem)
  | extract (request : Request) (fromEnd : Bool)
  | reset
  | clear
  | copied
  | assigned

namespace Message

variable {m : Message} {item pre post : List UInt8} {α : Type}

theorem At.extractBytes (h : m.At pre (item ++ post)) (hne : item ≠ []) (dest : List UInt8) :
    ∃ m', m.extractBytes item.length dest false = ⟨item.length, m', item ++ dest.drop item.length⟩ ∧
      m'.At (pre ++ item) post := by
  obtain ⟨m', hext, hat⟩ := h.extract
  refine ⟨m', ?_, hat⟩
  rw [extractBytes_fixed (by simpa using hne), hext]

theorem At.extractSized (h : m.At pre (toLE 4 item.length ++ item ++ post)) (hlen : item.length < 2 ^ 32)
    (dest : List UInt8) :
    ∃ m', m.extractBytes 0 dest false = ⟨item.length, m', item ++ dest.drop item.length⟩ ∧
      m'.At (pre ++ (toLE 4 item.length ++ item)) post := by
  have hprefix : m.itemPrefix = item.length := by
    rw [itemPrefix, h.data, h.curr, List.drop_left, List.append_assoc, List.take_left' (length_toLE 4 _)]
    exact ofLE_toLE_of_lt (by simpa using hlen)
  have hroom : m.curr + 4 ≤ m.data.length := by
    rw [h.data, h.curr]
    simp
  have hmoved : ({ m with curr := m.curr + 4 } : Message).At (pre ++ toLE 4 item.length) (item ++ post) := by
    refine ⟨by simp [h.data], ?_⟩
    rw [List.length_append, length_toLE, ← h.curr]
  obtain ⟨m', hext, hat⟩ := hmoved.extract
  refine ⟨m', ?_, by rwa [List.append_assoc] at hat⟩
  rw [Message.extractBytes, if_neg (by simp), if_pos ⟨rfl, hroom⟩, hprefix]
  dsimp only
  rw [hext]

theorem At.extractRecord {c : FixedCodec α} {a : α} (h : m.At pre (c.encode a ++ post)) (obj : α) :
    ∃ m', m.extractRecord c obj false = ⟨c.size, m', a⟩ ∧ m'.At (pre ++ c.encode a) post := by
  obtain ⟨m', hext, hat⟩ := h.extractAs
  refine ⟨m', ?_, hat⟩
  rw [Message.extractRecord, hext]

theorem extractBytes_atEnd (hd : m.data = pre ++ item) (hc : m.curr ≤ pre.length) (hne : item ≠ [])
    (dest : List UInt8) : m.extractBytes item.length dest true =
      ⟨item.length, { m with data := pre }, item ++ dest.drop item.length⟩ := by
  rw [extractBytes_fixed (by simpa using hne), extract_end hd hc]

theorem extractRecord_atEnd {c : FixedCodec α} {a : α} (hd : m.data = pre ++ c.encode a)
    (hc : m.curr ≤ pre.length) (obj : α) :
    m.extractRecord c obj true = ⟨c.size, { m with data := pre }, a⟩ := by
  rw [extractRecord, extractAs_end hd hc]

end Message

namespace MessageBuffer

/-- The constructors: an empty message, or one with a copy of the bytes given. -/
def created (heap : Nat → UInt8) : Option (List UInt8) → Except Overrun MessageBuffer
  | none => .ok (empty heap)
  | some msg => ofBytes heap msg

def storeItem (m : MessageBuffer) : StoredItem → Except Overrun (MessageBuffer × Bool)
  | .fixed item => m.storeBytes item.1 false
  | .sized item => m.storeBytes item.1 true
  | .record t obj => m.storeRecord t.serializable obj

def extractItem (m : MessageBuffer) (fromEnd : Bool) : Request → Except Overrun (MessageBuffer × Answer)
  | .bytes itemSize => do
    let (m, ret, item) ← m.extractBytes itemSize.toNat fromEnd
    return (m, .bytes ret item)
  | .record t obj => do
    let (m, ret, obj) ← m.extractRecord t.serializable obj fromEnd
    return (m, .record ret t (t.fields obj))

def step (m : MessageBuffer) : BufferOp → Except Overrun MessageBuffer
  | .store item => do return (← m.storeItem item).1
  | .extract request fromEnd => do return (← m.extractItem fromEnd request).1
  | .reset => return m.reset
  | .clear => return m.clear
  | .copied => m.copied
  | .assigned => m.assigned

def storeAll : List StoredItem → MessageBuffer → Except Overrun MessageBuffer
  | [], m => return m
  | item :: items, m => do
    let (m, _) ← m.storeItem item
    storeAll items m

def extractAll (fromEnd : Bool) : List Request → MessageBuffer → Except Overrun (MessageBuffer × List Answer)
  | [], m => return (m, [])
  | request :: requests, m => do
    let (m, answer) ← m.extractItem fromEnd request
    let (m, answers) ← extractAll fromEnd requests m
    return (m, answer :: answers)

variable {m : MessageBuffer} {item : StoredItem} {pre post : List UInt8}

theorem created_ok (heap : Nat → UInt8) (start : Option (List UInt8)) :
    ∃ m, created heap start = .ok m ∧ m.Disciplined := by
  cases start with
  | none => exact ⟨_, rfl, disciplined_empty heap⟩
  | some msg =>
    obtain ⟨m, hm, hd, -⟩ := ofBytes_ok heap msg
    exact ⟨m, hm, hd⟩

theorem data_store {m m' : Message} {item : List UInt8} {recordSize : Bool}
    (h : m.store item recordSize = some m') :
    m'.data = m.data ++ ((if recordSize then toLE 4 item.length else []) ++ item) := by
  obtain ⟨free, capacity, hexp⟩ := m.expand_eq (if recordSize then item.length + 4 else item.length)
  rw [Message.store] at h
  split at h
  · cases h
  · rw [hexp] at h
    rw [← Option.some.inj h]
    cases recordSize with
    | false => rfl
    | true => exact List.append_assoc _ _ _

theorem Disciplined.storeItem (h : m.Disciplined) (item : StoredItem) :
    ∃ m', m.storeItem item = .ok (m', true) ∧ m'.Disciplined ∧ m'.content = m.content ++ item.wire := by
  cases item with
  | fixed item =>
    obtain ⟨m', hm, hd, hmsg⟩ := h.storeBytes item.1 false
    exact ⟨m', hm, hd, data_store hmsg⟩
  | sized item =>
    obtain ⟨m', hm, hd, hmsg⟩ := h.storeBytes item.1 true
    exact ⟨m', hm, hd, data_store hmsg⟩
  | record t obj =>
    obtain ⟨m', hm, hd, hmsg⟩ := h.storeRecord t.agrees obj
    exact ⟨m', hm, hd, data_store hmsg⟩

theorem Disciplined.storeAll (h : m.Disciplined) (items : List StoredItem) :
    ∃ m', storeAll items m = .ok m' ∧ m'.Disciplined ∧
      m'.content = m.content ++ items.flatMap StoredItem.wire := by
  induction items generalizing m with
  | nil => exact ⟨m, rfl, h, by simp⟩
  | cons item items ih =>
    obtain ⟨m₁, hstore, h₁, hc₁⟩ := h.storeItem item
    obtain ⟨m₂, hall, h₂, hc₂⟩ := ih h₁
    rw [MessageBuffer.storeAll, hstore, Block.ok_bind]
    refine ⟨m₂, hall, h₂, ?_⟩
    rw [hc₂, hc₁, List.flatMap_cons, List.append_assoc]

theorem Disciplined.extractItem (h : m.Disciplined) (fromEnd : Bool) (request : Request) :
    ∃ m' answer, m.extractItem fromEnd request = .ok (m', answer) ∧ m'.Disciplined := by
  cases request with
  | bytes itemSize =>
    obtain ⟨m', ret, item, hext, hd, -⟩ := h.extractBytes itemSize.toNat fromEnd []
    exact ⟨m', .bytes ret item, by rw [MessageBuffer.extractItem, hext]; rfl, hd⟩
  | record t obj =>
    obtain ⟨m', ret, obj', hext, hd, -⟩ := h.extractRecord t.agrees obj fromEnd
    exact ⟨m', .record ret t (t.fields obj'), by rw [MessageBuffer.extractItem, hext]; rfl, hd⟩

theorem Disciplined.reset (h : m.Disciplined) : m.reset.Disciplined := ⟨h.alloc, Nat.zero_le _, h.room⟩

theorem Disciplined.clear (h : m.Disciplined) : m.clear.Disciplined := by
  refine ⟨rfl, le_rfl, ?_⟩
  show 0 + (m.free + m.size) ≤ m.block.capacity
  have hroom := h.room
  omega

theorem Disciplined.copied (h : m.Disciplined) : ∃ m', m.copied = .ok m' ∧ m'.Disciplined ∧
    m'.content = m.content ∧ m'.curr = m.curr := by
  obtain ⟨block, hcopy, hcap, hbytes⟩ := moved_content (Nat.le_add_right m.size m.free)
  rw [MessageBuffer.copied, h.load_content, Block.ok_bind, hcopy, Block.ok_bind]
  exact ⟨_, rfl, ⟨h.alloc, h.curr, hcap.ge⟩, hbytes, rfl⟩

theorem Disciplined.assigned (h : m.Disciplined) : ∃ m', m.assigned = .ok m' ∧ m'.Disciplined ∧
    m'.content = m.content := by
  obtain ⟨block, hcopy, hcap, hbytes⟩ := moved_content (Nat.le_add_right m.size m.free)
  rw [MessageBuffer.assigned, h.load_content, Block.ok_bind, hcopy, Block.ok_bind]
  exact ⟨_, rfl, ⟨h.alloc, Nat.zero_le _, hcap.ge⟩, hbytes⟩

theorem Disciplined.step (h : m.Disciplined) (op : BufferOp) : ∃ m', m.step op = .ok m' ∧ m'.Disciplined := by
  cases op with
  | store item =>
    obtain ⟨m', hstore, hd, -⟩ := h.storeItem item
    exact ⟨m', by rw [MessageBuffer.step, hstore]; rfl, hd⟩
  | extract request fromEnd =>
    obtain ⟨m', answer, hext, hd⟩ := h.extractItem fromEnd request
    exact ⟨m', by rw [MessageBuffer.step, hext]; rfl, hd⟩
  | reset => exact ⟨m.reset, rfl, h.reset⟩
  | clear => exact ⟨m.clear, rfl, h.clear⟩
  | copied =>
    obtain ⟨m', hcopy, hd, -⟩ := h.copied
    exact ⟨m', hcopy, hd⟩
  | assigned =>
    obtain ⟨m', hcopy, hd, -⟩ := h.assigned
    exact ⟨m', hcopy, hd⟩

theorem toNat_itemSize (item : VBytes) : (UInt32.ofNat item.1.length).toNat = item.1.length := by
  rw [UInt32.toNat_ofNat', Nat.mod_eq_of_lt item.2]

/-- The item at the cursor comes out as it was stored. -/
theorem Disciplined.extract_front (h : m.Disciplined) (into : (t : RecordType) → t.Obj) (hp : item.Proper)
    (hat : m.toMessage.At pre (item.wire ++ post)) :
    ∃ m', m.extractItem false (item.request into) = .ok (m', item.answer) ∧ m'.Disciplined ∧
      m'.toMessage.At (pre ++ item.wire) post := by
  cases item with
  | fixed item =>
    obtain ⟨m', ret, bytes, hext, hd, hmsg⟩ := h.extractBytes item.1.length false []
    obtain ⟨r, hr, hrat⟩ := hat.extractBytes hp []
    obtain ⟨rfl, rfl, hbytes⟩ := Extracted.mk.inj (hmsg.symm.trans hr)
    rw [List.drop_nil, List.append_nil, List.append_nil] at hbytes
    refine ⟨m', ?_, hd, hrat⟩
    rw [StoredItem.request, MessageBuffer.extractItem, toNat_itemSize, hext, hbytes]
    rfl
  | sized item =>
    obtain ⟨m', ret, bytes, hext, hd, hmsg⟩ := h.extractBytes 0 false []
    obtain ⟨r, hr, hrat⟩ := hat.extractSized item.2 []
    obtain ⟨rfl, rfl, hbytes⟩ := Extracted.mk.inj (hmsg.symm.trans hr)
    rw [List.drop_nil, List.append_nil, List.append_nil] at hbytes
    refine ⟨m', ?_, hd, hrat⟩
    rw [hbytes] at hext
    show (m.extractBytes 0 false >>= fun _ => _) = _
    rw [hext]
    rfl
  | record t obj =>
    obtain ⟨m', ret, obj', hext, hd, hmsg⟩ := h.extractRecord t.agrees (into t) false
    obtain ⟨r, hr, hrat⟩ := hat.extractRecord (t.fields (into t))
    obtain ⟨rfl, rfl, hfields⟩ := Extracted.mk.inj (hmsg.symm.trans hr)
    refine ⟨m', ?_, hd, hrat⟩
    rw [StoredItem.request, MessageBuffer.extractItem, hext, StoredItem.answer, ← hfields]
    rfl

theorem Disciplined.extractAll_front (h : m.Disciplined) (into : (t : RecordType) → t.Obj)
    {items : List StoredItem} (hp : ∀ item ∈ items, item.Proper)
    (hat : m.toMessage.At pre (items.flatMap StoredItem.wire)) :
    ∃ m', extractAll false (items.map (StoredItem.request into)) m = .ok (m', items.map StoredItem.answer) := by
  induction items generalizing m pre with
  | nil => exact ⟨m, rfl⟩
  | cons item items ih =>
    rw [List.flatMap_cons] at hat
    obtain ⟨m₁, hext, h₁, hat₁⟩ := h.extract_front into (hp item List.mem_cons_self) hat
    obtain ⟨m₂, hall⟩ := ih h₁ (fun i hi => hp i (List.mem_cons_of_mem item hi)) hat₁
    refine ⟨m₂, ?_⟩
    rw [List.map_cons, extractAll, hext, Block.ok_bind]
    dsimp only
    rw [hall]
    rfl

/-- The last item comes out at the end, and the bytes in front of it and the cursor stay. -/
theorem Disciplined.extract_end (h : m.Disciplined) (into : (t : RecordType) → t.Obj) (hp : item.Proper)
    (hf : item.FixedSize) (hc : m.content = pre ++ item.wire) (hcurr : m.curr ≤ pre.length) :
    ∃ m', m.extractItem true (item.request into) = .ok (m', item.answer) ∧ m'.Disciplined ∧
      m'.content = pre ∧ m'.curr = m.curr := by
  cases item with
  | fixed item =>
    obtain ⟨m', ret, bytes, hext, hd, hmsg⟩ := h.extractBytes item.1.length true []
    rw [Message.extractBytes_atEnd hc hcurr hp] at hmsg
    obtain ⟨rfl, hm', hbytes⟩ := Extracted.mk.inj hmsg.symm
    rw [List.drop_nil, List.append_nil, List.append_nil] at hbytes
    refine ⟨m', ?_, hd, congrArg Message.data hm', congrArg Message.curr hm'⟩
    rw [StoredItem.request, MessageBuffer.extractItem, toNat_itemSize, hext, hbytes]
    rfl
  | sized item => exact absurd hf not_false
  | record t obj =>
    obtain ⟨m', ret, obj', hext, hd, hmsg⟩ := h.extractRecord t.agrees (into t) true
    rw [Message.extractRecord_atEnd hc hcurr] at hmsg
    obtain ⟨rfl, hm', hfields⟩ := Extracted.mk.inj hmsg.symm
    refine ⟨m', ?_, hd, congrArg Message.data hm', congrArg Message.curr hm'⟩
    rw [StoredItem.request, MessageBuffer.extractItem, hext, StoredItem.answer, ← hfields]
    rfl

theorem Disciplined.extractAll_end (h : m.Disciplined) (into : (t : RecordType) → t.Obj)
    {items : List StoredItem} (hp : ∀ item ∈ items, item.Proper ∧ item.FixedSize)
    (hc : m.content = pre ++ items.reverse.flatMap StoredItem.wire) (hcurr : m.curr ≤ pre.length) :
    ∃ m', extractAll true (items.map (StoredItem.request into)) m = .ok (m', items.map StoredItem.answer) ∧
      m'.content = pre ∧ m'.curr = m.curr := by
  induction items generalizing m with
  | nil => exact ⟨m, rfl, by simpa using hc, rfl⟩
  | cons item items ih =>
    obtain ⟨hitem, hfix⟩ := hp item List.mem_cons_self
    rw [List.reverse_cons, List.flatMap_append, List.flatMap_singleton, ← List.append_assoc] at hc
    have hle : m.curr ≤ (pre ++ items.reverse.flatMap StoredItem.wire).length := by
      rw [List.length_append]
      omega
    obtain ⟨m₁, hext, h₁, hc₁, hcurr₁⟩ := h.extract_end into hitem hfix hc hle
    have hrest := fun i hi => hp i (List.mem_cons_of_mem item hi)
    obtain ⟨m₂, hall, hc₂, hcurr₂⟩ := ih h₁ hrest hc₁ (hcurr₁.trans_le hcurr)
    refine ⟨m₂, ?_, hc₂, hcurr₂.trans hcurr₁⟩
    rw [List.map_cons, extractAll, hext, Block.ok_bind]
    dsimp only
    rw [hall]
    rfl

/-- What is stored comes out again: from the front in order, and from the end, for items that are
not stored with their size, in reverse order; then what stood in front of them is left. -/
structure RoundTrips (into : (t : RecordType) → t.Obj) (m : MessageBuffer) : Prop where
  front : ∀ items : List StoredItem, (∀ item ∈ items, item.Proper) → m.size = 0 →
    ∃ s t, storeAll items m = .ok s ∧
      extractAll false (items.map (StoredItem.request into)) s.reset = .ok (t, items.map StoredItem.answer)
  fromEnd : ∀ items : List StoredItem, (∀ item ∈ items, item.Proper ∧ item.FixedSize) →
    ∃ s, storeAll items m = .ok s ∧ ∀ curr, curr ≤ m.size →
      ∃ t, extractAll true (items.reverse.map (StoredItem.request into)) { s with curr } =
          .ok (t, items.reverse.map StoredItem.answer) ∧ t.content = m.content ∧ t.curr = curr

theorem Disciplined.roundTrips (h : m.Disciplined) (into : (t : RecordType) → t.Obj) : m.RoundTrips into where
  front items hp hsize := by
    obtain ⟨s, hstore, hs, hc⟩ := h.storeAll items
    have hempty : m.content = [] := by
      rw [← List.length_eq_zero_iff, length_content, hsize]
    have hat : s.reset.toMessage.At [] (items.flatMap StoredItem.wire) := by
      rw [hempty] at hc
      exact ⟨hc, rfl⟩
    obtain ⟨t, hext⟩ := hs.reset.extractAll_front into hp hat
    exact ⟨s, t, hstore, hext⟩
  fromEnd items hp := by
    obtain ⟨s, hstore, hs, hc⟩ := h.storeAll items
    refine ⟨s, hstore, fun curr hcurr => ?_⟩
    have hsize := congrArg List.length hc
    rw [length_content, List.length_append, length_content] at hsize
    have hd : { s with curr }.Disciplined := by
      refine ⟨hs.alloc, ?_, hs.room⟩
      show curr ≤ s.size
      omega
    apply hd.extractAll_end
    · intro item hitem
      exact hp item (List.mem_reverse.mp hitem)
    · rw [List.reverse_reverse]
      exact hc
    · rw [length_content]
      exact hcurr

/-- Every run of a message that owns its buffer stays within the allocated block, and in every
state of it the cursor and the counts agree with the block and items survive the round trip. -/
theorem buffer_discipline (heap : Nat → UInt8) (start : Option (List UInt8)) (ops : List BufferOp)
    (into : (t : RecordType) → t.Obj) :
    ∃ m₀ m, created heap start = .ok m₀ ∧ FallibleRun.run step m₀ ops = .ok m ∧ m.Disciplined ∧
      m.RoundTrips into := by
  obtain ⟨m₀, hstart, h₀⟩ := created_ok heap start
  obtain ⟨m, hrun, h⟩ := FallibleRun.run_total Disciplined (fun _ => True) (fun m op hm _ => hm.step op) h₀
    (fun _ _ => trivial : ∀ op ∈ ops, True)
  exact ⟨m₀, m, hstart, hrun, h, h.roundTrips into⟩

/-- An item of no bytes is asked for with the size 0, and the next item is read as one that is
stored with its size. -/
theorem buffer_empty_item : ∃ s t answers,
    storeAll [.fixed ⟨[], by decide⟩, .fixed ⟨[1, 0, 0, 0, 7], by decide⟩] (empty fun _ => 0) = .ok s ∧
      extractAll false [.bytes 0, .bytes 5] s.reset = .ok (t, answers) ∧
      answers ≠ [StoredItem.fixed ⟨[], by decide⟩, .fixed ⟨[1, 0, 0, 0, 7], by decide⟩].map
        StoredItem.answer := by
  refine ⟨_, _, [.bytes 1 [7], .bytes 0 []], rfl, rfl, ?_⟩
  simp [StoredItem.answer]

end MessageBuffer

end VastNC
