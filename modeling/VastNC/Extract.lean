import VastNC.Area
import VastNC.SendMessage

/-! Items put into a `Message` and taken out again, from the cursor on or from the end. -/

namespace VastNC

/-- The message types of `VAST_Message` and the groups of handlers that the model uses. -/
def vonMaxMsg : UInt16 := 30

def publishType : UInt16 := vonMaxMsg + 8

def neighborType : UInt16 := vonMaxMsg + 15

def messageType : UInt16 := vonMaxMsg + 19

def vastMsgtype (type : UInt16) : UInt16 := 0xFF &&& type

def appMsgtype (type : UInt16) : UInt16 := type >>> 8

def packMsgtype (app type : UInt16) : UInt16 := app <<< 8 ||| type

def groupRelay : UInt8 := 1

def groupMatcher : UInt8 := 2

def groupClient : UInt8 := 3

namespace Message

variable {α : Type}

/-- `store` where the caller ignores the result. -/
def put (m : Message) (item : List UInt8) : Message := (m.store item).getD m

def putAs (m : Message) (c : FixedCodec α) (a : α) : Message := m.put (c.encode a)

def reset (m : Message) : Message := { m with curr := 0 }

/-- `extract` of an item of fixed size; from the end it shortens the message. -/
def extract (m : Message) (size : Nat) (fromEnd : Bool := false) : Option (List UInt8 × Message) :=
  if m.curr + size > m.data.length then none
  else if fromEnd then
    some (m.data.drop (m.data.length - size), { m with data := m.data.take (m.data.length - size) })
  else some ((m.data.drop m.curr).take size, { m with curr := m.curr + size })

def extractAs (m : Message) (c : FixedCodec α) (fromEnd : Bool := false) : Option (α × Message) :=
  (m.extract c.size fromEnd).map (fun r => (c.decode r.1, r.2))

variable {m : Message}

theorem put_eq (h : m.alloc = true) (item : List UInt8) : ∃ free capacity, m.put item =
    { m with data := m.data ++ item, curr := m.data.length + item.length, free, capacity } := by
  obtain ⟨free, capacity, hs⟩ := store_eq h item
  exact ⟨free, capacity, by rw [put, hs, Option.getD_some]⟩

theorem data_put (h : m.alloc = true) (item : List UInt8) : (m.put item).data = m.data ++ item := by
  obtain ⟨free, capacity, hp⟩ := put_eq h item
  rw [hp]

theorem alloc_put (h : m.alloc = true) (item : List UInt8) : (m.put item).alloc = true := by
  obtain ⟨free, capacity, hp⟩ := put_eq h item
  rw [hp]
  exact h

theorem put_put (h : m.alloc = true) (x y : List UInt8) : ((m.put x).put y).data = m.data ++ (x ++ y) := by
  rw [data_put (alloc_put h x), data_put h, List.append_assoc]

/-- The cursor stands between the two parts of the data. -/
structure At (m : Message) (pre rest : List UInt8) : Prop where
  data : m.data = pre ++ rest
  curr : m.curr = pre.length

theorem At.extract {item pre post : List UInt8} (h : m.At pre (item ++ post)) :
    ∃ m' : Message, m.extract item.length = some (item, m') ∧ m'.At (pre ++ item) post := by
  have hlen : ¬ m.curr + item.length > m.data.length := by
    rw [h.data, h.curr, List.length_append, List.length_append]
    omega
  have hitem : (m.data.drop m.curr).take item.length = item := by
    rw [h.data, h.curr, List.drop_left, List.take_left]
  refine ⟨{ m with curr := m.curr + item.length }, ?_, ?_, ?_⟩
  · rw [Message.extract, if_neg hlen, if_neg Bool.false_ne_true, hitem]
  · rw [h.data, List.append_assoc]
  · rw [List.length_append, h.curr]

theorem At.extractAs {c : FixedCodec α} {a : α} {pre post : List UInt8}
    (h : m.At pre (c.encode a ++ post)) :
    ∃ m' : Message, m.extractAs c = some (a, m') ∧ m'.At (pre ++ c.encode a) post := by
  obtain ⟨m', hext, hat⟩ := h.extract
  rw [c.length_encode] at hext
  refine ⟨m', ?_, hat⟩
  rw [Message.extractAs, hext, Option.map_some, c.decode_encode]

theorem extract_end {item body : List UInt8} (hd : m.data = body ++ item) (hc : m.curr ≤ body.length) :
    m.extract item.length true = some (item, { m with data := body }) := by
  have hlen : m.data.length = body.length + item.length := by rw [hd, List.length_append]
  have hle : ¬ m.curr + item.length > m.data.length := by omega
  have hcut : m.data.length - item.length = body.length := by omega
  rw [extract, if_neg hle, if_pos rfl, hcut, hd, List.drop_left, List.take_left]

theorem extractAs_end {c : FixedCodec α} {a : α} {body : List UInt8}
    (hd : m.data = body ++ c.encode a) (hc : m.curr ≤ body.length) :
    m.extractAs c true = some (a, { m with data := body }) := by
  have hext := extract_end hd hc
  rw [c.length_encode] at hext
  rw [extractAs, hext, Option.map_some, c.decode_encode]

end Message

end VastNC
