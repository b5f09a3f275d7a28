import VastNC.Recoder
import VastNC.Deserialize

/-! `udpNC_decoder`: the pool of uncoded packets, the queue of coded ones, and the recovery
of the packet that is missing from a coded one. -/

namespace VastNC

open LittleEndian

structure UDPNCDecoder where
  packetPool : PacketPool := ∅
  ncPackets : List UDPNCMessage := []

structure Fetched where
  active : UDPNCMessage
  available : List (Nat × UDPNCMessage)
  decodedIndex : Nat

def packetNotUnique : Fault :=
  .logicError ("udpNC_decoder::addUDPNCMessage: packet ids are supposed unique: " ++
    "                                       Found different packet with same ID ")

def availableNotOne : Fault :=
  .logicError ("udpNC_decoder::produceDecodedUDPNCMessage available_packet.size() " ++
    "should be 1, as we only currently code 2 packets together\n")

namespace UDPNCDecoder

/-- The condition of the first branch of `addUDPNCMessage`. -/
def poolable (m : UDPNCMessage) : Except Fault Bool :=
  if m.pktIds.length = 1 ∧ m.getMessageSize < maxPacketSize then do
    let fromId ← m.getFirstFromId
    .ok (fromId != netIdUnassigned)
  else .ok false

def addUDPNCMessage (dec : UDPNCDecoder) (m : UDPNCMessage) : Except Fault UDPNCDecoder := do
  if ← poolable m then
    let pktId ← front m.pktIds
    match dec.packetPool[pktId]? with
    | some stored =>
      if stored.equals m then .ok { dec with packetPool := dec.packetPool.insert pktId m }
      else .error packetNotUnique
    | none => .ok { dec with packetPool := dec.packetPool.insert pktId m }
  else if 1 < m.pktIds.length then .ok { dec with ncPackets := dec.ncPackets ++ [m] }
  else .ok dec

def clearPacketPool (_ : UDPNCDecoder) : UDPNCDecoder := {}

def availableIds (pool : PacketPool) (ids : List UInt64) : Nat := ids.countP (· ∈ pool)

/-- `available_packets` and `decoded_packet_index`, which starts as `(size_t) -1`. -/
def fetch (pool : PacketPool) (active : UDPNCMessage) : Fetched where
  active
  available := active.pktIds.zipIdx.filterMap (fun e => pool[e.1]?.map (fun m => (e.2, m)))
  decodedIndex := active.pktIds.zipIdx.foldl (fun idx e => if e.1 ∈ pool then idx else e.2) (2 ^ 64 - 1)

/-- The loop of `_fetchFromPacketPool` at index `i`. Every branch erases the packet at `i`
and the index still advances, so the packet behind it is passed over. -/
def fetchLoop (pool : PacketPool) :
    Nat → Nat → List UDPNCMessage → Option Fetched × PacketPool × List UDPNCMessage
  | 0, _, nc => (none, pool, nc)
  | fuel + 1, i, nc =>
    match nc[i]? with
    | none => (none, pool, nc)
    | some packet =>
      let available := availableIds pool packet.pktIds
      if available = packet.pktIds.length then fetchLoop pool fuel (i + 1) (nc.eraseIdx i)
      else if packet.pktIds.length - 1 ≤ available then
        (some (fetch pool packet), packet.pktIds.foldl (fun p id => p.erase id) pool, nc.eraseIdx i)
      else fetchLoop pool fuel (i + 1) (nc.eraseIdx i)

def fetchFromPacketPool (dec : UDPNCDecoder) : Option Fetched × UDPNCDecoder :=
  let r := fetchLoop dec.packetPool dec.ncPackets.length 0 dec.ncPackets
  let dec' : UDPNCDecoder := ⟨r.2.1, r.2.2⟩
  match r.1 with
  | none => (none, dec')
  | some f =>
    if f.available.length = f.active.pktIds.length then (none, dec')
    else if f.available.length ≠ f.active.pktIds.length - 1 then (none, dec')
    else (some f, dec')

/-- The loop of `_putAvailableInDecoder` over the positions; it sums up the checksums. -/
def putAvailableInDecoder (K : Kodo) (f : Fetched) :
    List Nat → K.Decoder → UInt32 → Except Fault (K.Decoder × UInt32)
  | [], coder, total => .ok (coder, total)
  | k :: ks, coder, total =>
    if k = f.decodedIndex then putAvailableInDecoder K f ks coder total
    else
      match f.available.lookup k with
      | none => .error (.logicError "map::at")
      | some m => do
        let buffer ← m.symbol
        let checksum ← checksumRange buffer m.sizeOf
        let coder := K.readUncodedSymbol coder buffer k
        if K.isComplete coder then .ok (coder, total + checksum)
        else putAvailableInDecoder K f ks coder (total + checksum)

/-- `memcpy` of `getMessageSize` bytes of the string into the payload array. -/
def copyPayload (m : UDPNCMessage) : Except Fault (List UInt8) :=
  if payloadRoom < m.getMessageSize then .error (.undefined "write past the end of an array")
  else if m.msg.length + 1 < m.getMessageSize then
    .error (.undefined "read past the end of a string")
  else .ok (zeroPad payloadRoom (m.msg.take m.getMessageSize))

def symbolDatagram (dataOut : List UInt8) (index : Nat) : Datagram where
  buf := memOf (dataOut.drop (index * maxPacketSize))
  size := maxPacketSize
  junk := default

def inArray (len : Nat) : Access → Bool
  | .read off n => n == 0 || off + n ≤ len
  | .length _ => true

def readSymbol (active : UDPNCMessage) (dataOut : List UInt8) (index : Nat) (total : UInt32) :
    Except Fault (Option UDPNCMessage) :=
  let symbol := dataOut.drop (index * maxPacketSize)
  let parse := (symbolDatagram dataOut index).parse
  if parse.trace.all (inArray symbol.length) = false then
    .error (.undefined "read past the end of an array")
  else do
    let ret ← parse.ret
    if ret ≠ -1 then
      let checksum ← checksumRange symbol parse.msg.sizeOf
      if total + checksum ≠ active.checksum then .ok none else .ok (some parse.msg)
    else .ok none

def decode (K : Kodo) (f : Fetched) : Except Fault (Option UDPNCMessage) := do
  let (coder, total) ← putAvailableInDecoder K f (List.range f.active.pktIds.length) K.build 0
  let payload ← copyPayload f.active
  let coder := K.readPayload coder payload
  if K.isComplete coder then readSymbol f.active (K.dataOut coder) f.decodedIndex total
  else .ok none

def produceDecodedUDPNCMessage (K : Kodo) (dec : UDPNCDecoder) :
    Except Fault (Option UDPNCMessage × UDPNCDecoder) :=
  match dec.fetchFromPacketPool with
  | (none, dec') => .ok (none, dec')
  | (some f, dec') =>
    if f.available.length ≠ 1 then .error availableNotOne
    else do
      let decoded ← decode K f
      .ok (decoded, dec')

theorem poolable_coded {m : UDPNCMessage} (h : m.pktIds.length ≠ 1) : poolable m = .ok false :=
  if_neg (by tauto)

theorem addUDPNCMessage_coded (dec : UDPNCDecoder) {m : UDPNCMessage} (h : 1 < m.pktIds.length) :
    dec.addUDPNCMessage m = .ok { dec with ncPackets := dec.ncPackets ++ [m] } := by
  simp only [addUDPNCMessage, poolable_coded (m := m) (by omega), bind, Except.bind,
    Bool.false_eq_true, if_false, h, if_true]

theorem addUDPNCMessage_skip (dec : UDPNCDecoder) {m : UDPNCMessage} (h : m.pktIds.length ≤ 1)
    (hp : poolable m = .ok false) : dec.addUDPNCMessage m = .ok dec := by
  simp only [addUDPNCMessage, hp, bind, Except.bind, Bool.false_eq_true, if_false,
    if_neg (show ¬ 1 < m.pktIds.length by omega)]

theorem mem_of_getElem? {pool : PacketPool} {id : UInt64} {m : UDPNCMessage}
    (h : pool[id]? = some m) : id ∈ pool := by
  rw [Std.ExtTreeMap.mem_iff_isSome_getElem?, h]
  rfl

theorem notMem_of_getElem? {pool : PacketPool} {id : UInt64} (h : pool[id]? = none) : id ∉ pool := by
  rw [Std.ExtTreeMap.mem_iff_isSome_getElem?, h]
  exact Bool.false_ne_true

theorem length_filterMap_available (pool : PacketPool) (l : List (UInt64 × Nat)) :
    (l.filterMap (fun e => pool[e.1]?.map (fun m => (e.2, m)))).length =
      l.countP (fun e => e.1 ∈ pool) := by
  induction l with
  | nil => rfl
  | cons e l ih =>
    cases he : pool[e.1]? with
    | none =>
      have hn := notMem_of_getElem? he
      simp [hn, ih]
    | some m =>
      have hm := mem_of_getElem? he
      simp [hm, ih]

theorem length_available (pool : PacketPool) (c : UDPNCMessage) :
    (fetch pool c).available.length = availableIds pool c.pktIds := by
  have hz : c.pktIds = c.pktIds.zipIdx.map Prod.fst := by simp
  rw [fetch, length_filterMap_available, availableIds]
  conv_rhs => rw [hz, List.countP_map]
  rfl

section Front

variable {pool : PacketPool} {x : UDPNCMessage} {nc : List UDPNCMessage}

theorem fetchLoop_drop (fuel : Nat) (h : availableIds pool x.pktIds + 1 ≠ x.pktIds.length) :
    fetchLoop pool (fuel + 1) 0 (x :: nc) = fetchLoop pool fuel 1 nc := by
  have hle : availableIds pool x.pktIds ≤ x.pktIds.length := List.countP_le_length
  rw [fetchLoop, List.getElem?_cons_zero]
  dsimp only
  split
  · rw [List.eraseIdx_cons_zero]
  · rw [if_neg (by omega), List.eraseIdx_cons_zero]

theorem fetchLoop_take (fuel : Nat) (h : availableIds pool x.pktIds + 1 = x.pktIds.length) :
    fetchLoop pool (fuel + 1) 0 (x :: nc) =
      (some (fetch pool x), x.pktIds.foldl (fun p id => p.erase id) pool, nc) := by
  rw [fetchLoop, List.getElem?_cons_zero]
  dsimp only
  rw [if_neg (by omega), if_pos (by omega), List.eraseIdx_cons_zero]

theorem fetchFromPacketPool_take (h : availableIds pool x.pktIds + 1 = x.pktIds.length) :
    fetchFromPacketPool ⟨pool, x :: nc⟩ =
      (some (fetch pool x), ⟨x.pktIds.foldl (fun p id => p.erase id) pool, nc⟩) := by
  have hl := length_available pool x
  have ha : (fetch pool x).active = x := rfl
  simp only [fetchFromPacketPool, List.length_cons, fetchLoop_take _ h, hl, ha]
  rw [if_neg (by omega), if_neg (by omega)]

theorem fetchLoop_past (hnc : nc.length ≤ 1) : fetchLoop pool nc.length 1 nc = (none, pool, nc) := by
  cases hl : nc.length with
  | zero => rfl
  | succ n => rw [fetchLoop, List.getElem?_eq_none (by omega)]

theorem fetchFromPacketPool_drop (h : availableIds pool x.pktIds + 1 ≠ x.pktIds.length)
    (hnc : nc.length ≤ 1) : fetchFromPacketPool ⟨pool, x :: nc⟩ = (none, ⟨pool, nc⟩) := by
  simp only [fetchFromPacketPool, List.length_cons, fetchLoop_drop _ h, fetchLoop_past hnc]

end Front

section Pair

variable {pool : PacketPool} {c m : UDPNCMessage} {id0 id1 : UInt64}

theorem fetch_first (hc : c.pktIds = [id0, id1]) (h0 : pool[id0]? = some m) (h1 : pool[id1]? = none) :
    availableIds pool c.pktIds = 1 ∧ fetch pool c = ⟨c, [(0, m)], 1⟩ := by
  have hm := mem_of_getElem? h0
  have hn := notMem_of_getElem? h1
  constructor
  · simp [availableIds, hc, hm, hn]
  · simp only [fetch, hc, List.zipIdx_cons, List.zipIdx_nil, List.filterMap_cons, List.filterMap_nil,
      h0, h1, Option.map_some, Option.map_none, List.foldl_cons, List.foldl_nil, hm, hn, if_true,
      if_false, Nat.zero_add]

theorem fetch_second (hc : c.pktIds = [id0, id1]) (h0 : pool[id0]? = none) (h1 : pool[id1]? = some m) :
    availableIds pool c.pktIds = 1 ∧ fetch pool c = ⟨c, [(1, m)], 0⟩ := by
  have hn := notMem_of_getElem? h0
  have hm := mem_of_getElem? h1
  constructor
  · simp [availableIds, hc, hm, hn]
  · simp only [fetch, hc, List.zipIdx_cons, List.zipIdx_nil, List.filterMap_cons, List.filterMap_nil,
      h0, h1, Option.map_some, Option.map_none, List.foldl_cons, List.foldl_nil, hm, hn, if_true,
      if_false, Nat.zero_add]

variable {K : Kodo} {i : Nat} {s : List UInt8} {checksum : UInt32}

theorem putAvailableInDecoder_pair (hi : i < maxSymbols) (hs : m.symbol = .ok s)
    (hx : checksumRange s m.sizeOf = .ok checksum) :
    putAvailableInDecoder K ⟨c, [(i, m)], 1 - i⟩ [0, 1] K.build 0 =
      .ok (K.readUncodedSymbol K.build s i, checksum) := by
  have hi' : i = 0 ∨ i = 1 := by simp only [maxSymbols] at hi; omega
  rcases hi' with rfl | rfl
  · simp [putAvailableInDecoder, List.lookup, hs, hx, bind, Except.bind]
  · simp [putAvailableInDecoder, List.lookup, hs, hx, bind, Except.bind]

theorem decode_pair {payload : List UInt8} (hc : c.pktIds.length = 2) (hi : i < maxSymbols)
    (hs : m.symbol = .ok s) (hx : checksumRange s m.sizeOf = .ok checksum)
    (hp : copyPayload c = .ok payload) :
    decode K ⟨c, [(i, m)], 1 - i⟩ =
      if K.isComplete (K.readPayload (K.readUncodedSymbol K.build s i) payload) = true then
        readSymbol c (K.dataOut (K.readPayload (K.readUncodedSymbol K.build s i) payload)) (1 - i)
          checksum
      else .ok none := by
  have hr : List.range c.pktIds.length = [0, 1] := by rw [hc]; rfl
  simp only [decode, hr, putAvailableInDecoder_pair hi hs hx, hp, bind, Except.bind]

theorem produceDecodedUDPNCMessage_pair {dec : UDPNCDecoder} (hnc : dec.ncPackets = [c])
    (hc : c.pktIds.length = 2) (ha : availableIds dec.packetPool c.pktIds = 1)
    {o : Option UDPNCMessage} (hd : decode K (fetch dec.packetPool c) = .ok o) :
    produceDecodedUDPNCMessage K dec =
      .ok (o, ⟨c.pktIds.foldl (fun p id => p.erase id) dec.packetPool, []⟩) := by
  have hl : ¬ (fetch dec.packetPool c).available.length ≠ 1 := by simp [length_available, ha]
  have hdec : dec = ⟨dec.packetPool, [c]⟩ := by rw [← hnc]
  have hf : fetchFromPacketPool ⟨dec.packetPool, [c]⟩ = _ := fetchFromPacketPool_take (by omega)
  rw [← hdec] at hf
  simp only [produceDecodedUDPNCMessage, hf, hl, if_false, hd, bind, Except.bind]

end Pair

end UDPNCDecoder

end VastNC
