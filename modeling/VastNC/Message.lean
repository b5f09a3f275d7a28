import VastNC.Header

/-! `UDPNCMessage`: a header, one (packet id, from id, to address) triple for each
combined packet, and a payload. -/

namespace VastNC

open LittleEndian

def maxSymbols : Nat := 2

def maxPacketSize : Nat := 500

/-- `socketAddr` only travels inside this host and is not serialized. -/
structure UDPNCMessage where
  header : UDPNCHeader
  pktIds : List UInt64 := []
  fromIds : List UInt64 := []
  toAddrs : List IPaddr := []
  msg : List UInt8 := []
  checksum : UInt32 := 0
  socketAddr : IPaddr := ⟨0, 0, 0⟩
  deriving DecidableEq, Repr, Inhabited

/-- One step of the table-free CRC-32 used by `boost::crc_32_type` (reflected
polynomial `0xEDB88320`). -/
def crcBit (c : UInt32) : UInt32 :=
  if c &&& 1 = 1 then (c >>> 1) ^^^ 0xEDB88320 else c >>> 1

def crcByte (c : UInt32) (b : UInt8) : UInt32 :=
  crcBit (crcBit (crcBit (crcBit (crcBit (crcBit (crcBit (crcBit (c ^^^ b.toUInt32))))))))

def generateChecksum (bs : List UInt8) : UInt32 :=
  bs.foldl crcByte 0xFFFFFFFF ^^^ 0xFFFFFFFF

namespace UDPNCMessage

/-- The default constructor; it leaves the header as the memory was. -/
def new (header : UDPNCHeader) : UDPNCMessage := { header }

def getFirstFromId (m : UDPNCMessage) : Except Fault UInt64 := front m.fromIds

def getMessageSize (m : UDPNCMessage) : Nat := m.header.packetsize.toNat

def getOrdering (m : UDPNCMessage) : UInt8 := m.header.ordering

def putPacketId (m : UDPNCMessage) (pktId : UInt64) (autonumber : Bool) : UDPNCMessage :=
  let ids := m.pktIds ++ [pktId]
  if autonumber then
    { m with pktIds := ids, header := { m.header with encPacketCount := UInt8.ofNat ids.length } }
  else { m with pktIds := ids }

def putFromId (m : UDPNCMessage) (fromId : UInt64) : UDPNCMessage :=
  { m with fromIds := m.fromIds ++ [fromId] }

def putToAddr (m : UDPNCMessage) (addr : IPaddr) : UDPNCMessage :=
  { m with toAddrs := m.toAddrs ++ [addr] }

def putIdsAddr (m : UDPNCMessage) (pktId fromId : UInt64) (addr : IPaddr) (autonumber : Bool) :
    UDPNCMessage :=
  ((m.putPacketId pktId autonumber).putFromId fromId).putToAddr addr

def putMessage (m : UDPNCMessage) (buffer : List UInt8) : UDPNCMessage :=
  { m with
    msg := buffer
    header := { m.header with packetsize := BitVec.ofNat 24 buffer.length } }

def putOrdering (m : UDPNCMessage) (ordering : UInt8) : UDPNCMessage :=
  { m with header := { m.header with ordering } }

def setChecksum (m : UDPNCMessage) (checksum : UInt32) : UDPNCMessage := { m with checksum }

def single (header : UDPNCHeader) (pktId fromId : UInt64) (addr : IPaddr) (ordering : UInt8)
    (body : List UInt8) : UDPNCMessage :=
  ((((new header).putMessage body).putPacketId pktId true).putOrdering ordering
    |>.putFromId fromId).putToAddr addr

/-- The factor of the address term binds only its first summand, as in the source. -/
def sizeOf (m : UDPNCMessage) : Nat :=
  let count := m.header.encPacketCount.toNat
  sizeofHeader + count * 8 + count * 8 + (count * 4 + 2 * 2) + m.header.packetsize.toNat + 4

def entryBytes (pktId fromId : UInt64) (addr : IPaddr) : List UInt8 :=
  toLE 8 pktId.toNat ++ toLE 8 fromId.toNat ++ addr.serialize

def serializeEntry (m : UDPNCMessage) (i : Nat) : Except Fault (List UInt8) :=
  match m.pktIds[i]?, m.fromIds[i]?, m.toAddrs[i]? with
  | some pktId, some fromId, some addr => .ok (entryBytes pktId fromId addr)
  | _, _, _ => .error (.undefined "index past the end of a vector")

def serializeEntries (m : UDPNCMessage) : Nat → Except Fault (List UInt8)
  | 0 => .ok []
  | k + 1 => do
    let done ← m.serializeEntries k
    let entry ← m.serializeEntry k
    .ok (done ++ entry)

def serializeNull (m : UDPNCMessage) : Nat := m.sizeOf

/-- `serialize (buffer)`: the bytes stored from `buffer` on, and the returned count.
`msg.copy` stores at most the bytes the string has. -/
def serialize (m : UDPNCMessage) : Except Fault (List UInt8 × Nat) := do
  if m.pktIds.length = m.fromIds.length ∧ m.fromIds.length = m.toAddrs.length then
    let entries ← m.serializeEntries m.header.encPacketCount.toNat
    .ok (m.header.toBytes ++ toLE 4 m.checksum.toNat ++ entries ++ m.msg.take m.getMessageSize,
      sizeofHeader + 4 + m.header.encPacketCount.toNat * (8 + 8 + 8) + m.getMessageSize)
  else
    .error (.logicError
      s!"pkt_ids [{m.pktIds.length}], from_ids [{m.fromIds.length}] and to_addrs [{m.toAddrs.length}] is not the same size")

def addrsEqual (as bs : List IPaddr) : Bool := as.isEqv bs IPaddr.equals

def contentEquals (m other : UDPNCMessage) : Bool :=
  UDPNCHeader.isUDPNCHeadersEqual other.header m.header && other.pktIds == m.pktIds &&
    other.fromIds == m.fromIds && addrsEqual other.toAddrs m.toAddrs &&
    other.header.packetsize == m.header.packetsize && other.msg == m.msg &&
    other.checksum == m.checksum

/-- `UDPNCMessage::operator==`. -/
def equals (m other : UDPNCMessage) : Bool :=
  UDPNCHeader.isUDPNCHeadersEqual other.header m.header && other.pktIds == m.pktIds &&
    other.fromIds == m.fromIds && addrsEqual other.toAddrs m.toAddrs &&
    other.header.packetsize == m.header.packetsize && other.msg == m.msg &&
    other.socketAddr.equals m.socketAddr && other.checksum == m.checksum

theorem addrsEqual_self (as : List IPaddr) : addrsEqual as as = true := by
  induction as with
  | nil => rfl
  | cons a as ih => simpa [addrsEqual, List.isEqv] using ih

theorem equals_self (m : UDPNCMessage) : m.equals m = true := by
  simp [equals, UDPNCHeader.isUDPNCHeadersEqual, addrsEqual_self]

theorem contentEquals_iff (m other : UDPNCMessage) :
    m.contentEquals other = true ↔
      other.header = m.header ∧ other.pktIds = m.pktIds ∧ other.fromIds = m.fromIds ∧
      addrsEqual other.toAddrs m.toAddrs = true ∧ other.msg = m.msg ∧
      other.checksum = m.checksum := by
  simp only [contentEquals, Bool.and_eq_true, beq_iff_eq, UDPNCHeader.isUDPNCHeadersEqual_iff]
  constructor
  · rintro ⟨⟨⟨⟨⟨⟨hh, hp⟩, hf⟩, ha⟩, -⟩, hm⟩, hc⟩
    exact ⟨hh, hp, hf, ha, hm, hc⟩
  · rintro ⟨hh, hp, hf, ha, hm, hc⟩
    exact ⟨⟨⟨⟨⟨⟨hh, hp⟩, hf⟩, ha⟩, by rw [hh]⟩, hm⟩, hc⟩

def generatePacketId (id : UInt64) (sequenceNumber : Int) : UInt64 :=
  let x := id + 0x9e3779b97f4a7c15
  let x := x ^^^ (x >>> 30)
  let x := x * 0xbf58476d1ce4e5b9
  let x := x ^^^ (x >>> 27)
  let x := x * 0x94d049bb133111eb
  let x := x ^^^ (x >>> 31)
  x + UInt64.ofInt sequenceNumber

@[simp] theorem length_entryBytes (pktId fromId : UInt64) (addr : IPaddr) :
    (entryBytes pktId fromId addr).length = 24 := by simp [entryBytes]

/-- The three lists have one entry for each counted id, and `packetsize` is the
length of the payload. -/
structure Sized (m : UDPNCMessage) (n : Nat) : Prop where
  count : m.header.encPacketCount.toNat = n
  pktIds : m.pktIds.length = n
  fromIds : m.fromIds.length = n
  toAddrs : m.toAddrs.length = n
  packetsize : m.getMessageSize = m.msg.length

theorem single_sized (header : UDPNCHeader) (pktId fromId : UInt64) (addr : IPaddr)
    (ordering : UInt8) {body : List UInt8} (h : body.length < 2 ^ 24) :
    (single header pktId fromId addr ordering body).Sized 1 where
  count := rfl
  pktIds := rfl
  fromIds := rfl
  toAddrs := rfl
  packetsize := Nat.mod_eq_of_lt h

def entries (m : UDPNCMessage) (k : Nat) : List UInt8 :=
  (List.range k).flatMap
    (fun i => entryBytes (m.pktIds.getD i 0) (m.fromIds.getD i 0) (m.toAddrs.getD i default))

def wire (m : UDPNCMessage) : List UInt8 :=
  m.header.toBytes ++ toLE 4 m.checksum.toNat ++ m.entries m.header.encPacketCount.toNat ++ m.msg

theorem entries_succ (m : UDPNCMessage) (k : Nat) :
    m.entries (k + 1) = m.entries k ++
      entryBytes (m.pktIds.getD k 0) (m.fromIds.getD k 0) (m.toAddrs.getD k default) := by
  simp [entries, List.range_succ]

@[simp] theorem length_entries (m : UDPNCMessage) (k : Nat) : (m.entries k).length = 24 * k := by
  induction k with
  | zero => rfl
  | succ k ih => simp only [entries_succ, List.length_append, ih, length_entryBytes]; omega

theorem serializeEntries_eq {m : UDPNCMessage} {n k : Nat} (h : m.Sized n) (hk : k ≤ n) :
    m.serializeEntries k = .ok (m.entries k) := by
  induction k with
  | zero => rfl
  | succ k ih =>
    have hp : k < m.pktIds.length := by have := h.pktIds; omega
    have hf : k < m.fromIds.length := by have := h.fromIds; omega
    have ha : k < m.toAddrs.length := by have := h.toAddrs; omega
    have he : m.serializeEntry k = .ok (entryBytes (m.pktIds.getD k 0) (m.fromIds.getD k 0)
        (m.toAddrs.getD k default)) := by
      simp [serializeEntry, List.getD_eq_getElem?_getD, hp, hf, ha]
    rw [serializeEntries, ih (by omega), he, entries_succ]
    rfl

theorem length_wire {m : UDPNCMessage} {n : Nat} (h : m.Sized n) :
    m.wire.length = 12 + 24 * n + m.getMessageSize := by
  simp only [wire, List.length_append, UDPNCHeader.length_toBytes, length_toLE, length_entries,
    h.count, h.packetsize]

theorem serialize_eq {m : UDPNCMessage} {n : Nat} (h : m.Sized n) :
    m.serialize = .ok (m.wire, 12 + 24 * n + m.getMessageSize) := by
  have hl : m.pktIds.length = m.fromIds.length ∧ m.fromIds.length = m.toAddrs.length := by
    rw [h.pktIds, h.fromIds, h.toAddrs]
    exact ⟨rfl, rfl⟩
  have he := serializeEntries_eq h (k := m.header.encPacketCount.toNat) h.count.le
  have hm : m.msg.take m.getMessageSize = m.msg := by rw [h.packetsize, List.take_length]
  have hn : sizeofHeader + 4 + m.header.encPacketCount.toNat * (8 + 8 + 8) + m.getMessageSize =
      12 + 24 * n + m.getMessageSize := by rw [h.count, sizeofHeader]; omega
  simp only [serialize, hl, and_self, if_true, he, hm, hn]
  rfl

end UDPNCMessage

end VastNC
