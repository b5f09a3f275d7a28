import VastNC.Message

/-! `UDPNCMessage::deserialize` on a memory that goes on behind the datagram. The
parser keeps the list of its buffer accesses and of the lengths it computes. -/

namespace VastNC

open LittleEndian

inductive Access where
  | read (off len : Nat)
  | length (z : Int)
  deriving DecidableEq, Repr

/-- A difference stored in a `size_t`. -/
def toSizeT (z : Int) : Nat := if z < 0 then 2 ^ 64 - z.natAbs else z.toNat

def stringMaxSize : Nat := 2 ^ 63 - 1

structure Scan where
  n : Nat
  msg : UDPNCMessage
  trace : List Access

/-- The message is what the object holds when the call ends, also when it fails. -/
structure Parse where
  ret : Except Fault Int
  msg : UDPNCMessage
  trace : List Access

def readU64 (buf : Nat → UInt8) (off : Nat) : UInt64 := UInt64.ofNat (ofLE (window buf off 8))

/-- `IPaddr::deserialize` into a default address: nothing is copied when the size
it is given is too small. -/
def readAddr (buf : Nat → UInt8) (off : Nat) (remaining : Int) : IPaddr × List Access :=
  if 8 ≤ toSizeT remaining then (IPaddr.ofBytes (window buf off 8), [.read off 8])
  else (⟨0, 0, 0⟩, [])

def scanEntry (buf : Nat → UInt8) (size : Nat) (s : Scan) (i : Nat) : Scan :=
  let remaining : Int := size - sizeofHeader - i * (8 + 8 + 8)
  let addr := readAddr buf (s.n + 16) remaining
  { n := s.n + 24
    msg := s.msg.putIdsAddr (readU64 buf s.n) (readU64 buf (s.n + 8)) addr.1 false
    trace := s.trace ++ [.read s.n 8, .read (s.n + 8) 8, .length remaining] ++ addr.2 }

def scanEntries (buf : Nat → UInt8) (size : Nat) (s : Scan) (count : Nat) : Scan :=
  (List.range count).foldl (scanEntry buf size) s

def headerOf (buf : Nat → UInt8) : UDPNCHeader := UDPNCHeader.ofBytes (window buf 0 8)

def checksumOf (buf : Nat → UInt8) : UInt32 := UInt32.ofNat (ofLE (window buf 8 4))

def UDPNCMessage.assignMsg (m : UDPNCMessage) (body : List UInt8) : UDPNCMessage :=
  { m with msg := body }

/-- What follows the table: `packetsize` is compared with the whole datagram only. -/
def readBody (buf : Nat → UInt8) (size packetsize : Nat) (s : Scan) : Parse :=
  if size < packetsize then
    let rest : Int := size - s.n
    if stringMaxSize < toSizeT rest then ⟨.error .lengthError, s.msg, s.trace ++ [.length rest]⟩
    else
      ⟨.ok (-1), s.msg.assignMsg (window buf s.n rest.toNat),
        s.trace ++ [.length rest, .read s.n rest.toNat]⟩
  else
    ⟨.ok (s.n + packetsize), s.msg.assignMsg (window buf s.n packetsize),
      s.trace ++ [.read s.n packetsize]⟩

/-- The header is copied before anything is checked; a foreign header is dumped
ten bytes wide. -/
def UDPNCMessage.deserialize (self : UDPNCMessage) (buf : Nat → UInt8) (size : Nat) : Parse :=
  if size ≤ sizeofHeader then ⟨.ok 0, self, []⟩
  else if (headerOf buf).isUDPNCHeader = false then
    ⟨.ok (-1), { self with header := headerOf buf }, [.read 0 8, .read 0 10]⟩
  else
    readBody buf size (headerOf buf).packetsize.toNat
      (scanEntries buf size
        ⟨12, { self with header := headerOf buf, checksum := checksumOf buf }, [.read 0 8, .read 8 4]⟩
        (headerOf buf).encPacketCount.toNat)

/-- A received datagram: the buffer it was received into, its length, and what the
local message object held before `deserialize` filled it. -/
structure Datagram where
  buf : Nat → UInt8
  size : Nat
  junk : UDPNCHeader

def Datagram.parse (d : Datagram) : Parse := (UDPNCMessage.new d.junk).deserialize d.buf d.size

def Datagram.Complete (d : Datagram) : Prop :=
  ∃ k : Int, d.parse.ret = .ok k ∧ 0 < k ∧ k ≤ d.size

/-- The message that a memory spells out at offset `0`, every field at its place. -/
def messageAt (buf : Nat → UInt8) : UDPNCMessage where
  header := headerOf buf
  pktIds := (List.range (headerOf buf).encPacketCount.toNat).map (fun i => readU64 buf (12 + 24 * i))
  fromIds := (List.range (headerOf buf).encPacketCount.toNat).map
    (fun i => readU64 buf (12 + 24 * i + 8))
  toAddrs := (List.range (headerOf buf).encPacketCount.toNat).map
    (fun i => IPaddr.ofBytes (window buf (12 + 24 * i + 16) 8))
  msg := window buf (12 + 24 * (headerOf buf).encPacketCount.toNat) (headerOf buf).packetsize.toNat
  checksum := checksumOf buf

def tableSize (h : UDPNCHeader) : Nat := 12 + 24 * h.encPacketCount.toNat

theorem toSizeT_of_nonneg {z : Int} (h : 0 ≤ z) : toSizeT z = z.toNat := by
  simp [toSizeT, not_lt.mpr h]

theorem scanEntries_succ (buf : Nat → UInt8) (size : Nat) (s : Scan) (k : Nat) :
    scanEntries buf size s (k + 1) = scanEntry buf size (scanEntries buf size s k) k := by
  simp [scanEntries, List.range_succ]

theorem scanEntries_n (buf : Nat → UInt8) (size : Nat) (s : Scan) (k : Nat) :
    (scanEntries buf size s k).n = s.n + 24 * k := by
  induction k with
  | zero => rfl
  | succ k ih =>
    rw [scanEntries_succ]
    simp only [scanEntry, ih]
    omega

theorem scanEntries_frame (buf : Nat → UInt8) (size : Nat) (s : Scan) (k : Nat) :
    (scanEntries buf size s k).msg.header = s.msg.header ∧
    (scanEntries buf size s k).msg.msg = s.msg.msg ∧
    (scanEntries buf size s k).msg.checksum = s.msg.checksum ∧
    (scanEntries buf size s k).msg.socketAddr = s.msg.socketAddr := by
  induction k with
  | zero => exact ⟨rfl, rfl, rfl, rfl⟩
  | succ k ih =>
    rw [scanEntries_succ]
    exact ih

theorem scanEntries_ids (buf : Nat → UInt8) (size : Nat) (s : Scan) (k : Nat) :
    (scanEntries buf size s k).msg.pktIds =
      s.msg.pktIds ++ (List.range k).map (fun i => readU64 buf (s.n + 24 * i)) ∧
    (scanEntries buf size s k).msg.fromIds =
      s.msg.fromIds ++ (List.range k).map (fun i => readU64 buf (s.n + 24 * i + 8)) := by
  induction k with
  | zero => simp [scanEntries]
  | succ k ih =>
    have hn := scanEntries_n buf size s k
    rw [scanEntries_succ]
    simp only [scanEntry, UDPNCMessage.putIdsAddr, UDPNCMessage.putPacketId,
      UDPNCMessage.putFromId, UDPNCMessage.putToAddr, ih.1, ih.2, hn, List.range_succ,
      List.map_append, List.map_cons, List.map_nil, List.append_assoc, Bool.false_eq_true,
      if_false, and_self]

theorem scanEntries_toAddrs (buf : Nat → UInt8) {size k : Nat} (s : Scan) (h : 12 + 24 * k ≤ size) :
    (scanEntries buf size s k).msg.toAddrs =
      s.msg.toAddrs ++
        (List.range k).map (fun i => IPaddr.ofBytes (window buf (s.n + 24 * i + 16) 8)) := by
  induction k with
  | zero => simp [scanEntries]
  | succ k ih =>
    have hn := scanEntries_n buf size s k
    have hr : 8 ≤ toSizeT ((size : Int) - sizeofHeader - k * (8 + 8 + 8)) := by
      rw [toSizeT_of_nonneg (by simp only [sizeofHeader]; omega)]
      simp only [sizeofHeader]
      omega
    rw [scanEntries_succ]
    simp only [scanEntry, readAddr, hr, if_true, UDPNCMessage.putIdsAddr,
      UDPNCMessage.putPacketId, UDPNCMessage.putFromId, UDPNCMessage.putToAddr, ih (by omega), hn,
      List.range_succ, List.map_append, List.map_cons, List.map_nil, List.append_assoc,
      Bool.false_eq_true, if_false]

theorem scanEntries_messageAt {buf : Nat → UInt8} {size : Nat} {s : Scan}
    (hn : s.n = 12) (hm : s.msg = { UDPNCMessage.new (headerOf buf) with checksum := checksumOf buf })
    (h : tableSize (headerOf buf) ≤ size) (body : List UInt8) :
    (scanEntries buf size s (headerOf buf).encPacketCount.toNat).msg.assignMsg body =
      (messageAt buf).assignMsg body := by
  obtain ⟨hh, -, hc, ha⟩ := scanEntries_frame buf size s (headerOf buf).encPacketCount.toNat
  obtain ⟨hp, hf⟩ := scanEntries_ids buf size s (headerOf buf).encPacketCount.toNat
  have ht := scanEntries_toAddrs buf s (k := (headerOf buf).encPacketCount.toNat) h
  rw [hm] at hh hc ha hp hf ht
  rw [hn] at hp hf ht
  simp only [UDPNCMessage.assignMsg, hh, hc, ha, hp, hf, ht, messageAt, UDPNCMessage.new,
    List.nil_append]

theorem readBody_whole {buf : Nat → UInt8} {size packetsize : Nat} {s : Scan}
    (h : packetsize ≤ size) :
    readBody buf size packetsize s = ⟨.ok (s.n + packetsize),
      s.msg.assignMsg (window buf s.n packetsize), s.trace ++ [.read s.n packetsize]⟩ := by
  rw [readBody, if_neg (by omega)]

theorem readBody_cut {buf : Nat → UInt8} {size packetsize : Nat} {s : Scan}
    (hp : packetsize < 2 ^ 24) (h : size < packetsize) (hn : s.n ≤ size) :
    readBody buf size packetsize s = ⟨.ok (-1), s.msg.assignMsg (window buf s.n (size - s.n)),
      s.trace ++ [.length ((size : Int) - s.n), .read s.n (size - s.n)]⟩ := by
  have hr : ((size : Int) - s.n).toNat = size - s.n := by omega
  have hw : ¬ stringMaxSize < toSizeT ((size : Int) - s.n) := by
    rw [toSizeT_of_nonneg (by omega), stringMaxSize]
    omega
  simp only [readBody, if_pos h, if_neg hw, hr]

theorem readBody_overrun {buf : Nat → UInt8} {size packetsize : Nat} {s : Scan}
    (hn : s.n < 2 ^ 24) (h : size < packetsize) (hlt : size < s.n) :
    readBody buf size packetsize s =
      ⟨.error .lengthError, s.msg, s.trace ++ [.length ((size : Int) - s.n)]⟩ := by
  have hw : stringMaxSize < toSizeT ((size : Int) - s.n) := by
    rw [toSizeT, if_pos (by omega), stringMaxSize]
    omega
  simp only [readBody, if_pos h, if_pos hw]

theorem tableSize_lt (h : UDPNCHeader) : tableSize h < 2 ^ 24 := by
  have := h.encPacketCount.toNat_lt
  simp only [tableSize]
  omega

namespace Datagram

variable {d : Datagram}

def header (d : Datagram) : UDPNCHeader := headerOf d.buf

def packetsize (d : Datagram) : Nat := d.header.packetsize.toNat

theorem parse_short (h : d.size ≤ 8) : d.parse = ⟨.ok 0, UDPNCMessage.new d.junk, []⟩ := by
  simp [parse, UDPNCMessage.deserialize, sizeofHeader, h]

theorem parse_foreign (h : 8 < d.size) (hv : d.header.isUDPNCHeader = false) :
    d.parse = ⟨.ok (-1), { UDPNCMessage.new d.junk with header := d.header },
      [.read 0 8, .read 0 10]⟩ := by
  have hv' : (headerOf d.buf).isUDPNCHeader = false := hv
  simp [parse, UDPNCMessage.deserialize, sizeofHeader, not_le.mpr h, hv', header]

def scan (d : Datagram) : Scan :=
  scanEntries d.buf d.size
    ⟨12, { UDPNCMessage.new d.junk with header := d.header, checksum := checksumOf d.buf },
      [.read 0 8, .read 8 4]⟩ d.header.encPacketCount.toNat

theorem scan_n (d : Datagram) : d.scan.n = tableSize d.header := scanEntries_n _ _ _ _

theorem scan_assignMsg (ht : tableSize d.header ≤ d.size) (body : List UInt8) :
    d.scan.msg.assignMsg body = (messageAt d.buf).assignMsg body :=
  scanEntries_messageAt rfl rfl ht body

theorem parse_valid (h : 8 < d.size) (hv : d.header.isUDPNCHeader = true) :
    d.parse = readBody d.buf d.size d.packetsize d.scan := by
  have hv' : ¬ (headerOf d.buf).isUDPNCHeader = false := by
    simp [show (headerOf d.buf).isUDPNCHeader = true from hv]
  rw [parse, UDPNCMessage.deserialize, if_neg (by rw [sizeofHeader]; omega), if_neg hv']
  rfl

theorem parse_overrun (h : 8 < d.size) (hv : d.header.isUDPNCHeader = true)
    (hp : d.size < d.packetsize) (ht : d.size < tableSize d.header) :
    d.parse = ⟨.error .lengthError, d.scan.msg,
      d.scan.trace ++ [.length ((d.size : Int) - tableSize d.header)]⟩ := by
  rw [parse_valid h hv, readBody_overrun (by rw [scan_n]; exact tableSize_lt _) hp
    (by rw [scan_n]; exact ht), scan_n]

theorem parse_cut (h : 8 < d.size) (hv : d.header.isUDPNCHeader = true)
    (hp : d.size < d.packetsize) (ht : tableSize d.header ≤ d.size) :
    d.parse = ⟨.ok (-1),
      (messageAt d.buf).assignMsg (window d.buf (tableSize d.header) (d.size - tableSize d.header)),
      d.scan.trace ++ [.length ((d.size : Int) - tableSize d.header),
        .read (tableSize d.header) (d.size - tableSize d.header)]⟩ := by
  have hlt : d.packetsize < 2 ^ 24 := d.header.packetsize.isLt
  rw [parse_valid h hv, readBody_cut hlt hp (by rw [scan_n]; exact ht), scan_n, scan_assignMsg ht]

theorem parse_taken (h : 8 < d.size) (hv : d.header.isUDPNCHeader = true)
    (hp : d.packetsize ≤ d.size) :
    d.parse = ⟨.ok (tableSize d.header + d.packetsize),
      d.scan.msg.assignMsg (window d.buf (tableSize d.header) d.packetsize),
      d.scan.trace ++ [.read (tableSize d.header) d.packetsize]⟩ := by
  rw [parse_valid h hv, readBody_whole hp, scan_n]

theorem parse_whole (h : 8 < d.size) (hv : d.header.isUDPNCHeader = true)
    (hk : tableSize d.header + d.packetsize ≤ d.size) :
    d.parse.ret = .ok (tableSize d.header + d.packetsize) ∧ d.parse.msg = messageAt d.buf := by
  rw [parse_taken h hv (by omega)]
  exact ⟨rfl, scan_assignMsg (by omega) _⟩

theorem ret_pos {k : Int} (h : d.parse.ret = .ok k) (hk : 0 < k) :
    8 < d.size ∧ d.header.isUDPNCHeader = true ∧ d.packetsize ≤ d.size ∧
      k = tableSize d.header + d.packetsize := by
  by_cases hs : d.size ≤ 8
  · rw [parse_short hs] at h
    simp only [Except.ok.injEq] at h
    omega
  · have hs' : 8 < d.size := by omega
    cases hv : d.header.isUDPNCHeader with
    | false =>
      rw [parse_foreign hs' hv] at h
      simp only [Except.ok.injEq] at h
      omega
    | true =>
      by_cases hp : d.size < d.packetsize
      · by_cases ht : d.size < tableSize d.header
        · simp [parse_overrun hs' hv hp ht] at h
        · rw [parse_cut hs' hv hp (by omega)] at h
          simp only [Except.ok.injEq] at h
          omega
      · rw [parse_taken hs' hv (by omega)] at h
        simp only [Except.ok.injEq] at h
        exact ⟨hs', rfl, by omega, h.symm⟩

theorem ret_nonpos {k : Int} (h : d.parse.ret = .ok k) (hk : k ≤ 0) :
    d.size ≤ 8 ∨ (8 < d.size ∧ d.header.isUDPNCHeader = false) ∨
      (8 < d.size ∧ d.header.isUDPNCHeader = true ∧ d.size < d.packetsize ∧
        tableSize d.header ≤ d.size) := by
  by_cases hs : d.size ≤ 8
  · exact .inl hs
  · have hs' : 8 < d.size := by omega
    cases hv : d.header.isUDPNCHeader with
    | false => exact .inr (.inl ⟨hs', rfl⟩)
    | true =>
      by_cases hp : d.size < d.packetsize
      · by_cases ht : d.size < tableSize d.header
        · simp [parse_overrun hs' hv hp ht] at h
        · exact .inr (.inr ⟨hs', rfl, hp, by omega⟩)
      · rw [parse_taken hs' hv (by omega)] at h
        simp only [Except.ok.injEq, tableSize] at h
        omega

theorem Complete.spec (h : d.Complete) :
    8 < d.size ∧ d.header.isUDPNCHeader = true ∧
      tableSize d.header + d.packetsize ≤ d.size ∧ d.parse.msg = messageAt d.buf ∧
      d.parse.ret = .ok (tableSize d.header + d.packetsize) := by
  obtain ⟨k, hr, hk, hle⟩ := h
  obtain ⟨hs, hv, hp, rfl⟩ := ret_pos hr hk
  have hw := parse_whole hs hv (by omega)
  exact ⟨hs, hv, by omega, hw.2, hw.1⟩

end Datagram

end VastNC
