import VastNC.Types

/-! The bit-packed header of every UDPNC datagram and the factory that builds it. -/

namespace VastNC

open LittleEndian

/-- The two 32-bit words of `UDPNCHeader`; bit fields are allocated from the
least significant bit. -/
structure UDPNCHeader where
  start : BitVec 4
  ordering : UInt8
  gensize : BitVec 4
  generation : UInt8
  encPacketCount : UInt8
  packetsize : BitVec 24
  padding : BitVec 4
  endMarker : BitVec 4
  deriving DecidableEq, Repr, Inhabited

def startBits : BitVec 4 := 0xD#4

def endBits : BitVec 4 := 0xE#4

def sizeofHeader : Nat := 8

namespace UDPNCHeader

def word0 (h : UDPNCHeader) : Nat :=
  h.start.toNat + 2 ^ 4 * h.ordering.toNat + 2 ^ 12 * h.gensize.toNat +
    2 ^ 16 * h.generation.toNat + 2 ^ 24 * h.encPacketCount.toNat

def word1 (h : UDPNCHeader) : Nat :=
  h.packetsize.toNat + 2 ^ 24 * h.padding.toNat + 2 ^ 28 * h.endMarker.toNat

def ofWords (w0 w1 : Nat) : UDPNCHeader where
  start := BitVec.ofNat 4 w0
  ordering := UInt8.ofNat (w0 / 2 ^ 4)
  gensize := BitVec.ofNat 4 (w0 / 2 ^ 12)
  generation := UInt8.ofNat (w0 / 2 ^ 16)
  encPacketCount := UInt8.ofNat (w0 / 2 ^ 24)
  packetsize := BitVec.ofNat 24 w1
  padding := BitVec.ofNat 4 (w1 / 2 ^ 24)
  endMarker := BitVec.ofNat 4 (w1 / 2 ^ 28)

/-- The object representation that `memcpy` moves. -/
def toBytes (h : UDPNCHeader) : List UInt8 := toLE 4 h.word0 ++ toLE 4 h.word1

def ofBytes (bs : List UInt8) : UDPNCHeader :=
  ofWords (ofLE (bs.take 4)) (ofLE ((bs.drop 4).take 4))

@[simp] theorem length_toBytes (h : UDPNCHeader) : h.toBytes.length = 8 := by simp [toBytes]

theorem word0_lt (h : UDPNCHeader) : h.word0 < 256 ^ 4 := by
  have h1 := h.start.isLt
  have h2 := h.ordering.toNat_lt
  have h3 := h.gensize.isLt
  have h4 := h.generation.toNat_lt
  have h5 := h.encPacketCount.toNat_lt
  simp only [word0]
  omega

theorem word1_lt (h : UDPNCHeader) : h.word1 < 256 ^ 4 := by
  have h1 := h.packetsize.isLt
  have h2 := h.padding.isLt
  have h3 := h.endMarker.isLt
  simp only [word1]
  omega

theorem ofWords_words (h : UDPNCHeader) : ofWords h.word0 h.word1 = h := by
  obtain ⟨start, ordering, gensize, generation, count, packetsize, padding, endMarker⟩ := h
  have h1 := start.isLt
  have h2 := ordering.toNat_lt
  have h3 := gensize.isLt
  have h4 := generation.toNat_lt
  have h5 := count.toNat_lt
  have h6 := packetsize.isLt
  have h7 := padding.isLt
  have h8 := endMarker.isLt
  simp only [ofWords, word0, word1, UDPNCHeader.mk.injEq]
  refine ⟨?_, ?_, ?_, ?_, ?_, ?_, ?_, ?_⟩
  · exact BitVec.eq_of_toNat_eq (by rw [BitVec.toNat_ofNat]; omega)
  · exact UInt8.toNat_inj.mp (by rw [UInt8.toNat_ofNat']; omega)
  · exact BitVec.eq_of_toNat_eq (by rw [BitVec.toNat_ofNat]; omega)
  · exact UInt8.toNat_inj.mp (by rw [UInt8.toNat_ofNat']; omega)
  · exact UInt8.toNat_inj.mp (by rw [UInt8.toNat_ofNat']; omega)
  · exact BitVec.eq_of_toNat_eq (by rw [BitVec.toNat_ofNat]; omega)
  · exact BitVec.eq_of_toNat_eq (by rw [BitVec.toNat_ofNat]; omega)
  · exact BitVec.eq_of_toNat_eq (by rw [BitVec.toNat_ofNat]; omega)

theorem words_ofWords {w0 w1 : Nat} (h0 : w0 < 256 ^ 4) (h1 : w1 < 256 ^ 4) :
    (ofWords w0 w1).word0 = w0 ∧ (ofWords w0 w1).word1 = w1 := by
  simp only [ofWords, word0, word1, BitVec.toNat_ofNat, UInt8.toNat_ofNat']
  omega

theorem ofBytes_toBytes (h : UDPNCHeader) : ofBytes h.toBytes = h := by
  have e4 : h.toBytes.take 4 = toLE 4 h.word0 := List.take_left' (by simp)
  have e8 : (h.toBytes.drop 4).take 4 = toLE 4 h.word1 := by
    rw [toBytes, List.drop_left' (by simp), List.take_of_length_le (by simp)]
  rw [ofBytes, e4, e8, ofLE_toLE_of_lt h.word0_lt, ofLE_toLE_of_lt h.word1_lt, ofWords_words]

theorem toBytes_ofBytes {bs : List UInt8} (h : bs.length = 8) : (ofBytes bs).toBytes = bs := by
  have e4 : (bs.take 4).length = 4 := by simp [h]
  have e8 : ((bs.drop 4).take 4).length = 4 := by simp [h]
  have h0 := ofLE_lt (bs.take 4)
  have h1 := ofLE_lt ((bs.drop 4).take 4)
  rw [e4] at h0
  rw [e8] at h1
  obtain ⟨hw0, hw1⟩ := words_ofWords h0 h1
  have hlast : (bs.drop 4).take 4 = bs.drop 4 := List.take_of_length_le (by simp [h])
  have t0 : toLE 4 (ofLE (bs.take 4)) = bs.take 4 := by
    simpa only [e4] using toLE_ofLE (bs.take 4)
  have t1 : toLE 4 (ofLE ((bs.drop 4).take 4)) = (bs.drop 4).take 4 := by
    simpa only [e8] using toLE_ofLE ((bs.drop 4).take 4)
  rw [toBytes, ofBytes, hw0, hw1, t0, t1, hlast, List.take_append_drop]

def isUDPNCHeader (h : UDPNCHeader) : Bool := h.start == startBits && h.endMarker == endBits

def isUDPNCHeadersEqual (h1 h2 : UDPNCHeader) : Bool :=
  h1.start == h2.start && h1.ordering == h2.ordering && h1.packetsize == h2.packetsize &&
    h1.gensize == h2.gensize && h1.generation == h2.generation &&
    h1.encPacketCount == h2.encPacketCount && h1.padding == h2.padding &&
    h1.endMarker == h2.endMarker

theorem isUDPNCHeadersEqual_iff (h1 h2 : UDPNCHeader) :
    isUDPNCHeadersEqual h1 h2 = true ↔ h1 = h2 := by
  obtain ⟨a1, a2, a3, a4, a5, a6, a7, a8⟩ := h1
  obtain ⟨b1, b2, b3, b4, b5, b6, b7, b8⟩ := h2
  simp only [isUDPNCHeadersEqual, Bool.and_eq_true, beq_iff_eq, UDPNCHeader.mk.injEq]
  tauto

end UDPNCHeader

/-- `UDPNCHeader_factory`. Its constructors write only the header member, which
`build` overwrites from the counters below; `padding` is never written and keeps
whatever bits the member was created with. -/
structure UDPNCHeaderFactory where
  padding : BitVec 4
  ordering : Nat := 0
  gensize : Nat := 0
  generation : Nat := 0
  deriving DecidableEq, Repr

def UDPNCHeaderFactory.build (f : UDPNCHeaderFactory) : UDPNCHeader × UDPNCHeaderFactory :=
  ({ start := startBits
     ordering := UInt8.ofNat (f.ordering + 1)
     gensize := BitVec.ofNat 4 f.gensize
     generation := UInt8.ofNat f.generation
     encPacketCount := 0
     packetsize := 0
     padding := f.padding
     endMarker := endBits },
    { f with ordering := f.ordering + 1 })

end VastNC
