import VastNC.Recovery
import VastNC.ParserSafety

/-! A packet that the coding host has combined with another one is recovered by every
client that holds the other one. -/

namespace VastNC

open LittleEndian UDPNCDecoder

structure Codable (m : UDPNCMessage) (pktId fromId : UInt64) (addr : IPaddr) : Prop
    extends m.Uncoded pktId fromId addr where
  packetsize : m.getMessageSize = m.msg.length
  header : m.header.isUDPNCHeader = true
  sizeOf : m.sizeOf < maxPacketSize

namespace Codable

variable {m : UDPNCMessage} {pktId fromId : UInt64} {addr : IPaddr}

theorem sized (h : Codable m pktId fromId addr) : m.Sized 1 := h.toUncoded.sized h.packetsize

theorem length_wire (h : Codable m pktId fromId addr) : m.wire.length = m.sizeOf := by
  rw [UDPNCMessage.length_wire h.sized, h.toUncoded.sizeOf]

theorem symbol (h : Codable m pktId fromId addr) :
    m.symbol = .ok (zeroPad maxPacketSize m.wire) := by
  obtain ⟨w, s, hw, -, hs, rfl, -⟩ := h.toUncoded.symbol h.sizeOf
  rw [UDPNCMessage.serialize_eq h.sized, Except.ok.injEq, Prod.mk.injEq] at hw
  rw [hs, hw.1]

theorem length_symbol (h : Codable m pktId fromId addr) :
    (zeroPad maxPacketSize m.wire).length = maxPacketSize :=
  length_zeroPad (by rw [h.length_wire]; exact h.sizeOf.le)

theorem take_symbol (h : Codable m pktId fromId addr) (rest : List UInt8) :
    (zeroPad maxPacketSize m.wire ++ rest).take m.sizeOf = m.wire := by
  rw [zeroPad, List.append_assoc, List.take_left' h.length_wire]

theorem checksumRange (h : Codable m pktId fromId addr) (rest : List UInt8) :
    checksumRange (zeroPad maxPacketSize m.wire ++ rest) m.sizeOf =
      .ok (generateChecksum m.wire) := by
  have hl := h.length_symbol
  have hz := h.sizeOf
  have hle : m.sizeOf ≤ (zeroPad maxPacketSize m.wire ++ rest).length := by
    rw [List.length_append]
    omega
  rw [VastNC.checksumRange, if_pos hle, h.take_symbol]

end Codable

theorem inArray_of_within {size len : Nat} (hle : size ≤ len) {a : Access} (h : a.Within size) :
    inArray len a = true := by
  cases a with
  | read off n =>
    by_cases hn : n = 0
    · simp [inArray, hn]
    · have hb := Access.within_read h (by omega)
      simp only [inArray, Bool.or_eq_true, beq_iff_eq, decide_eq_true_eq]
      omega
  | length z => rfl

theorem window_memOf_append (w rest : List UInt8) : window (memOf (w ++ rest)) 0 w.length = w := by
  have hw := window_memOf (w ++ rest)
  rw [List.length_append, window_add] at hw
  exact (List.append_inj hw (by simp)).1

theorem readSymbol_codable {active m : UDPNCMessage} {pktId fromId : UInt64} {addr : IPaddr}
    {dataOut : List UInt8} (rest : List UInt8) {index : Nat} {total : UInt32}
    (h : Codable m pktId fromId addr)
    (hd : dataOut.drop (index * maxPacketSize) = zeroPad maxPacketSize m.wire ++ rest)
    (ht : total + generateChecksum m.wire = active.checksum) :
    readSymbol active dataOut index total = .ok (some { m with socketAddr := ⟨0, 0, 0⟩ }) := by
  have hz := h.sizeOf
  have hlw := h.length_wire
  have hbuf : window (symbolDatagram dataOut index).buf 0 m.wire.length = m.wire := by
    simp only [symbolDatagram, hd, zeroPad, List.append_assoc]
    exact window_memOf_append _ _
  have hsize : (symbolDatagram dataOut index).size = maxPacketSize := rfl
  obtain ⟨hr, hm⟩ := Datagram.parse_wire (d := symbolDatagram dataOut index) h.sized h.header
    (by rw [hsize]; decide) (by omega) hbuf
  have hhead : (symbolDatagram dataOut index).header = m.header := headerOf_wire hbuf
  have hfit : (symbolDatagram dataOut index).Fits := by
    have hg := h.toUncoded.sizeOf
    have hp : (symbolDatagram dataOut index).packetsize = m.getMessageSize := by
      rw [Datagram.packetsize, hhead]
      rfl
    refine .inr (.inr ⟨by rw [hhead, h.header], ?_⟩)
    rw [hhead, tableSize, h.toUncoded.count, hp, hsize, if_pos (by omega)]
    omega
  have hlen : maxPacketSize ≤ (dataOut.drop (index * maxPacketSize)).length := by
    rw [hd, List.length_append, h.length_symbol]
    omega
  have htrace : (symbolDatagram dataOut index).parse.trace.all
      (inArray (dataOut.drop (index * maxPacketSize)).length) = true := by
    rw [List.all_eq_true]
    intro a ha
    exact inArray_of_within hlen (hfit.parsedSafely.within a ha)
  have hsz : ({ m with socketAddr := ⟨0, 0, 0⟩ } : UDPNCMessage).sizeOf = m.sizeOf := rfl
  have hret : ((12 + 24 * 1 + m.getMessageSize : Nat) : Int) ≠ -1 := by omega
  rw [hd] at htrace
  simp only [readSymbol, htrace, Bool.true_eq_false, if_false, hr, hm, hsz, hd, h.checksumRange rest,
    ht, ne_eq, not_true_eq_false, hret, not_false_eq_true, if_true, bind, Except.bind]

section Combined

variable {K : Kodo} (R : K.Rlnc) {k : Nat} {p q c : UDPNCMessage} {id1 id2 f1 f2 : UInt64}
  {a1 a2 : IPaddr}

theorem Combines.linear (hc : Combines K k p q c) (hp : Codable p id1 f1 a1)
    (hq : Codable q id2 f2 a2) :
    copyPayload c = .ok (codedPayload c) ∧ c.msg.length ≤ payloadRoom ∧
      R.Solves (codedPayload c) (zeroPad maxPacketSize p.wire) (zeroPad maxPacketSize q.wire) ∧
      c.checksum = generateChecksum p.wire + generateChecksum q.wire := by
  obtain ⟨s, t, hs, ht, hmsg, hsum⟩ := hc.symbols
  rw [hp.symbol, Except.ok.injEq] at hs
  rw [hq.symbol, Except.ok.injEq] at ht
  subst hs ht
  have hlen := R.length_writePayload k _ _ hp.length_symbol hq.length_symbol
  rw [← hmsg] at hlen
  have hsize : c.getMessageSize = c.msg.length := by
    rw [UDPNCMessage.getMessageSize, hc.packetsize, BitVec.toNat_ofNat]
    exact Nat.mod_eq_of_lt (by simp only [payloadRoom, maxPacketSize] at hlen; omega)
  have hp' := hp.take_symbol []
  have hq' := hq.take_symbol []
  rw [List.append_nil] at hp' hq'
  refine ⟨?_, hlen, ?_, by rw [hsum, hp', hq']⟩
  · rw [copyPayload, if_neg (by omega), if_neg (by omega), hsize, List.take_length, codedPayload]
  · have hcoded := R.codedSymbol_writePayload k _ _ hp.length_symbol hq.length_symbol
    rw [← hmsg] at hcoded
    exact hcoded.symm

/-- `produceDecodedUDPNCMessage` returns the missing packet, or nothing when the coefficient of
its symbol is zero. -/
def Recovers (dec : UDPNCDecoder) (c missing : UDPNCMessage) (index : Nat) : Prop :=
  ∃ o dec', produceDecodedUDPNCMessage K dec = .ok (o, dec') ∧
    (∀ m, o = some m → m.contentEquals missing = true) ∧
    (o = none → R.coefficient (codedPayload c) index = 0)

theorem contentEquals_socketAddr (m : UDPNCMessage) (addr : IPaddr) :
    ({ m with socketAddr := addr } : UDPNCMessage).contentEquals m = true :=
  (UDPNCMessage.contentEquals_iff _ _).mpr
    ⟨rfl, rfl, rfl, UDPNCMessage.addrsEqual_self _, rfl, rfl⟩

theorem recovers_of_solved {dec : UDPNCDecoder} {m missing : UDPNCMessage} {i : Nat}
    {s t : List UInt8} {checksum : UInt32} (hnc : dec.ncPackets = [c])
    (hm : Pooled dec.packetPool c i m) (hs : m.symbol = .ok s)
    (hx : VastNC.checksumRange s m.sizeOf = .ok checksum) (hcopy : copyPayload c = .ok (codedPayload c))
    (hroom : c.msg.length ≤ payloadRoom) (ht : t.length = maxPacketSize)
    (hsol : SolvesAt R (codedPayload c) i s t)
    (hread : readSymbol c (symbolsAt i s t) (1 - i) checksum =
      .ok (some { missing with socketAddr := ⟨0, 0, 0⟩ })) :
    Recovers R dec c missing (1 - i) := by
  by_cases hz : R.coefficient (codedPayload c) (1 - i) = 0
  · have hd := decode_unsolved R hm hs hx hroom hcopy hz
    exact ⟨none, _, produceDecodedUDPNCMessage_pair hnc hm.pktIds hm.fetch.1 hd, by simp, fun _ => hz⟩
  · have hd := decode_solved R hm hs hx hroom hcopy ht hz hsol
    rw [hread] at hd
    refine ⟨some { missing with socketAddr := ⟨0, 0, 0⟩ }, _,
      produceDecodedUDPNCMessage_pair hnc hm.pktIds hm.fetch.1 hd, fun m hm => ?_, by simp⟩
    rw [← Option.some.inj hm]
    exact contentEquals_socketAddr _ _

theorem Combines.pktIds_eq (hc : Combines K k p q c) (hp : Codable p id1 f1 a1)
    (hq : Codable q id2 f2 a2) : c.pktIds = [id1, id2] := by
  rw [hc.pktIds, hp.toUncoded.pktIds, hq.toUncoded.pktIds]
  rfl

theorem Combines.recovers_second (hc : Combines K k p q c) (hp : Codable p id1 f1 a1)
    (hq : Codable q id2 f2 a2) {dec : UDPNCDecoder} (hnc : dec.ncPackets = [c])
    (h1 : dec.packetPool[id1]? = some p) (h2 : dec.packetPool[id2]? = none) :
    Recovers R dec c q 1 := by
  have hids := hc.pktIds_eq hp hq
  have hm : Pooled dec.packetPool c 0 p :=
    ⟨by decide, by rw [hids]; rfl, by rw [hids]; exact h1, by rw [hids]; exact h2⟩
  obtain ⟨hcopy, hroom, hsol, hsum⟩ := hc.linear R hp hq
  have hx := hp.checksumRange []
  rw [List.append_nil] at hx
  refine recovers_of_solved R hnc hm hp.symbol hx hcopy hroom hq.length_symbol hsol ?_
  refine readSymbol_codable [] hq ?_ hsum.symm
  rw [List.append_nil]
  exact List.drop_left' (by rw [hp.length_symbol, Nat.sub_zero, Nat.one_mul])

theorem Combines.recovers_first (hc : Combines K k p q c) (hp : Codable p id1 f1 a1)
    (hq : Codable q id2 f2 a2) {dec : UDPNCDecoder} (hnc : dec.ncPackets = [c])
    (h1 : dec.packetPool[id1]? = none) (h2 : dec.packetPool[id2]? = some q) :
    Recovers R dec c p 0 := by
  have hids := hc.pktIds_eq hp hq
  have hm : Pooled dec.packetPool c 1 q :=
    ⟨by decide, by rw [hids]; rfl, by rw [hids]; exact h2, by rw [hids]; exact h1⟩
  obtain ⟨hcopy, hroom, hsol, hsum⟩ := hc.linear R hp hq
  have hx := hq.checksumRange []
  rw [List.append_nil] at hx
  refine recovers_of_solved R hnc hm hq.symbol hx hcopy hroom hp.length_symbol hsol ?_
  refine readSymbol_codable (zeroPad maxPacketSize q.wire) hp ?_ (by rw [hsum, UInt32.add_comm])
  rw [Nat.sub_self, Nat.zero_mul, List.drop_zero]
  rfl

/-- Coding at the host and decoding at a client are inverse, up to a zero coefficient. -/
theorem coding_roundtrip {r r' : Recoder} (hp : Codable p id1 f1 a1) (hq : Codable q id2 f2 a2)
    (hid : id1 ≠ id2) (hpool1 : r.packetPool[id1]? = some p)
    (hpool2 : r.packetPool[id2]? = some q) (hpick : Recoder.pick r.packetPool = .ok (some (p, q)))
    (hprod : r.produceUDPNCMessage K = .ok (some c, r')) (dec : UDPNCDecoder)
    (hnc : dec.ncPackets = [c]) :
    (dec.packetPool[id1]? = some p → dec.packetPool[id2]? = none → Recovers R dec c q 1) ∧
    (dec.packetPool[id1]? = none → dec.packetPool[id2]? = some q → Recovers R dec c p 0) := by
  have hs : ¬ r.packetPool.size < 2 := by
    intro hs
    rw [Recoder.produceUDPNCMessage, if_pos hs, Except.ok.injEq, Prod.mk.injEq] at hprod
    cases hprod.1
  obtain ⟨c', hc, hprod'⟩ := Recoder.produceUDPNCMessage_pick K (by omega) hpick hp.toUncoded
    hq.toUncoded hp.sizeOf hq.sizeOf hpool1 hpool2 hid
  rw [hprod, Except.ok.injEq, Prod.mk.injEq, Option.some.injEq] at hprod'
  rw [← hprod'.1] at hc
  exact ⟨fun h1 h2 => hc.recovers_second R hp hq hnc h1 h2,
    fun h1 h2 => hc.recovers_first R hp hq hnc h1 h2⟩

end Combined

theorem samplePacket_codable (pktId fromId : UInt64) (addr : IPaddr) :
    Codable (samplePacket pktId fromId addr) pktId fromId addr where
  count := rfl
  pktIds := rfl
  fromIds := rfl
  toAddrs := rfl
  packetsize := rfl
  header := rfl
  sizeOf := by
    have hs : (samplePacket pktId fromId addr).sizeOf = 39 := rfl
    rw [hs, maxPacketSize]
    omega

def sampleRecoder : Recoder where
  packetPool := ((∅ : PacketPool).insert 7 (samplePacket 7 5 ⟨0x0A000001, 1037, 0⟩)).insert 8
    (samplePacket 8 6 ⟨0x0A000002, 1037, 0⟩)
  headerFactory := { padding := 0 }

theorem coding_roundtrip_two_hosts :
    ∃ c, Recovers Kodo.eliminationRlnc
      { packetPool := (∅ : PacketPool).insert 7 (samplePacket 7 5 ⟨0x0A000001, 1037, 0⟩)
        ncPackets := [c] } c (samplePacket 8 6 ⟨0x0A000002, 1037, 0⟩) 1 := by
  have hp := samplePacket_codable 7 5 ⟨0x0A000001, 1037, 0⟩
  have hq := samplePacket_codable 8 6 ⟨0x0A000002, 1037, 0⟩
  have hpick : Recoder.pick sampleRecoder.packetPool =
      .ok (some (samplePacket 7 5 ⟨0x0A000001, 1037, 0⟩, samplePacket 8 6 ⟨0x0A000002, 1037, 0⟩)) :=
    rfl
  have h1 : sampleRecoder.packetPool[(7 : UInt64)]? =
      some (samplePacket 7 5 ⟨0x0A000001, 1037, 0⟩) := by
    rfl
  have h2 : sampleRecoder.packetPool[(8 : UInt64)]? =
      some (samplePacket 8 6 ⟨0x0A000002, 1037, 0⟩) := by
    rfl
  obtain ⟨c, -, hprod⟩ := Recoder.produceUDPNCMessage_pick Kodo.elimination (r := sampleRecoder)
    (by decide) hpick hp.toUncoded hq.toUncoded hp.sizeOf hq.sizeOf h1 h2 (by decide)
  exact ⟨c, (coding_roundtrip Kodo.eliminationRlnc hp hq (by decide) h1 h2 hpick hprod _ rfl).1
    (by simp) (by simp)⟩

end VastNC
