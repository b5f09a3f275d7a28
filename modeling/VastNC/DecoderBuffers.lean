import VastNC.DecodeScan
import VastNC.DecoderThreads
import VastNC.CodingRoundTrip
import VastNC.Lib.StepRun

/-! The three arrays of one `produceDecodedUDPNCMessage`: the buffer a pooled packet is
serialized into, the payload array, and the storage of the decoded symbols. -/

namespace VastNC

open ErasingScan StepRun LittleEndian

namespace UDPNCDecoder

/-- A message with an entry for each counted id and as many bytes as `packetsize` says. -/
abbrev CompleteMessage := { m : UDPNCMessage // ∃ n, m.Sized n }

inductive Call where
  | add (m : CompleteMessage)
  | produce
  | clear

def afterCall (dec : UDPNCDecoder) : Call → UDPNCDecoder
  | .add m =>
    match dec.addUDPNCMessage m.1 with
    | .ok dec' => dec'
    -- the throw comes before any write
    | .error _ => dec
  | .produce => dec.fetchFromPacketPool.2
  | .clear => dec.clearPacketPool

/-- The checksum over the symbol at `index` stays inside the array, where the symbol is
parsed and the parser does not return -1. -/
def ChecksumWithin (dataOut : List UInt8) (index : Nat) : Prop :=
  ∀ k, (symbolDatagram dataOut index).parse.ret = .ok k → k ≠ -1 →
    index * maxPacketSize + (symbolDatagram dataOut index).parse.msg.sizeOf ≤ dataOut.length

structure BuffersFit (K : Kodo) (f : Fetched) : Prop where
  symbol : ∀ e ∈ f.available, ∃ w n, e.2.serialize = .ok (w, n) ∧ w.length ≤ maxPacketSize
  payload : f.active.getMessageSize ≤ payloadRoom
  checksum : ∀ coder total payload,
    putAvailableInDecoder K f (List.range f.active.pktIds.length) K.build 0 = .ok (coder, total) →
      copyPayload f.active = .ok payload → K.isComplete (K.readPayload coder payload) = true →
        ChecksumWithin (K.dataOut (K.readPayload coder payload)) f.decodedIndex

/-- At a call that gets past the check for one available packet. -/
def ProduceFits (K : Kodo) (dec : UDPNCDecoder) : Prop :=
  ∀ f, dec.fetchFromPacketPool.1 = some f ∧ f.available.length = 1 → BuffersFit K f

/-- `c` stands at a position that the scan examines, with nothing in front to stop at. -/
def Reaches (dec : UDPNCDecoder) (c : UDPNCMessage) : Prop :=
  ∃ before after, dec.ncPackets = before ++ c :: after ∧ Even before.length ∧
    ∀ d ∈ scanned before, lacksOne dec.packetPool d = false

/-- `sizeOf` of the message whose header the symbol starts with is within `room`, where the
header is not foreign and announces no more than a symbol. -/
def HeaderWithin (t : List UInt8) (room : Nat) : Prop :=
  (UDPNCHeader.ofBytes (t.take 8)).isUDPNCHeader = true →
    (UDPNCHeader.ofBytes (t.take 8)).packetsize.toNat ≤ maxPacketSize →
      16 + 20 * (UDPNCHeader.ofBytes (t.take 8)).encPacketCount.toNat +
        (UDPNCHeader.ofBytes (t.take 8)).packetsize.toNat ≤ room

/-- A coded packet and the pooled one at position `i` of its ids. The missing packet is whatever
solves the equation of the two. -/
structure Bounded {K : Kodo} (R : K.Rlnc) (c m : UDPNCMessage) (i : Nat) : Prop where
  uncoded : m.msg.length ≤ 464
  coded : c.msg.length ≤ 520
  missing : ∀ t, t.length = maxPacketSize → R.coefficient (codedPayload c) (1 - i) ≠ 0 →
    SolvesAt R (codedPayload c) i (zeroPad maxPacketSize m.wire) t →
      HeaderWithin t ((1 + i) * maxPacketSize)

def ProduceBounded {K : Kodo} (R : K.Rlnc) (dec : UDPNCDecoder) : Prop :=
  ∀ c i m, Reaches dec c → Pooled dec.packetPool c i m → Bounded R c m i

variable {dec : UDPNCDecoder} {c m : UDPNCMessage} {i : Nat} {s t : List UInt8}

theorem lacksOne_of_pooled (h : Pooled dec.packetPool c i m) : lacksOne dec.packetPool c = true := by
  have ha := h.fetch.1
  have hl := h.pktIds
  rw [lacksOne_iff]
  omega

theorem fetched_iff {f : Fetched} :
    dec.fetchFromPacketPool.1 = some f ∧ f.available.length = 1 ↔
      ∃ c i m, Reaches dec c ∧ Pooled dec.packetPool c i m ∧ f = ⟨c, [(i, m)], 1 - i⟩ := by
  constructor
  · rintro ⟨hf, hl⟩
    rcases first_scanned (lacksOne dec.packetPool) dec.ncPackets with
      hnone | ⟨before, c, after, hq, he, hb, hc⟩
    · rw [fetchFromPacketPool_none hnone] at hf
      cases hf
    · rw [fetchFromPacketPool_some hq he hb hc] at hf
      obtain rfl := Option.some.inj hf
      rw [length_available] at hl
      have hids := lacksOne_iff.mp hc
      obtain ⟨i, m, hm⟩ := exists_pooled (by omega) hl
      exact ⟨c, i, m, ⟨before, after, hq, he, hb⟩, hm, hm.fetch.2⟩
  · rintro ⟨c, i, m, ⟨before, after, hq, he, hb⟩, hm, rfl⟩
    rw [fetchFromPacketPool_some hq he hb (lacksOne_of_pooled hm), hm.fetch.2]
    exact ⟨rfl, rfl⟩

theorem produceFits_iff {K : Kodo} :
    ProduceFits K dec ↔
      ∀ c i m, Reaches dec c → Pooled dec.packetPool c i m → BuffersFit K ⟨c, [(i, m)], 1 - i⟩ := by
  constructor
  · intro h c i m hc hm
    exact h _ (fetched_iff.mpr ⟨c, i, m, hc, hm, rfl⟩)
  · intro h f hf
    obtain ⟨c, i, m, hc, hm, rfl⟩ := fetched_iff.mp hf
    exact h c i m hc hm

section Symbol

variable {dataOut : List UInt8} {index : Nat}

theorem parse_symbol_iff {d : Datagram} (hs : 8 < d.size) :
    (∃ k, d.parse.ret = .ok k ∧ k ≠ -1) ↔ d.header.isUDPNCHeader = true ∧ d.packetsize ≤ d.size := by
  constructor
  · rintro ⟨k, hr, hk⟩
    by_cases hpos : 0 < k
    · obtain ⟨-, hv, hp, -⟩ := Datagram.ret_pos hr hpos
      exact ⟨hv, hp⟩
    · exfalso
      rcases Datagram.ret_nonpos hr (by omega) with h | ⟨-, hv⟩ | ⟨-, hv, hp, ht⟩
      · omega
      · rw [Datagram.parse_foreign hs hv] at hr
        exact hk (Except.ok.inj hr).symm
      · rw [Datagram.parse_cut hs hv hp ht] at hr
        exact hk (Except.ok.inj hr).symm
  · rintro ⟨hv, hp⟩
    refine ⟨_, congrArg Parse.ret (Datagram.parse_taken hs hv hp), ?_⟩
    omega

theorem checksumWithin_iff :
    ChecksumWithin dataOut index ↔
      ((symbolDatagram dataOut index).header.isUDPNCHeader = true →
        (symbolDatagram dataOut index).packetsize ≤ maxPacketSize →
          index * maxPacketSize + (16 + 20 * (symbolDatagram dataOut index).header.encPacketCount.toNat +
            (symbolDatagram dataOut index).packetsize) ≤ dataOut.length) := by
  have hs : 8 < (symbolDatagram dataOut index).size := by simp [symbolDatagram, maxPacketSize]
  have hsize (hv : (symbolDatagram dataOut index).header.isUDPNCHeader = true) :
      (symbolDatagram dataOut index).parse.msg.sizeOf =
        16 + 20 * (symbolDatagram dataOut index).header.encPacketCount.toNat +
          (symbolDatagram dataOut index).packetsize := by
    have hh := (Datagram.parse_fields hs hv).1
    simp only [UDPNCMessage.sizeOf, hh, sizeofHeader, Datagram.packetsize]
    omega
  constructor
  · intro h hv hp
    obtain ⟨k, hr, hk⟩ := (parse_symbol_iff hs).mpr ⟨hv, hp⟩
    rw [← hsize hv]
    exact h k hr hk
  · intro h k hr hk
    obtain ⟨hv, hp⟩ := (parse_symbol_iff hs).mp ⟨k, hr, hk⟩
    rw [hsize hv]
    exact h hv hp

theorem symbolsAt_split (hi : i < maxSymbols) (hs : s.length = maxPacketSize)
    (ht : t.length = maxPacketSize) :
    (symbolsAt i s t).length = maxSymbols * maxPacketSize ∧
      ∃ rest, (symbolsAt i s t).drop ((1 - i) * maxPacketSize) = t ++ rest := by
  rcases position_cases hi with rfl | rfl
  · refine ⟨by simp [symbolsAt, hs, ht, maxSymbols, maxPacketSize], [], ?_⟩
    simp [symbolsAt, hs]
  · exact ⟨by simp [symbolsAt, hs, ht, maxSymbols, maxPacketSize], s, by simp [symbolsAt]⟩

theorem symbolDatagram_header {rest : List UInt8} (ht : t.length = maxPacketSize)
    (h : dataOut.drop (index * maxPacketSize) = t ++ rest) :
    (symbolDatagram dataOut index).header = UDPNCHeader.ofBytes (t.take 8) := by
  have hl : (t.take 8).length = 8 := by simp [ht, maxPacketSize]
  have hw := window_memOf_append (t.take 8) (t.drop 8 ++ rest)
  rw [hl, ← List.append_assoc, List.take_append_drop] at hw
  simp only [Datagram.header, headerOf, symbolDatagram, h, hw]

theorem checksumWithin_symbolsAt (hi : i < maxSymbols) (hs : s.length = maxPacketSize)
    (ht : t.length = maxPacketSize) :
    ChecksumWithin (symbolsAt i s t) (1 - i) ↔ HeaderWithin t ((1 + i) * maxPacketSize) := by
  obtain ⟨hl, rest, hd⟩ := symbolsAt_split hi hs ht
  have hh := symbolDatagram_header ht hd
  simp only [checksumWithin_iff, HeaderWithin, Datagram.packetsize, hh, hl]
  refine imp_congr_right fun _ => imp_congr_right fun _ => ?_
  rcases position_cases hi with rfl | rfl
  · simp only [maxSymbols, maxPacketSize]
    omega
  · simp only [maxSymbols, maxPacketSize]
    omega

end Symbol

section Pair

theorem symbol_eq (hm : m.Sized 1) (hl : m.msg.length ≤ 464) :
    m.symbol = .ok (zeroPad maxPacketSize m.wire) ∧
      ∃ checksum, checksumRange (zeroPad maxPacketSize m.wire) m.sizeOf = .ok checksum := by
  have hw := UDPNCMessage.length_wire hm
  have hz := UDPNCMessage.sizeOf_eq hm
  have hp := hm.packetsize
  have hroom : m.wire.length ≤ maxPacketSize := by
    rw [maxPacketSize]
    omega
  have hsize : m.sizeOf ≤ (zeroPad maxPacketSize m.wire).length := by
    rw [length_zeroPad hroom]
    omega
  refine ⟨?_, _, if_pos hsize⟩
  simp only [UDPNCMessage.symbol, UDPNCMessage.serialize_eq hm, storeIn, hroom, if_true, bind,
    Except.bind]

theorem symbol_bound_iff (hm : m.Sized 1) :
    (∃ w n, m.serialize = .ok (w, n) ∧ w.length ≤ maxPacketSize) ↔ m.msg.length ≤ 464 := by
  have hw := UDPNCMessage.length_wire hm
  have hp := hm.packetsize
  rw [UDPNCMessage.serialize_eq hm]
  constructor
  · rintro ⟨w, n, he, hl⟩
    obtain ⟨rfl, -⟩ := Prod.mk.inj (Except.ok.inj he)
    simp only [maxPacketSize] at hl
    omega
  · intro hl
    refine ⟨_, _, rfl, ?_⟩
    simp only [maxPacketSize]
    omega

variable {K : Kodo} (R : K.Rlnc) {n : Nat}

/-- The storage of a complete decoder, where the two writes before it fit. -/
theorem checksum_iff (hm : Pooled dec.packetPool c i m) (hsz : m.Sized 1) (hc : c.Sized n)
    (hl : m.msg.length ≤ 464) (hroom : c.msg.length ≤ payloadRoom) :
    (∀ coder total payload,
      putAvailableInDecoder K ⟨c, [(i, m)], 1 - i⟩ (List.range c.pktIds.length) K.build 0 =
          .ok (coder, total) →
        copyPayload c = .ok payload → K.isComplete (K.readPayload coder payload) = true →
          ChecksumWithin (K.dataOut (K.readPayload coder payload)) (1 - i)) ↔
      ∀ t, t.length = maxPacketSize → R.coefficient (codedPayload c) (1 - i) ≠ 0 →
        SolvesAt R (codedPayload c) i (zeroPad maxPacketSize m.wire) t →
          HeaderWithin t ((1 + i) * maxPacketSize) := by
  obtain ⟨hs, checksum, hx⟩ := symbol_eq hsz hl
  have hls := length_symbol_of_ok hs
  have hp : (codedPayload c).length = payloadRoom := length_zeroPad hroom
  have hcopy : copyPayload c = .ok (codedPayload c) := by
    rw [copyPayload_eq hc, if_neg (not_lt.mpr hroom)]
  have hput : putAvailableInDecoder K ⟨c, [(i, m)], 1 - i⟩ (List.range c.pktIds.length) K.build 0 =
      .ok (K.readUncodedSymbol K.build (zeroPad maxPacketSize m.wire) i, checksum) := by
    rw [hm.pktIds]
    exact putAvailableInDecoder_pair hm.position hs hx
  have hcomplete := R.isComplete_pair hls hm.position hp
  constructor
  · intro h t ht hcoef hsol
    have hfit := h _ _ _ hput hcopy (hcomplete.mpr hcoef)
    rw [dataOut_at R hm.position hls ht hp hcoef hsol] at hfit
    exact (checksumWithin_symbolsAt hm.position hls ht).mp hfit
  · intro h coder total payload hput' hcopy' hk
    obtain ⟨rfl, -⟩ := Prod.mk.inj (Except.ok.inj (hput.symm.trans hput'))
    obtain rfl := Except.ok.inj (hcopy.symm.trans hcopy')
    have hcoef := hcomplete.mp hk
    obtain ⟨t, ht, hsol⟩ := exists_solvesAt R hm.position hls hp hcoef
    rw [dataOut_at R hm.position hls ht hp hcoef hsol, checksumWithin_symbolsAt hm.position hls ht]
    exact h t ht hcoef hsol

theorem buffersFit_iff (hm : Pooled dec.packetPool c i m) (hsz : m.Sized 1) (hc : c.Sized n) :
    BuffersFit K ⟨c, [(i, m)], 1 - i⟩ ↔ Bounded R c m i := by
  have hpayload : c.getMessageSize = c.msg.length := hc.packetsize
  constructor
  · intro h
    have hl := (symbol_bound_iff hsz).mp (h.symbol (i, m) List.mem_cons_self)
    have hroom : c.msg.length ≤ payloadRoom := hpayload ▸ h.payload
    exact ⟨hl, hroom, (checksum_iff R hm hsz hc hl hroom).mp h.checksum⟩
  · intro h
    refine ⟨fun e he => ?_, ?_, (checksum_iff R hm hsz hc h.uncoded h.coded).mpr h.missing⟩
    · obtain rfl := List.mem_singleton.mp he
      exact (symbol_bound_iff hsz).mpr h.uncoded
    · exact hpayload.le.trans h.coded

end Pair

/-- What `addUDPNCMessage` keeps of complete messages. -/
structure Stocked (dec : UDPNCDecoder) : Prop where
  pool : ∀ (key : UInt64) (m : UDPNCMessage), dec.packetPool[key]? = some m → m.Sized 1
  coded : ∀ c ∈ dec.ncPackets, ∃ n, c.Sized n

theorem start_stocked : Stocked {} where
  pool := fun key m h => by simp at h
  coded := by simp

theorem Stocked.add (h : Stocked dec) (m : CompleteMessage) : Stocked (dec.afterCall (.add m)) := by
  simp only [afterCall]
  split
  · rename_i dec' hadd
    obtain ⟨key, hk, rfl⟩ | ⟨-, rfl⟩ | ⟨-, rfl⟩ := addUDPNCMessage_cases hadd
    · refine ⟨fun g x hx => ?_, h.coded⟩
      rw [Std.ExtTreeMap.getElem?_insert] at hx
      split at hx
      · obtain ⟨n, hn⟩ := m.2
        obtain rfl := Option.some.inj hx
        have hl : n = 1 := by rw [← hn.pktIds, hk.pktIds, List.length_singleton]
        rwa [hl] at hn
      · exact h.pool g x hx
    · refine ⟨h.pool, fun x hx => ?_⟩
      rcases List.mem_append.mp hx with hx | hx
      · exact h.coded x hx
      · rw [List.mem_singleton.mp hx]
        exact m.2
    · exact h
  · exact h

theorem Stocked.afterCall (h : Stocked dec) (e : Call) : Stocked (UDPNCDecoder.afterCall dec e) := by
  cases e with
  | add m => exact h.add m
  | produce =>
    refine ⟨fun key m hm => ?_, fun x hx => h.coded x ((DecoderThreads.fetch_sublist dec).subset hx)⟩
    rw [UDPNCDecoder.afterCall, fetchFromPacketPool_snd] at hm
    exact h.pool key m (getElem?_of_fetchLoop hm)
  | clear => exact start_stocked

theorem produce_iff {K : Kodo} (R : K.Rlnc) (h : Stocked dec) :
    ProduceFits K dec ↔ ProduceBounded R dec := by
  rw [produceFits_iff, ProduceBounded]
  refine forall_congr' fun c => forall_congr' fun i => forall_congr' fun m =>
    imp_congr_right fun hc => imp_congr_right fun hm => ?_
  obtain ⟨before, after, hq, -⟩ := hc
  obtain ⟨n, hn⟩ := h.coded c (by simp [hq])
  exact buffersFit_iff R hm (h.pool _ m hm.present) hn

/-- Over any calls on a new decoder, the arrays of each `produceDecodedUDPNCMessage` hold what is
written to and read from them exactly where the packets it is about are short enough. -/
theorem decoder_buffers_iff {K : Kodo} (R : K.Rlnc) (es : List Call) :
    Along afterCall (fun dec e => e = .produce → ProduceFits K dec) {} es ↔
      Along afterCall (fun dec e => e = .produce → ProduceBounded R dec) {} es := by
  have hstep (dec : UDPNCDecoder) (e : Call) (h : Stocked dec) : Stocked (dec.afterCall e) := h.afterCall e
  have hcall (dec : UDPNCDecoder) (e : Call) (h : Stocked dec) :
      (e = .produce → ProduceFits K dec) ↔ (e = .produce → ProduceBounded R dec) :=
    imp_congr_right fun _ => produce_iff R h
  exact along_iff_along (fun dec e h _ => hstep dec e h) hcall start_stocked

section Recoder

variable {K : Kodo} (R : K.Rlnc) {p q : UDPNCMessage} {id fromId : UInt64} {addr : IPaddr}

theorem solvesAt_unique {payload t' : List UInt8} (hi : i < maxSymbols) (hs : s.length = maxPacketSize)
    (hp : payload.length = payloadRoom) (hcoef : R.coefficient payload (1 - i) ≠ 0)
    (ht : t.length = maxPacketSize) (hsol : SolvesAt R payload i s t)
    (ht' : t'.length = maxPacketSize) (hsol' : SolvesAt R payload i s t') : t = t' := by
  have h := dataOut_at R hi hs ht hp hcoef hsol
  rw [dataOut_at R hi hs ht' hp hcoef hsol'] at h
  rcases position_cases hi with rfl | rfl
  · exact (List.append_inj_right h rfl).symm
  · exact (List.append_inj_left h (ht'.trans ht.symm)).symm

theorem codable_length (h : Codable p id fromId addr) : p.msg.length ≤ 464 := by
  have hz := h.sizeOf
  rw [h.toUncoded.sizeOf, h.packetsize, maxPacketSize] at hz
  omega

theorem codable_within (h : Codable p id fromId addr) {room : Nat} (hr : maxPacketSize ≤ room) :
    HeaderWithin (zeroPad maxPacketSize p.wire) room := by
  have hz := h.sizeOf.trans_le hr
  rw [UDPNCMessage.sizeOf_eq h.sized] at hz
  have hw : p.wire = p.header.toBytes ++
      (toLE 4 p.checksum.toNat ++ p.entries p.header.encPacketCount.toNat ++ p.msg) := by
    simp only [UDPNCMessage.wire, List.append_assoc]
  intro _ _
  rw [zeroPad, hw, List.append_assoc, List.take_left' (UDPNCHeader.length_toBytes _),
    UDPNCHeader.ofBytes_toBytes, h.count]
  exact hz.le

/-- The recoder's check of `sizeOf` on both packets is enough for every array of the decoder. -/
theorem bounded_of_combines {k : Nat} {id' fromId' : UInt64} {addr' : IPaddr}
    (hc : Combines K k p q c) (hp : Codable p id fromId addr) (hq : Codable q id' fromId' addr') :
    Bounded R c p 0 ∧ Bounded R c q 1 := by
  obtain ⟨-, hroom, hsol, -⟩ := hc.linear R hp hq
  have hlen : (codedPayload c).length = payloadRoom := length_zeroPad hroom
  refine ⟨⟨codable_length hp, hroom, fun t ht hcoef ht' => ?_⟩,
    codable_length hq, hroom, fun t ht hcoef ht' => ?_⟩
  · have heq := solvesAt_unique R (by decide) hp.length_symbol hlen hcoef ht ht' hq.length_symbol hsol
    rw [heq]
    exact codable_within hq (by decide)
  · have heq := solvesAt_unique R (by decide) hq.length_symbol hlen hcoef ht ht' hp.length_symbol hsol
    rw [heq]
    exact codable_within hp (by decide)

theorem combined_sized (R : K.Rlnc) {k : Nat} {id' fromId' : UInt64} {addr' : IPaddr} {c : UDPNCMessage}
    (hc : Combines K k p q c) (hp : Codable p id fromId addr) (hq : Codable q id' fromId' addr') :
    c.Sized 2 where
  count := hc.count
  pktIds := by rw [hc.pktIds, hp.pktIds, hq.pktIds]; rfl
  fromIds := by rw [hc.fromIds, hp.fromIds, hq.fromIds]; rfl
  toAddrs := by rw [hc.toAddrs, hp.toAddrs, hq.toAddrs]; rfl
  packetsize := by
    obtain ⟨-, hroom, -, -⟩ := hc.linear R hp hq
    have hsmall : c.msg.length < 2 ^ 24 := hroom.trans_lt (by decide)
    rw [UDPNCMessage.getMessageSize, hc.packetsize, BitVec.toNat_ofNat, Nat.mod_eq_of_lt hsmall]

/-- A host that has one packet of the two in its pool takes the recoded one within the bounds. -/
theorem produceBounded_of_combines {k : Nat} {id' fromId' : UInt64} {addr' : IPaddr} {c : UDPNCMessage}
    (hc : Combines K k p q c) (hp : Codable p id fromId addr) (hq : Codable q id' fromId' addr')
    (hne : id' ≠ id) (hfrom : fromId ≠ netIdUnassigned) :
    Along afterCall (fun dec e => e = .produce → ProduceBounded R dec) {}
      [.add ⟨p, 1, hp.sized⟩, .add ⟨c, 2, combined_sized R hc hp hq⟩, .produce] := by
  have hids : c.pktIds = [id, id'] := by rw [hc.pktIds, hp.pktIds, hq.pktIds]; rfl
  have hroom : p.getMessageSize < maxPacketSize := by
    rw [hp.packetsize]
    exact (codable_length hp).trans_lt (by decide)
  have hadd : addUDPNCMessage {} p = .ok ⟨(∅ : PacketPool).insert id p, []⟩ := by
    rw [addUDPNCMessage_uncoded hp.toUncoded, if_pos ⟨hroom, hfrom⟩, if_neg (by simp)]
  have hcoded : 1 < c.pktIds.length := by
    rw [hids]
    exact Nat.one_lt_two
  have hcode := addUDPNCMessage_coded ⟨(∅ : PacketPool).insert id p, []⟩ hcoded
  refine ⟨fun h => Call.noConfusion h, fun h => Call.noConfusion h, fun _ => ?_, trivial⟩
  simp only [afterCall, hadd, hcode, List.nil_append]
  rintro c' i m ⟨before, after, hsplit, heven, -⟩ hm
  have hmem : c' ∈ [c] := by
    change [c] = _ at hsplit
    rw [hsplit]
    exact List.mem_append_right _ List.mem_cons_self
  obtain rfl : c' = c := List.mem_singleton.mp hmem
  rcases position_cases hm.position with rfl | rfl
  · have hpresent := hm.present
    rw [hids] at hpresent
    obtain rfl : p = m := by simpa using hpresent
    exact (bounded_of_combines R hc hp hq).1
  · have hpresent := hm.present
    rw [hids] at hpresent
    simp [Ne.symm hne] at hpresent

/-- The two packets of `sampleRecoder` and what it makes of them. -/
theorem decoder_buffers_recoded : ∃ c : CompleteMessage,
    Combines Kodo.elimination 0 (samplePacket 7 5 ⟨0x0A000001, 1037, 0⟩)
      (samplePacket 8 6 ⟨0x0A000002, 1037, 0⟩) c.1 ∧
    Along afterCall (fun dec e => e = .produce → ProduceFits Kodo.elimination dec) {}
      [.add ⟨samplePacket 7 5 ⟨0x0A000001, 1037, 0⟩, 1, (samplePacket_codable 7 5 _).sized⟩,
        .add c, .produce] := by
  have hp := samplePacket_codable 7 5 ⟨0x0A000001, 1037, 0⟩
  have hq := samplePacket_codable 8 6 ⟨0x0A000002, 1037, 0⟩
  have hpick : Recoder.pick sampleRecoder.packetPool =
      .ok (some (samplePacket 7 5 ⟨0x0A000001, 1037, 0⟩, samplePacket 8 6 ⟨0x0A000002, 1037, 0⟩)) := rfl
  have h1 : sampleRecoder.packetPool[(7 : UInt64)]? = some (samplePacket 7 5 ⟨0x0A000001, 1037, 0⟩) := rfl
  have h2 : sampleRecoder.packetPool[(8 : UInt64)]? = some (samplePacket 8 6 ⟨0x0A000002, 1037, 0⟩) := rfl
  obtain ⟨c, hc, -⟩ := Recoder.produceUDPNCMessage_pick Kodo.elimination (r := sampleRecoder)
    (by decide) hpick hp.toUncoded hq.toUncoded hp.sizeOf hq.sizeOf h1 h2 (by decide)
  exact ⟨⟨c, 2, combined_sized Kodo.eliminationRlnc hc hp hq⟩, hc,
    (decoder_buffers_iff Kodo.eliminationRlnc _).mpr
      (produceBounded_of_combines Kodo.eliminationRlnc hc hp hq (by decide) (by decide))⟩

end Recoder

section Overrun

abbrev Body := { body : List UInt8 // body.length < 2 ^ 24 }

def zeroBody (n : Nat) (h : n < 2 ^ 24) : Body := ⟨List.replicate n 0, List.length_replicate.trans_lt h⟩

def sampleHeader : UDPNCHeader := ⟨startBits, 0, 1#4, 0, 0, 0, 0, endBits⟩

/-- Packet 7 with the payload `body`. -/
def pooledPacket (body : Body) : UDPNCMessage :=
  .single sampleHeader 7 5 ⟨0x0A000001, 1037, 0⟩ 3 body.1

/-- Packets 7 and 8, coded into `body`. -/
def codedPacket (body : Body) : UDPNCMessage :=
  (pooledPacket body).putIdsAddr 8 6 ⟨0x0A000002, 1037, 0⟩ true

theorem pooledPacket_sized (body : Body) : (pooledPacket body).Sized 1 :=
  UDPNCMessage.single_sized _ _ _ _ _ body.2

theorem codedPacket_sized (body : Body) : (codedPacket body).Sized 2 :=
  ⟨rfl, rfl, rfl, rfl, (pooledPacket_sized body).packetsize⟩

def decodeCalls (body coded : Body) : List Call :=
  [.add ⟨pooledPacket body, 1, pooledPacket_sized body⟩, .add ⟨codedPacket coded, 2, codedPacket_sized coded⟩,
    .produce]

theorem bounded_of_decodeCalls {body coded : Body} (hb : body.1.length < 500)
    (h : Along afterCall (fun dec e => e = .produce → ProduceFits Kodo.elimination dec) {}
      (decodeCalls body coded)) :
    Bounded Kodo.eliminationRlnc (codedPacket coded) (pooledPacket body) 0 := by
  have hu : (pooledPacket body).Uncoded 7 5 ⟨0x0A000001, 1037, 0⟩ := ⟨rfl, rfl, rfl, rfl⟩
  have hroom : (pooledPacket body).getMessageSize < maxPacketSize := by
    rw [(pooledPacket_sized body).packetsize]
    exact hb
  have hadd : addUDPNCMessage {} (pooledPacket body) =
      .ok ⟨(∅ : PacketPool).insert 7 (pooledPacket body), []⟩ := by
    rw [addUDPNCMessage_uncoded hu, if_pos ⟨hroom, by decide⟩, if_neg (by simp)]
  have hcode := addUDPNCMessage_coded ⟨(∅ : PacketPool).insert 7 (pooledPacket body), []⟩
    (m := codedPacket coded) (show 1 < 2 by decide)
  have hst := (start_stocked.add ⟨_, 1, pooledPacket_sized body⟩).add ⟨_, 2, codedPacket_sized coded⟩
  have hbounded := (produce_iff Kodo.eliminationRlnc hst).mp (h.2.2.1 rfl)
  simp only [afterCall, hadd, hcode, List.nil_append] at hbounded
  refine hbounded _ 0 _ ⟨[], [], rfl, Even.zero, by simp [scanned]⟩ ⟨by decide, rfl, ?_, ?_⟩
  · show ((∅ : PacketPool).insert 7 (pooledPacket body))[(7 : UInt64)]? = _
    simp
  · show ((∅ : PacketPool).insert 7 (pooledPacket body))[(8 : UInt64)]? = _
    simp

def shortBody : Body := ⟨[1, 0, 2], show 3 < 2 ^ 24 by decide⟩

def shortSymbol : List UInt8 := zeroPad maxPacketSize (pooledPacket shortBody).wire

theorem length_shortSymbol : shortSymbol.length = maxPacketSize :=
  length_symbol_of_ok (symbol_eq (pooledPacket_sized shortBody) (show 3 ≤ 464 by decide)).1

/-- A symbol that starts with the header of a packet of 500 payload bytes. -/
def longSymbol : List UInt8 :=
  zeroPad maxPacketSize { sampleHeader with encPacketCount := 1, packetsize := 500#24 }.toBytes

theorem length_longSymbol : longSymbol.length = maxPacketSize :=
  length_zeroPad (by simp [maxPacketSize])

def recoded : List UInt8 := Kodo.elimination.writePayload 0 shortSymbol longSymbol

theorem length_recoded : recoded.length ≤ payloadRoom :=
  Kodo.eliminationRlnc.length_writePayload 0 _ _ length_shortSymbol length_longSymbol

def recodedBody : Body := ⟨recoded, length_recoded.trans_lt (by decide)⟩

theorem longSymbol_not_within : ¬ HeaderWithin longSymbol 500 := by
  rw [HeaderWithin, longSymbol, zeroPad, List.take_left' (UDPNCHeader.length_toBytes _),
    UDPNCHeader.ofBytes_toBytes]
  decide

/-- A pooled packet of 465 payload bytes, a coded one of 521, and a coded one whose other packet
announces 500. -/
theorem decoder_buffers_overrun :
    (¬ Along afterCall (fun dec e => e = .produce → ProduceFits Kodo.elimination dec) {}
      (decodeCalls (zeroBody 465 (by decide)) shortBody)) ∧
    (¬ Along afterCall (fun dec e => e = .produce → ProduceFits Kodo.elimination dec) {}
      (decodeCalls shortBody (zeroBody 521 (by decide)))) ∧
    ¬ Along afterCall (fun dec e => e = .produce → ProduceFits Kodo.elimination dec) {}
      (decodeCalls shortBody recodedBody) := by
  have hshort : shortBody.1.length < 500 := by decide
  refine ⟨fun h => ?_, fun h => ?_, fun h => ?_⟩
  · have hlong : (zeroBody 465 (by decide)).1.length = 465 := List.length_replicate
    have hle : (zeroBody 465 (by decide)).1.length ≤ 464 :=
      (bounded_of_decodeCalls (hlong.trans_lt (by decide)) h).uncoded
    omega
  · have hlong : (zeroBody 521 (by decide)).1.length = 521 := List.length_replicate
    have hle : (zeroBody 521 (by decide)).1.length ≤ 520 := (bounded_of_decodeCalls hshort h).coded
    omega
  · have hmissing := (bounded_of_decodeCalls hshort h).missing longSymbol length_longSymbol
    have hsol := Kodo.eliminationRlnc.codedSymbol_writePayload 0 _ _ length_shortSymbol length_longSymbol
    refine longSymbol_not_within (hmissing ?_ ?_)
    · show Gf256.ofByte 1 ≠ 0
      decide
    · exact hsol.symm

end Overrun

end UDPNCDecoder

end VastNC
