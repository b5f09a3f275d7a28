import VastNC.Decoder
import VastNC.WireFormat

/-! What the decoder makes of a coded packet of two ids, whoever sent it, when one of its
packets is in the pool. -/

namespace VastNC

open UDPNCDecoder

variable {K : Kodo} (R : K.Rlnc) {pool : PacketPool} {c m : UDPNCMessage} {i : Nat}
  {s t : List UInt8} {checksum : UInt32}

def codedPayload (c : UDPNCMessage) : List UInt8 := zeroPad payloadRoom c.msg

def symbolsAt (i : Nat) (s t : List UInt8) : List UInt8 := if i = 0 then s ++ t else t ++ s

def SolvesAt (p : List UInt8) (i : Nat) (s t : List UInt8) : Prop :=
  if i = 0 then R.Solves p s t else R.Solves p t s

structure Pooled (pool : PacketPool) (c : UDPNCMessage) (i : Nat) (m : UDPNCMessage) : Prop where
  position : i < maxSymbols
  pktIds : c.pktIds.length = 2
  present : pool[c.pktIds.getD i 0]? = some m
  missing : pool[c.pktIds.getD (1 - i) 0]? = none

/-- The symbol `t` of the missing packet solves the equation of the payload, and `result` is
what the decoder makes of it. -/
inductive Recovered (pool : PacketPool) (c : UDPNCMessage)
    (result : Except Fault (Option UDPNCMessage)) : Prop where
  | solved (i : Nat) (m : UDPNCMessage) (s t : List UInt8) (checksum : UInt32)
      (hm : Pooled pool c i m) (hs : m.symbol = .ok s)
      (hx : checksumRange s m.sizeOf = .ok checksum) (hroom : c.msg.length ≤ payloadRoom)
      (ht : t.length = maxPacketSize) (hcoef : R.coefficient (codedPayload c) (1 - i) ≠ 0)
      (hsol : SolvesAt R (codedPayload c) i s t)
      (hres : result = readSymbol c (symbolsAt i s t) (1 - i) checksum)

theorem position_cases (hi : i < maxSymbols) : i = 0 ∨ i = 1 := by
  simp only [maxSymbols] at hi
  omega

theorem Pooled.fetch (h : Pooled pool c i m) :
    availableIds pool c.pktIds = 1 ∧ fetch pool c = ⟨c, [(i, m)], 1 - i⟩ := by
  obtain ⟨id0, id1, hids⟩ := List.length_eq_two.mp h.pktIds
  have hp := h.present
  have hn := h.missing
  rw [hids] at hp hn
  rcases position_cases h.position with rfl | rfl
  · exact fetch_first hids hp hn
  · exact fetch_second hids hn hp

theorem exists_pooled (hc : c.pktIds.length = 2) (h : availableIds pool c.pktIds = 1) :
    ∃ i m, Pooled pool c i m := by
  obtain ⟨id0, id1, hids⟩ := List.length_eq_two.mp hc
  cases h0 : pool[id0]? with
  | none =>
    cases h1 : pool[id1]? with
    | none => simp [availableIds, hids, notMem_of_getElem? h0, notMem_of_getElem? h1] at h
    | some m => exact ⟨1, m, by decide, hc, by simp [hids, h1], by simp [hids, h0]⟩
  | some m =>
    cases h1 : pool[id1]? with
    | none => exact ⟨0, m, by decide, hc, by simp [hids, h0], by simp [hids, h1]⟩
    | some m' => simp [availableIds, hids, mem_of_getElem? h0, mem_of_getElem? h1] at h

theorem dataOut_at {p : List UInt8} (hi : i < maxSymbols) (hs : s.length = maxPacketSize)
    (ht : t.length = maxPacketSize) (hp : p.length = payloadRoom)
    (hc : R.coefficient p (1 - i) ≠ 0) (h : SolvesAt R p i s t) :
    K.dataOut (K.readPayload (K.readUncodedSymbol K.build s i) p) = symbolsAt i s t := by
  rcases position_cases hi with rfl | rfl
  · exact R.dataOut_zero hs ht hp hc h
  · exact R.dataOut_one hs ht hp hc h

theorem exists_solvesAt {p : List UInt8} (hi : i < maxSymbols) (hs : s.length = maxPacketSize)
    (hp : p.length = payloadRoom) (hc : R.coefficient p (1 - i) ≠ 0) :
    ∃ t, t.length = maxPacketSize ∧ SolvesAt R p i s t := by
  rcases position_cases hi with rfl | rfl
  · exact R.exists_solves_zero hs hp hc
  · exact R.exists_solves_one hs hp hc

theorem length_symbol_of_ok (h : m.symbol = .ok s) : s.length = maxPacketSize := by
  cases hw : m.serialize with
  | error f => simp [UDPNCMessage.symbol, hw, bind, Except.bind] at h
  | ok w =>
    simp only [UDPNCMessage.symbol, hw, storeIn, bind, Except.bind] at h
    split at h
    · rw [← Except.ok.inj h]
      exact length_zeroPad ‹_›
    · cases h

theorem symbol_eq (h : m.Sized 1) :
    m.symbol = if m.sizeOf ≤ maxPacketSize then .ok (zeroPad maxPacketSize m.wire)
      else .error (.undefined "write past the end of an array") := by
  have hw : m.wire.length = m.sizeOf := by
    rw [UDPNCMessage.length_wire h, UDPNCMessage.sizeOf_eq h]
  simp only [UDPNCMessage.symbol, UDPNCMessage.serialize_eq h, storeIn, hw, bind, Except.bind]

theorem checksumRange_symbol (h : m.sizeOf ≤ maxPacketSize) (hs : s.length = maxPacketSize) :
    checksumRange s m.sizeOf = .ok (generateChecksum (s.take m.sizeOf)) := by
  rw [checksumRange, hs, if_pos h]

theorem copyPayload_eq {n : Nat} (h : c.Sized n) :
    copyPayload c = if payloadRoom < c.msg.length then
      .error (.undefined "write past the end of an array") else .ok (codedPayload c) := by
  rw [copyPayload, h.packetsize, if_neg (show ¬ c.msg.length + 1 < c.msg.length by omega),
    List.take_length, codedPayload]

section Decode

variable (hm : Pooled pool c i m) (hs : m.symbol = .ok s)
  (hx : checksumRange s m.sizeOf = .ok checksum) (hroom : c.msg.length ≤ payloadRoom)
  (hcopy : copyPayload c = .ok (codedPayload c))

include hm hs hx hroom hcopy

theorem decode_unsolved (hcoef : R.coefficient (codedPayload c) (1 - i) = 0) :
    decode K (fetch pool c) = .ok none := by
  have hp : (codedPayload c).length = payloadRoom := length_zeroPad hroom
  have hcomplete := R.isComplete_pair (length_symbol_of_ok hs) hm.position hp
  rw [hm.fetch.2, decode_pair hm.pktIds hm.position hs hx hcopy,
    if_neg (by rw [hcomplete]; simpa using hcoef)]

theorem decode_solved (ht : t.length = maxPacketSize)
    (hcoef : R.coefficient (codedPayload c) (1 - i) ≠ 0)
    (hsol : SolvesAt R (codedPayload c) i s t) :
    decode K (fetch pool c) = readSymbol c (symbolsAt i s t) (1 - i) checksum := by
  have hl := length_symbol_of_ok hs
  have hp : (codedPayload c).length = payloadRoom := length_zeroPad hroom
  rw [hm.fetch.2, decode_pair hm.pktIds hm.position hs hx hcopy,
    if_pos ((R.isComplete_pair hl hm.position hp).mpr hcoef),
    dataOut_at R hm.position hl ht hp hcoef hsol]

end Decode

theorem Recovered.decode {result : Except Fault (Option UDPNCMessage)} (hc : c.Sized 2)
    (h : Recovered R pool c result) : decode K (fetch pool c) = result := by
  obtain ⟨i, m, s, t, checksum, hm, hs, hx, hroom, ht, hcoef, hsol, hres⟩ := h
  have hcopy := copyPayload_eq hc
  rw [if_neg (by omega)] at hcopy
  rw [hres]
  exact decode_solved R hm hs hx hroom hcopy ht hcoef hsol

section Cases

variable (hc : c.Sized 2) (hm : Pooled pool c i m) (hsz : m.Sized 1)

include hc hm hsz

theorem decode_large (h : maxPacketSize < m.sizeOf) :
    ∃ what, decode K (fetch pool c) = .error (.undefined what) := by
  have hs := symbol_eq hsz
  rw [if_neg (by omega)] at hs
  have hr : List.range c.pktIds.length = [0, 1] := by rw [hc.pktIds]; rfl
  refine ⟨"write past the end of an array", ?_⟩
  rcases position_cases hm.position with rfl | rfl
  · simp [hm.fetch.2, UDPNCDecoder.decode, hr, putAvailableInDecoder, List.lookup, hs, bind, Except.bind]
  · simp [hm.fetch.2, UDPNCDecoder.decode, hr, putAvailableInDecoder, List.lookup, hs, bind, Except.bind]

theorem decode_long (h : payloadRoom < c.msg.length) :
    ∃ what, decode K (fetch pool c) = .error (.undefined what) := by
  by_cases hz : maxPacketSize < m.sizeOf
  · exact decode_large hc hm hsz hz
  have hs := symbol_eq hsz
  have hcopy := copyPayload_eq hc
  have hr : List.range c.pktIds.length = [0, 1] := by rw [hc.pktIds]; rfl
  rw [if_pos (by omega)] at hs
  rw [if_pos h] at hcopy
  have hx := checksumRange_symbol (m := m) (by omega) (length_symbol_of_ok hs)
  refine ⟨"write past the end of an array", ?_⟩
  simp only [hm.fetch.2, UDPNCDecoder.decode, hr, putAvailableInDecoder_pair hm.position hs hx, hcopy,
    bind, Except.bind]

theorem decode_fitting (hz : m.sizeOf ≤ maxPacketSize) (hroom : c.msg.length ≤ payloadRoom) :
    decode K (fetch pool c) = .ok none ∨ Recovered R pool c (decode K (fetch pool c)) := by
  have hs := symbol_eq hsz
  have hcopy := copyPayload_eq hc
  rw [if_pos hz] at hs
  rw [if_neg (by omega)] at hcopy
  have hl := length_symbol_of_ok hs
  have hx := checksumRange_symbol hz hl
  by_cases hcoef : R.coefficient (codedPayload c) (1 - i) = 0
  · exact .inl (decode_unsolved R hm hs hx hroom hcopy hcoef)
  · obtain ⟨t, ht, hsol⟩ := exists_solvesAt R hm.position hl (length_zeroPad hroom) hcoef
    exact .inr (.solved i m _ t _ hm hs hx hroom ht hcoef hsol
      (decode_solved R hm hs hx hroom hcopy ht hcoef hsol))

end Cases

/-- The coded packet makes the decoder write or read past one of its arrays, or take a
negative length: the pooled packet is longer than a symbol, the payload than its array, or
the solved symbol does not hold what it announces. -/
inductive Strays (pool : PacketPool) (c : UDPNCMessage) : Prop where
  | packet (i : Nat) (m : UDPNCMessage) (hm : Pooled pool c i m) (h : maxPacketSize < m.sizeOf)
  | payload (i : Nat) (m : UDPNCMessage) (hm : Pooled pool c i m) (h : payloadRoom < c.msg.length)
  | symbol (f : Fault) (h : Recovered R pool c (.error f))

theorem Recovered.pooled {result : Except Fault (Option UDPNCMessage)} (h : Recovered R pool c result) :
    ∃ i m, Pooled pool c i m := by
  obtain ⟨i, m, s, t, checksum, hm, -⟩ := h
  exact ⟨i, m, hm⟩

theorem Strays.pooled (h : Strays R pool c) : ∃ i m, Pooled pool c i m := by
  cases h with
  | packet i m hm => exact ⟨i, m, hm⟩
  | payload i m hm => exact ⟨i, m, hm⟩
  | symbol f h => exact h.pooled

section Pool

variable (hc : c.Sized 2) (hpool : ∀ (key : UInt64) (m : UDPNCMessage), pool[key]? = some m → m.Sized 1)

include hc hpool

theorem Strays.decode_error (h : Strays R pool c) : ∃ f, decode K (fetch pool c) = .error f := by
  cases h with
  | packet i m hm h =>
    obtain ⟨what, hd⟩ := decode_large hc hm (hpool _ _ hm.present) h
    exact ⟨_, hd⟩
  | payload i m hm h =>
    obtain ⟨what, hd⟩ := decode_long hc hm (hpool _ _ hm.present) h
    exact ⟨_, hd⟩
  | symbol f h => exact ⟨f, h.decode R hc⟩

theorem decode_cases (hm : Pooled pool c i m) (hsafe : ¬ Strays R pool c) :
    decode K (fetch pool c) = .ok none ∨
      ∃ o, decode K (fetch pool c) = .ok o ∧ Recovered R pool c (.ok o) := by
  have hz : m.sizeOf ≤ maxPacketSize := by
    by_contra h
    exact hsafe (.packet i m hm (by omega))
  have hroom : c.msg.length ≤ payloadRoom := by
    by_contra h
    exact hsafe (.payload i m hm (by omega))
  rcases decode_fitting R hc hm (hpool _ _ hm.present) hz hroom with h | h
  · exact .inl h
  · cases hd : decode K (fetch pool c) with
    | error f =>
      rw [hd] at h
      exact absurd (.symbol f h) hsafe
    | ok o =>
      rw [hd] at h
      exact .inr ⟨o, rfl, h⟩

end Pool

theorem scanEntries_paired (buf : Nat → UInt8) (size : Nat) {x : Scan} (count : Nat)
    (h : x.msg.toAddrs.length = x.msg.fromIds.length) :
    (scanEntries buf size x count).msg.toAddrs.length =
      (scanEntries buf size x count).msg.fromIds.length := by
  induction count with
  | zero => exact h
  | succ k ih =>
    rw [scanEntries_succ]
    simp only [scanEntry, UDPNCMessage.putIdsAddr, UDPNCMessage.putPacketId, UDPNCMessage.putFromId,
      UDPNCMessage.putToAddr, List.length_append, ih, List.length_singleton, Bool.false_eq_true,
      if_false]

/-- Also a table that goes on behind the datagram yields an address for each id. -/
theorem Datagram.parse_paired (d : Datagram) : d.parse.msg.toAddrs.length = d.parse.msg.fromIds.length := by
  have hs : d.scan.msg.toAddrs.length = d.scan.msg.fromIds.length := scanEntries_paired _ _ _ rfl
  by_cases h : d.size ≤ 8
  · rw [Datagram.parse_short h]
    rfl
  cases hv : d.header.isUDPNCHeader with
  | false =>
    rw [Datagram.parse_foreign (by omega) hv]
    rfl
  | true =>
    rw [Datagram.parse_valid (by omega) hv, readBody]
    split
    · dsimp only
      split
      · exact hs
      · exact hs
    · exact hs

theorem Recovered.paired {x : UDPNCMessage} (h : Recovered R pool c (.ok (some x))) :
    x.toAddrs.length = x.fromIds.length := by
  obtain ⟨i, m, s, t, checksum, -, -, -, -, -, -, -, hres⟩ := h
  simp only [readSymbol] at hres
  split at hres
  · cases hres
  cases hr : (symbolDatagram (symbolsAt i s t) (1 - i)).parse.ret with
  | error f => simp [hr, bind, Except.bind] at hres
  | ok k =>
    simp only [hr, bind, Except.bind] at hres
    split at hres
    · split at hres
      · cases hres
      · split at hres
        · cases hres
        · rw [Option.some.inj (Except.ok.inj hres)]
          exact Datagram.parse_paired _
    · cases hres

end VastNC
