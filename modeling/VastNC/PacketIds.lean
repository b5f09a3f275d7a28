import VastNC.Lib.WordMixing
import VastNC.Sender

/-! How packet ids follow from the sender's id and its packet counter, and why they are distinct. -/

namespace VastNC

open Function WordMixing

namespace UDPNCMessage

/-- The host id as `generatePacketId` mixes it before the sequence number is added. -/
def mixHostId (id : UInt64) : UInt64 :=
  let x := id + 0x9e3779b97f4a7c15
  let x := x ^^^ (x >>> 30)
  let x := x * 0xbf58476d1ce4e5b9
  let x := x ^^^ (x >>> 27)
  let x := x * 0x94d049bb133111eb
  x ^^^ (x >>> 31)

theorem generatePacketId_eq (id : UInt64) (sequenceNumber : Int) :
    generatePacketId id sequenceNumber = mixHostId id + UInt64.ofInt sequenceNumber := rfl

theorem toBitVec_injective : Injective UInt64.toBitVec := fun _ _ => UInt64.toBitVec_inj.mp

theorem xorShift_word_injective {n : UInt64} (hn : 0 < n.toNat % 64) :
    Injective (fun x : UInt64 => x ^^^ (x >>> n)) := by
  intro x y h
  apply toBitVec_injective
  apply xorShift_injective hn
  simpa using congrArg UInt64.toBitVec h

theorem mul_word_injective {a : UInt64} (ha : a.toNat % 2 = 1) : Injective (fun x : UInt64 => x * a) := by
  intro x y h
  apply toBitVec_injective
  apply mul_odd_injective (a := a.toBitVec) ha
  simpa using congrArg UInt64.toBitVec h

theorem mixHostId_injective : Injective mixHostId := by
  have h30 := xorShift_word_injective (n := 30) (by decide)
  have h27 := xorShift_word_injective (n := 27) (by decide)
  have h31 := xorShift_word_injective (n := 31) (by decide)
  have hmul := mul_word_injective (a := 0xbf58476d1ce4e5b9) (by decide)
  have hmul' := mul_word_injective (a := 0x94d049bb133111eb) (by decide)
  intro x y h
  exact add_left_injective _ (h30 (hmul (h27 (hmul' (h31 h)))))

theorem generatePacketId_host_injective (sequenceNumber : Int) :
    Injective (fun id => generatePacketId id sequenceNumber) := by
  intro x y h
  apply mixHostId_injective
  simpa only [generatePacketId_eq, add_left_inj] using h

theorem generatePacketId_sequence_injective (id : UInt64) :
    Injective (fun n : Int32 => generatePacketId id n.toInt) := by
  intro m n h
  have hofInt : UInt64.ofInt m.toInt = UInt64.ofInt n.toInt := by
    simpa only [generatePacketId_eq, add_right_inj] using h
  have hmod := congrArg UInt64.toNat hofInt
  simp only [UInt64.ofInt, UInt64.toNat_ofNat'] at hmod
  have hm := And.intro m.le_toInt m.toInt_lt
  have hn := And.intro n.le_toInt n.toInt_lt
  apply Int32.toInt_inj.mp
  omega

/-- The counter as it is passed to `generatePacketId`, converted to `int`. -/
def sequenceNumber (pktGenCount : Nat) : Int32 := (UInt32.ofNat pktGenCount).toInt32

theorem sequenceNumber_inj {a b : Nat} : sequenceNumber a = sequenceNumber b ↔ a % 2 ^ 32 = b % 2 ^ 32 := by
  simp only [sequenceNumber, ← Int32.toBitVec_inj, UInt32.toBitVec_toInt32]
  simp [← BitVec.toNat_inj]

end UDPNCMessage

namespace Sender

open UDPNCMessage

variable {s s' t t' : Sender} {q q' : SendRequest} {m n : UDPNCMessage} {bytes bytes' : List UInt8}

theorem sendHelper_pktIds (h : s.sendHelper q = .ok (s', m, bytes)) :
    s'.myID = s.myID ∧ s'.pktGenCount = s.pktGenCount + 1 ∧
      m.pktIds = [generatePacketId s.myID (sequenceNumber s.pktGenCount).toInt] := by
  obtain ⟨body, decoder, rfl, rfl⟩ := sendHelper_cases h
  exact ⟨rfl, rfl, rfl⟩

theorem sendAll_pktIds {qs : List SendRequest} {ms : List UDPNCMessage} {i : Nat}
    (h : s.sendAll qs = .ok (s', ms)) (hi : ms[i]? = some m) :
    m.pktIds = [generatePacketId s.myID (sequenceNumber (s.pktGenCount + i)).toInt] := by
  induction qs generalizing s ms i with
  | nil =>
    obtain ⟨-, rfl⟩ : s = s' ∧ [] = ms := by simpa [sendAll] using h
    simp at hi
  | cons q qs ih =>
    obtain ⟨t, n, w, ns, hq, hr, rfl⟩ := sendAll_cons h
    obtain ⟨hid, hcount, hp⟩ := sendHelper_pktIds hq
    cases i with
    | zero =>
      obtain rfl : n = m := by simpa using hi
      exact hp
    | succ i =>
      have hh := ih hr (by simpa using hi)
      rw [hid, hcount] at hh
      rw [hh, show s.pktGenCount + 1 + i = s.pktGenCount + (i + 1) by omega]

/-- Ids differ along either argument: one sender repeats an id only when its counter comes round, and two
senders share none at equal counters. -/
theorem packet_ids_distinct :
    (∀ n : Int32, Injective (fun id => generatePacketId id n.toInt)) ∧
    (∀ id, Injective (fun n : Int32 => generatePacketId id n.toInt)) ∧
    (∀ (s s' : Sender) (qs : List SendRequest) (ms : List UDPNCMessage) (i j : Nat) (m n : UDPNCMessage),
      s.sendAll qs = .ok (s', ms) → ms[i]? = some m → ms[j]? = some n →
      (m.pktIds = n.pktIds ↔ i % 2 ^ 32 = j % 2 ^ 32)) ∧
    (∀ (s s' t t' : Sender) (qs rs : List SendRequest) (ms ns : List UDPNCMessage) (i j : Nat)
      (m n : UDPNCMessage), s.sendAll qs = .ok (s', ms) → t.sendAll rs = .ok (t', ns) →
      ms[i]? = some m → ns[j]? = some n → (s.pktGenCount + i) % 2 ^ 32 = (t.pktGenCount + j) % 2 ^ 32 →
      (m.pktIds = n.pktIds ↔ s.myID = t.myID)) := by
  refine ⟨fun n => generatePacketId_host_injective n.toInt, generatePacketId_sequence_injective, ?_, ?_⟩
  · intro s s' qs ms i j m n h hi hj
    rw [sendAll_pktIds h hi, sendAll_pktIds h hj, List.singleton_inj,
      (generatePacketId_sequence_injective s.myID).eq_iff, sequenceNumber_inj]
    omega
  · intro s s' t t' qs rs ms ns i j m n h h' hi hj hcount
    rw [sendAll_pktIds h hi, sendAll_pktIds h' hj, List.singleton_inj, sequenceNumber_inj.mpr hcount,
      (generatePacketId_host_injective _).eq_iff]

def greeting : SendRequest := ⟨some [1], 0, 9, 0⟩

theorem sendAll_greeting (h : (s.sendHelper greeting).toOption.isSome = true) :
    ∃ s' m, s.sendAll [greeting] = .ok (s', [m]) := by
  cases hq : s.sendHelper greeting with
  | error f => simp [hq, Except.toOption] at h
  | ok r => exact ⟨r.1, r.2.1, by simp [sendAll, hq, bind, Except.bind]⟩

theorem packet_ids_distinct_neighbors :
    generatePacketId 7 (-1) ≠ generatePacketId 8 (-1) ∧ generatePacketId 7 (-1) ≠ generatePacketId 7 0 ∧
    ∃ s' t' m n, Sender.sendAll { myID := 7 } [greeting] = .ok (s', [m]) ∧
      Sender.sendAll { myID := 8 } [greeting] = .ok (t', [n]) ∧ m.pktIds ≠ n.pktIds := by
  refine ⟨?_, ?_, ?_⟩
  · intro h
    exact absurd (packet_ids_distinct.1 (-1) h) (by decide)
  · intro h
    exact absurd (packet_ids_distinct.2.1 7 (show generatePacketId 7 (Int32.toInt (-1)) =
      generatePacketId 7 (Int32.toInt 0) from h)) (by decide)
  · obtain ⟨s', m, hs⟩ := sendAll_greeting (s := { myID := 7 }) (by decide +kernel)
    obtain ⟨t', n, ht⟩ := sendAll_greeting (s := { myID := 8 }) (by decide +kernel)
    have hiff := packet_ids_distinct.2.2.2 _ _ _ _ _ _ _ _ 0 0 m n hs ht rfl rfl rfl
    exact ⟨s', t', m, n, hs, ht, fun h => absurd (hiff.mp h) (by decide)⟩

end Sender

end VastNC
