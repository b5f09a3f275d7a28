import VastNC.Deserialize

/-! The wire format of `UDPNCMessage`: what `serialize` writes is what `deserialize`
reads, in both directions, and where `sizeOf` departs from it. -/

namespace VastNC

open LittleEndian

namespace UDPNCMessage

theorem entries_split (m : UDPNCMessage) {i n : Nat} (h : i < n) :
    ∃ post, m.entries n = m.entries i ++
      entryBytes (m.pktIds.getD i 0) (m.fromIds.getD i 0) (m.toAddrs.getD i default) ++ post := by
  induction n with
  | zero => omega
  | succ n ih =>
    rw [entries_succ]
    by_cases hi : i = n
    · exact ⟨[], by rw [hi, List.append_nil]⟩
    · obtain ⟨post, hp⟩ := ih (by omega)
      exact ⟨_, by rw [hp, List.append_assoc]⟩

theorem getD_map_range {α : Type*} (l : List α) (a : α) :
    (List.range l.length).map (fun i => l.getD i a) = l := by
  apply List.ext_getElem (by simp)
  intro i h₁ h₂
  simp [List.getD_eq_getElem?_getD, h₂]

end UDPNCMessage

section Read

variable {buf : Nat → UInt8} {m : UDPNCMessage} {n : Nat}

theorem headerOf_wire (hw : window buf 0 m.wire.length = m.wire) : headerOf buf = m.header := by
  have hs : m.wire = [] ++ m.header.toBytes ++ (toLE 4 m.checksum.toNat ++
      m.entries m.header.encPacketCount.toNat ++ m.msg) := by
    simp [UDPNCMessage.wire]
  rw [headerOf, window_slice hw hs (by simp) (by simp), UDPNCHeader.ofBytes_toBytes]

theorem checksumOf_wire (hw : window buf 0 m.wire.length = m.wire) : checksumOf buf = m.checksum := by
  have hs : m.wire = m.header.toBytes ++ toLE 4 m.checksum.toNat ++
      (m.entries m.header.encPacketCount.toNat ++ m.msg) := by
    simp [UDPNCMessage.wire]
  have hc : ofLE (toLE 4 m.checksum.toNat) = m.checksum.toNat :=
    ofLE_toLE_of_lt m.checksum.toNat_lt
  rw [checksumOf, window_slice hw hs (by simp) (by simp), hc, UInt32.ofNat_toNat]

theorem readU64_eq {off : Nat} {v : UInt64} (h : window buf off 8 = toLE 8 v.toNat) :
    readU64 buf off = v := by
  have hv : ofLE (toLE 8 v.toNat) = v.toNat := ofLE_toLE_of_lt v.toNat_lt
  rw [readU64, h, hv, UInt64.ofNat_toNat]

theorem entry_wire (h : m.Sized n) (hw : window buf 0 m.wire.length = m.wire) {i : Nat} (hi : i < n) :
    readU64 buf (12 + 24 * i) = m.pktIds.getD i 0 ∧
    readU64 buf (12 + 24 * i + 8) = m.fromIds.getD i 0 ∧
    IPaddr.ofBytes (window buf (12 + 24 * i + 16) 8) = m.toAddrs.getD i default := by
  obtain ⟨post, hp⟩ := m.entries_split hi
  have hs : m.wire = m.header.toBytes ++ toLE 4 m.checksum.toNat ++ m.entries i ++
      toLE 8 (m.pktIds.getD i 0).toNat ++ toLE 8 (m.fromIds.getD i 0).toNat ++
      (m.toAddrs.getD i default).serialize ++ (post ++ m.msg) := by
    simp only [UDPNCMessage.wire, h.count, hp, UDPNCMessage.entryBytes, List.append_assoc]
  have hs₀ : m.wire = m.header.toBytes ++ toLE 4 m.checksum.toNat ++ m.entries i ++
      toLE 8 (m.pktIds.getD i 0).toNat ++ (toLE 8 (m.fromIds.getD i 0).toNat ++
        (m.toAddrs.getD i default).serialize ++ (post ++ m.msg)) := by
    simpa only [List.append_assoc] using hs
  have hs₁ : m.wire = m.header.toBytes ++ toLE 4 m.checksum.toNat ++ m.entries i ++
      toLE 8 (m.pktIds.getD i 0).toNat ++ toLE 8 (m.fromIds.getD i 0).toNat ++
        ((m.toAddrs.getD i default).serialize ++ (post ++ m.msg)) := by
    simpa only [List.append_assoc] using hs
  refine ⟨readU64_eq ?_, readU64_eq ?_, ?_⟩
  · exact window_slice hw hs₀ (by simp; omega) (by simp)
  · exact window_slice hw hs₁ (by simp; omega) (by simp)
  · rw [window_slice hw hs (by simp; omega) (by simp), IPaddr.ofBytes_serialize]

theorem msg_wire (h : m.Sized n) (hw : window buf 0 m.wire.length = m.wire) :
    window buf (12 + 24 * n) m.getMessageSize = m.msg := by
  have hs : m.wire = m.header.toBytes ++ toLE 4 m.checksum.toNat ++
      m.entries m.header.encPacketCount.toNat ++ m.msg ++ [] := by
    simp [UDPNCMessage.wire]
  exact window_slice hw hs (by simp [h.count]; omega) h.packetsize.symm

theorem messageAt_wire (h : m.Sized n) (hw : window buf 0 m.wire.length = m.wire) :
    messageAt buf = { m with socketAddr := ⟨0, 0, 0⟩ } := by
  have hh := headerOf_wire hw
  have hps : m.header.packetsize.toNat = m.getMessageSize := rfl
  have hp : (List.range n).map (fun i => readU64 buf (12 + 24 * i)) = m.pktIds := by
    rw [← UDPNCMessage.getD_map_range m.pktIds 0, h.pktIds]
    exact List.map_congr_left (fun i hi => (entry_wire h hw (List.mem_range.mp hi)).1)
  have hf : (List.range n).map (fun i => readU64 buf (12 + 24 * i + 8)) = m.fromIds := by
    rw [← UDPNCMessage.getD_map_range m.fromIds 0, h.fromIds]
    exact List.map_congr_left (fun i hi => (entry_wire h hw (List.mem_range.mp hi)).2.1)
  have ha : (List.range n).map (fun i => IPaddr.ofBytes (window buf (12 + 24 * i + 16) 8)) =
      m.toAddrs := by
    rw [← UDPNCMessage.getD_map_range m.toAddrs default, h.toAddrs]
    exact List.map_congr_left (fun i hi => (entry_wire h hw (List.mem_range.mp hi)).2.2)
  simp only [messageAt, hh, h.count, hp, hf, ha, hps, msg_wire h hw, checksumOf_wire hw]

end Read

section Write

variable (buf : Nat → UInt8)

theorem messageAt_sized : (messageAt buf).Sized (headerOf buf).encPacketCount.toNat where
  count := rfl
  pktIds := by simp [messageAt]
  fromIds := by simp [messageAt]
  toAddrs := by simp [messageAt]
  packetsize := by simp [messageAt, UDPNCMessage.getMessageSize]

theorem toLE_readU64 (off : Nat) : toLE 8 (readU64 buf off).toNat = window buf off 8 := by
  rw [readU64, UInt64.toNat_ofNat', toLE_ofLE_mod (m := 2 ^ 64) (length_window buf off 8) rfl]

theorem entries_messageAt {k : Nat} (hk : k ≤ (headerOf buf).encPacketCount.toNat) :
    (messageAt buf).entries k = window buf 12 (24 * k) := by
  induction k with
  | zero => rfl
  | succ k ih =>
    have hp : (messageAt buf).pktIds.getD k 0 = readU64 buf (12 + 24 * k) := by
      simp [messageAt, List.getD_eq_getElem?_getD, show k < (headerOf buf).encPacketCount.toNat by omega]
    have hf : (messageAt buf).fromIds.getD k 0 = readU64 buf (12 + 24 * k + 8) := by
      simp [messageAt, List.getD_eq_getElem?_getD, show k < (headerOf buf).encPacketCount.toNat by omega]
    have ha : (messageAt buf).toAddrs.getD k default =
        IPaddr.ofBytes (window buf (12 + 24 * k + 16) 8) := by
      simp [messageAt, List.getD_eq_getElem?_getD, show k < (headerOf buf).encPacketCount.toNat by omega]
    have he : window buf (12 + 24 * k) (8 + 8 + 8) = window buf (12 + 24 * k) 8 ++
        window buf (12 + 24 * k + 8) 8 ++ window buf (12 + 24 * k + 16) 8 := by
      rw [window_add, window_add]
    rw [UDPNCMessage.entries_succ, ih (by omega), hp, hf, ha, UDPNCMessage.entryBytes,
      toLE_readU64, toLE_readU64, IPaddr.serialize_ofBytes (by simp), ← he, ← window_add]
    rfl

theorem wire_messageAt :
    (messageAt buf).wire =
      window buf 0 (tableSize (headerOf buf) + (headerOf buf).packetsize.toNat) := by
  have hh : (messageAt buf).header.toBytes = window buf 0 8 :=
    UDPNCHeader.toBytes_ofBytes (by simp)
  have hc : toLE 4 (messageAt buf).checksum.toNat = window buf 8 4 := by
    simp only [messageAt, checksumOf, UInt32.toNat_ofNat']
    exact toLE_ofLE_mod (length_window buf 8 4) rfl
  have he := entries_messageAt buf le_rfl
  have ht : window buf 0 12 = window buf 0 8 ++ window buf 8 4 := window_add buf 0 8 4
  have hw := window_add buf 0 (tableSize (headerOf buf)) (headerOf buf).packetsize.toNat
  rw [Nat.zero_add, tableSize, window_add buf 0 12, Nat.zero_add, ht] at hw
  rw [tableSize, hw, UDPNCMessage.wire, hh, hc, ← he]
  rfl

end Write

theorem Datagram.parse_wire {d : Datagram} {m : UDPNCMessage} {n : Nat} (h : m.Sized n)
    (hv : m.header.isUDPNCHeader = true) (hs : 8 < d.size) (hle : m.wire.length ≤ d.size)
    (hw : window d.buf 0 m.wire.length = m.wire) :
    d.parse.ret = .ok (12 + 24 * n + m.getMessageSize : Nat) ∧
      d.parse.msg = { m with socketAddr := ⟨0, 0, 0⟩ } := by
  have hh : d.header = m.header := headerOf_wire hw
  have ht : tableSize d.header = 12 + 24 * n := by rw [hh, tableSize, h.count]
  have hp : d.packetsize = m.getMessageSize := by rw [Datagram.packetsize, hh]; rfl
  have hl := UDPNCMessage.length_wire h
  have hd := Datagram.parse_whole (d := d) hs (by rw [hh, hv]) (by omega)
  rw [hd.1, hd.2, messageAt_wire h hw, ht, hp]
  exact ⟨rfl, rfl⟩

def UDPNCMessage.datagram (m : UDPNCMessage) : Datagram := ⟨memOf m.wire, m.wire.length, default⟩

theorem UDPNCMessage.datagram_spec {m : UDPNCMessage} {n : Nat} (h : m.Sized n)
    (hv : m.header.isUDPNCHeader = true) :
    m.datagram.Complete ∧ m.datagram.header = m.header ∧
      m.datagram.parse.msg = { m with socketAddr := ⟨0, 0, 0⟩ } := by
  have hl := length_wire h
  have hw : window m.datagram.buf 0 m.wire.length = m.wire := window_memOf m.wire
  have hs : 8 < m.datagram.size := by simp only [datagram, hl]; omega
  obtain ⟨hr, hm⟩ := Datagram.parse_wire h hv hs le_rfl hw
  refine ⟨⟨_, hr, by omega, ?_⟩, headerOf_wire hw, hm⟩
  simp only [datagram, hl]
  omega

/-- `serialize` and `deserialize` are inverse to each other, in both directions. -/
theorem serialize_deserialize_inverse :
    (∀ (m : UDPNCMessage) (n : Nat), m.Sized n → m.header.isUDPNCHeader = true →
      ∃ w, m.serialize = .ok (w, 12 + 24 * n + m.getMessageSize) ∧
        w.length = 12 + 24 * n + m.getMessageSize ∧
        ∀ d : Datagram, 8 < d.size → w.length ≤ d.size → window d.buf 0 w.length = w →
          d.parse.ret = .ok (w.length : Int) ∧ d.parse.msg.contentEquals m = true) ∧
    (∀ (d : Datagram) (k : Nat), d.parse.ret = .ok (k : Int) → 0 < k → k ≤ d.size →
      d.parse.msg.serialize = .ok (window d.buf 0 k, k)) := by
  constructor
  · intro m n h hv
    have hl := UDPNCMessage.length_wire h
    refine ⟨m.wire, UDPNCMessage.serialize_eq h, hl, fun d hs hle hw => ?_⟩
    obtain ⟨hr, hm⟩ := Datagram.parse_wire h hv hs hle hw
    refine ⟨by rw [hr, hl], ?_⟩
    rw [hm, UDPNCMessage.contentEquals_iff]
    exact ⟨rfl, rfl, rfl, UDPNCMessage.addrsEqual_self _, rfl, rfl⟩
  · intro d k hr hk hle
    have hc : d.Complete := ⟨k, hr, by omega, by omega⟩
    obtain ⟨-, -, -, hm, hr'⟩ := hc.spec
    have hk' : k = tableSize d.header + d.packetsize := by
      rw [hr, Except.ok.injEq] at hr'
      omega
    rw [hm, UDPNCMessage.serialize_eq (messageAt_sized d.buf), wire_messageAt, hk']
    rfl

def samplePacket (pktId fromId : UInt64) (addr : IPaddr) : UDPNCMessage :=
  .single ⟨startBits, 0, 1#4, 0, 0, 0, 0, endBits⟩ pktId fromId addr 3 [1, 0, 2]

theorem samplePacket_sized (pktId fromId : UInt64) (addr : IPaddr) :
    (samplePacket pktId fromId addr).Sized 1 :=
  UDPNCMessage.single_sized _ _ _ _ _ (by decide)

theorem samplePacket_roundtrip :
    ∃ w, (samplePacket 7 5 ⟨0x0A000001, 1037, 0⟩).serialize = .ok (w, 39) ∧
      (Datagram.mk (memOf w) 39 default).parse.ret = .ok 39 ∧
      (Datagram.mk (memOf w) 39 default).parse.msg.contentEquals
        (samplePacket 7 5 ⟨0x0A000001, 1037, 0⟩) = true := by
  obtain ⟨w, hw, hl, hd⟩ := serialize_deserialize_inverse.1 (samplePacket 7 5 ⟨0x0A000001, 1037, 0⟩)
    1 (samplePacket_sized 7 5 _) (by decide)
  have hl' : w.length = 39 := hl
  obtain ⟨hr, hm⟩ := hd ⟨memOf w, 39, default⟩ (by simp) hl'.le (window_memOf w)
  rw [hl'] at hr
  exact ⟨w, hw, hr, hm⟩

namespace UDPNCMessage

theorem sizeOf_eq {m : UDPNCMessage} {n : Nat} (h : m.Sized n) :
    m.sizeOf = 16 + 20 * n + m.getMessageSize := by
  simp only [sizeOf, h.count, sizeofHeader, getMessageSize]
  omega

def SizeAgrees (m : UDPNCMessage) : Prop :=
  ∃ w k, m.serialize = .ok (w, k) ∧ w.length = k ∧ m.serializeNull = m.sizeOf ∧ m.sizeOf = k

/-- The address term of `sizeOf` is right for one id only. -/
theorem sizeAgrees_iff {m : UDPNCMessage} {n : Nat} (h : m.Sized n) : m.SizeAgrees ↔ n = 1 := by
  have hs := serialize_eq h
  have hl := length_wire h
  have hz := sizeOf_eq h
  constructor
  · rintro ⟨w, k, hw, -, -, hk⟩
    rw [hs, Except.ok.injEq, Prod.mk.injEq] at hw
    omega
  · intro hn
    exact ⟨m.wire, _, hs, hl, rfl, by omega⟩

theorem sizeAgrees_samplePacket : (samplePacket 7 5 ⟨0x0A000001, 1037, 0⟩).SizeAgrees :=
  (sizeAgrees_iff (samplePacket_sized 7 5 ⟨0x0A000001, 1037, 0⟩)).mpr rfl

theorem sizeAgrees_fails_coded :
    ∃ m : UDPNCMessage, m.Sized 2 ∧ m.sizeOf = 59 ∧ (∃ w, m.serialize = .ok (w, 63)) ∧
      ¬ m.SizeAgrees := by
  let m := (samplePacket 7 5 ⟨0x0A000001, 1037, 0⟩).putIdsAddr 8 6 ⟨0x0A000002, 1037, 0⟩ true
  have hs : m.Sized 2 := ⟨by decide, by decide, by decide, by decide, by decide⟩
  have hw := serialize_eq hs
  have hz : m.sizeOf = 59 := by decide
  refine ⟨m, hs, hz, ⟨m.wire, hw⟩, ?_⟩
  rintro ⟨w, k, hw', -, -, hk⟩
  rw [hw, Except.ok.injEq, Prod.mk.injEq] at hw'
  have hg : m.getMessageSize = 3 := by decide
  omega

end UDPNCMessage

end VastNC
