import VastNC.Recoder
import VastNC.Deserialize
import VastNC.Lib.FallibleRun

/-! `packet_listener`: the receive path of the coding host. -/

namespace VastNC

open LittleEndian

structure Listener where
  recoder : Recoder
  msgs : List UDPNCMessage := []
  recvfrommapCount : Std.ExtTreeMap UInt64 Nat := ∅

namespace Listener

/-- `padding` is what the header factory's member was created with. -/
def start (padding : BitVec 4) : Listener := { recoder := { headerFactory := { padding } } }

/-- The header is looked at before `deserialize` runs, and the value that
`deserialize` returns is not used. -/
def processInput (K : Kodo) (l : Listener) (d : Datagram) : Except Fault Listener :=
  if d.header.isUDPNCHeader = false then .ok l
  else if 1 < d.header.encPacketCount.toNat then .ok l
  else do
    let _ ← d.parse.ret
    let message := d.parse.msg
    let fromId ← message.getFirstFromId
    if fromId = netIdUnassigned then .ok l
    else if message.getMessageSize = 0 then .ok l
    else
      let counts := l.recvfrommapCount.insert fromId (l.recvfrommapCount.getD fromId 0 + 1)
      let recoder ← l.recoder.addUDPNCMessage message
      let (tempMsg, recoder) ← recoder.produceUDPNCMessage K
      .ok { recoder, msgs := l.msgs ++ tempMsg.toList, recvfrommapCount := counts }

end Listener

theorem readBody_msg (buf : Nat → UInt8) (size packetsize : Nat) (s : Scan) :
    ∃ body, (readBody buf size packetsize s).msg = s.msg.assignMsg body := by
  by_cases hp : size < packetsize
  · by_cases hw : stringMaxSize < toSizeT ((size : Int) - s.n)
    · exact ⟨s.msg.msg, by simp only [readBody, hp, hw, if_true]; rfl⟩
    · exact ⟨_, by simp only [readBody, hp, hw, if_true, if_false]; rfl⟩
  · exact ⟨_, by simp only [readBody, hp, if_false]; rfl⟩

theorem scanEntries_length_toAddrs (buf : Nat → UInt8) (size : Nat) (s : Scan) (k : Nat) :
    (scanEntries buf size s k).msg.toAddrs.length = s.msg.toAddrs.length + k := by
  induction k with
  | zero => rfl
  | succ k ih =>
    rw [scanEntries_succ]
    simp only [scanEntry, UDPNCMessage.putIdsAddr, UDPNCMessage.putPacketId, UDPNCMessage.putFromId,
      UDPNCMessage.putToAddr, List.length_append, List.length_singleton, Bool.false_eq_true,
      if_false, ih]
    omega

namespace Datagram

variable {d : Datagram}

theorem parse_fields (hs : 8 < d.size) (hv : d.header.isUDPNCHeader = true) :
    d.parse.msg.header = d.header ∧
    d.parse.msg.pktIds =
      (List.range d.header.encPacketCount.toNat).map (fun i => readU64 d.buf (12 + 24 * i)) ∧
    d.parse.msg.fromIds =
      (List.range d.header.encPacketCount.toNat).map (fun i => readU64 d.buf (12 + 24 * i + 8)) ∧
    d.parse.msg.toAddrs.length = d.header.encPacketCount.toNat ∧
    d.parse.msg.socketAddr = ⟨0, 0, 0⟩ := by
  rw [parse_valid hs hv]
  obtain ⟨body, hb⟩ := readBody_msg d.buf d.size d.packetsize d.scan
  rw [hb]
  have hframe := scanEntries_frame d.buf d.size
    ⟨12, { UDPNCMessage.new d.junk with header := d.header, checksum := checksumOf d.buf },
      [.read 0 8, .read 8 4]⟩ d.header.encPacketCount.toNat
  have hids := scanEntries_ids d.buf d.size
    ⟨12, { UDPNCMessage.new d.junk with header := d.header, checksum := checksumOf d.buf },
      [.read 0 8, .read 8 4]⟩ d.header.encPacketCount.toNat
  have haddr := scanEntries_length_toAddrs d.buf d.size
    ⟨12, { UDPNCMessage.new d.junk with header := d.header, checksum := checksumOf d.buf },
      [.read 0 8, .read 8 4]⟩ d.header.encPacketCount.toNat
  simp only [UDPNCMessage.new, List.nil_append, List.length_nil, Nat.zero_add] at hids haddr
  exact ⟨hframe.1, hids.1, hids.2, haddr, hframe.2.2.2⟩

theorem parse_uncoded (hs : 8 < d.size) (hv : d.header.isUDPNCHeader = true)
    (hc : d.header.encPacketCount.toNat = 1) :
    ∃ addr, d.parse.msg.Uncoded (readU64 d.buf 12) (readU64 d.buf 20) addr := by
  obtain ⟨hh, hp, hf, ha, -⟩ := parse_fields hs hv
  rw [hc] at hp hf ha
  obtain ⟨addr, haddr⟩ := List.length_eq_one_iff.mp ha
  exact ⟨addr, by rw [hh, hc], hp, hf, haddr⟩

theorem getFirstFromId_parse_none (hv : d.header.isUDPNCHeader = true)
    (h : d.size ≤ 8 ∨ d.header.encPacketCount.toNat = 0) :
    d.parse.msg.getFirstFromId = .error (.undefined "front of an empty vector") := by
  have hf : d.parse.msg.fromIds = [] := by
    by_cases hs : d.size ≤ 8
    · rw [parse_short hs]
      rfl
    · have hc := h.resolve_left hs
      rw [(parse_fields (by omega) hv).2.2.1, hc]
      rfl
  rw [UDPNCMessage.getFirstFromId, hf]
  rfl

end Datagram

def pooledWith (pool : PacketPool) (m : UDPNCMessage) : PacketPool :=
  if m.sizeOf < maxPacketSize then pool.insert (m.pktIds.headD 0) m else pool

def Admissible (m : UDPNCMessage) : Prop :=
  (∃ pktId fromId addr, m.Uncoded pktId fromId addr ∧ fromId ≠ netIdUnassigned) ∧
    0 < m.getMessageSize

theorem Admissible.poolEntries {pool : PacketPool} {m : UDPNCMessage} (h : Admissible m)
    (hp : PoolEntries pool) : PoolEntries (pooledWith pool m) := by
  intro key n hn
  by_cases hz : m.sizeOf < maxPacketSize
  · rw [pooledWith, if_pos hz, Std.ExtTreeMap.getElem?_insert] at hn
    obtain ⟨⟨pktId, fromId, addr, hu, hf⟩, hps⟩ := h
    by_cases hk : compare (m.pktIds.headD 0) key = .eq
    · rw [if_pos hk, Option.some.injEq] at hn
      have he := Std.LawfulEqCmp.eq_of_compare hk
      rw [hu.pktIds, List.headD_cons] at he
      rw [← hn, ← he]
      exact ⟨⟨fromId, addr, hu, hf⟩, hps, hz⟩
    · rw [if_neg hk] at hn
      exact hp key n hn
  · rw [pooledWith, if_neg hz] at hn
    exact hp key n hn

/-- One call of `process_input` that returns, seen from the pool and the queue. -/
inductive ListenerStep (K : Kodo) (l : Listener) (m : UDPNCMessage) (l' : Listener) : Prop where
  | ignored (hm : m.fromIds = [netIdUnassigned] ∨ m.getMessageSize = 0) (heq : l' = l)
  | pooled (hm : Admissible m) (hone : OneHost (pooledWith l.recoder.packetPool m))
      (hpool : l'.recoder = { l.recoder with packetPool := pooledWith l.recoder.packetPool m })
      (hmsgs : l'.msgs = l.msgs)
  | coded (hm : Admissible m) (key1 key2 : UInt64) (p q c : UDPNCMessage)
      (h1 : (pooledWith l.recoder.packetPool m)[key1]? = some p)
      (h2 : (pooledWith l.recoder.packetPool m)[key2]? = some q) (hkeys : key1 ≠ key2)
      (hne : p.fromIds ≠ q.fromIds) (hids : c.pktIds = [key1, key2])
      (hc : Combines K l.recoder.packetsEncoded p q c)
      (hpool : l'.recoder.packetPool =
        ((pooledWith l.recoder.packetPool m).erase key1).erase key2)
      (hcount : l'.recoder.packetsEncoded = l.recoder.packetsEncoded + 1)
      (hmsgs : l'.msgs = l.msgs ++ [c])

namespace Listener

variable {K : Kodo} {l l' : Listener} {d : Datagram}

theorem processInput_uncoded (hp : PoolEntries l.recoder.packetPool) (hs : 8 < d.size)
    (hv : d.header.isUDPNCHeader = true) (hc : d.header.encPacketCount.toNat = 1) {k : Int}
    (hr : d.parse.ret = .ok k) :
    ∃ l', processInput K l d = .ok l' ∧ ListenerStep K l d.parse.msg l' := by
  obtain ⟨addr, hu⟩ := Datagram.parse_uncoded hs hv hc
  have hfrom := hu.getFirstFromId
  have hv' : ¬ d.header.isUDPNCHeader = false := by simp [hv]
  have hc' : ¬ 1 < d.header.encPacketCount.toNat := by omega
  by_cases hf : readU64 d.buf 20 = netIdUnassigned
  · refine ⟨l, ?_, .ignored (.inl (by rw [hu.fromIds, hf])) rfl⟩
    rw [processInput, if_neg hv', if_neg hc']
    simp only [hr, hfrom, hf, if_true, bind, Except.bind]
  by_cases hz : d.parse.msg.getMessageSize = 0
  · refine ⟨l, ?_, .ignored (.inr hz) rfl⟩
    rw [processInput, if_neg hv', if_neg hc']
    simp only [hr, hfrom, hf, hz, if_true, if_false, bind, Except.bind]
  have hm : Admissible d.parse.msg := ⟨⟨_, _, addr, hu, hf⟩, by omega⟩
  have hadd : l.recoder.addUDPNCMessage d.parse.msg =
      .ok { l.recoder with packetPool := pooledWith l.recoder.packetPool d.parse.msg } := by
    rw [Recoder.addUDPNCMessage_eq hp hu hf, pooledWith, hu.pktIds, List.headD_cons]
  let counts := l.recvfrommapCount.insert (readU64 d.buf 20)
    (l.recvfrommapCount.getD (readU64 d.buf 20) 0 + 1)
  have hrun {temp : Option UDPNCMessage} {r : Recoder}
      (hprod : Recoder.produceUDPNCMessage K
        { l.recoder with packetPool := pooledWith l.recoder.packetPool d.parse.msg } = .ok (temp, r)) :
      processInput K l d = .ok ⟨r, l.msgs ++ temp.toList, counts⟩ := by
    rw [processInput, if_neg hv', if_neg hc']
    simp only [hr, hfrom, hf, hz, hadd, hprod, if_false, bind, Except.bind, counts]
  rcases Recoder.produceUDPNCMessage_spec K
      (r := { l.recoder with packetPool := pooledWith l.recoder.packetPool d.parse.msg })
      (hm.poolEntries hp) with ⟨hprod, hone⟩ | ⟨key1, key2, p, q, c, -, h1, h2, hne, hcomb, hprod⟩
  · exact ⟨_, hrun hprod, .pooled hm hone rfl (List.append_nil _)⟩
  · have hids : c.pktIds = [key1, key2] := by
      rw [hcomb.pktIds, (hm.poolEntries hp _ _ h1).pktIds, (hm.poolEntries hp _ _ h2).pktIds]
      rfl
    have hkeys : key1 ≠ key2 := by
      rintro rfl
      rw [h1, Option.some.injEq] at h2
      exact hne (by rw [h2])
    exact ⟨_, hrun hprod, .coded hm key1 key2 p q c h1 h2 hkeys hne hids hcomb rfl rfl rfl⟩

theorem processInput_cases (hp : PoolEntries l.recoder.packetPool)
    (h : processInput K l d = .ok l') : l' = l ∨ ListenerStep K l d.parse.msg l' := by
  by_cases hv : d.header.isUDPNCHeader = false
  · rw [processInput, if_pos hv, Except.ok.injEq] at h
    exact .inl h.symm
  by_cases hc : 1 < d.header.encPacketCount.toNat
  · rw [processInput, if_neg hv, if_pos hc, Except.ok.injEq] at h
    exact .inl h.symm
  have hv' : d.header.isUDPNCHeader = true := by simpa using hv
  cases hr : d.parse.ret with
  | error f => simp [processInput, hv, hc, hr, bind, Except.bind] at h
  | ok k =>
    by_cases hn : d.size ≤ 8 ∨ d.header.encPacketCount.toNat = 0
    · have hf := Datagram.getFirstFromId_parse_none hv' hn
      simp [processInput, hv, hc, hr, hf, bind, Except.bind] at h
    · obtain ⟨l'', hl, hstep⟩ := processInput_uncoded (K := K) hp (by omega) hv' (by omega) hr
      rw [h, Except.ok.injEq] at hl
      rw [hl]
      exact .inr hstep

end Listener

end VastNC
