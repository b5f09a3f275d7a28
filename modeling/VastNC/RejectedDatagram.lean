import VastNC.Receiver
import VastNC.WireFormat

/-! What the three receivers do with a datagram that `deserialize` rejects: none of them
looks at the returned value, so most such datagrams leave a trace. -/

namespace VastNC

open LittleEndian FallibleRun

namespace UDPNCDecoder

variable {dec : UDPNCDecoder} {pool : PacketPool} {m : UDPNCMessage}

theorem mk_insert_eq_iff (dec : UDPNCDecoder) (key : UInt64) (m : UDPNCMessage) :
    ({ dec with packetPool := dec.packetPool.insert key m } : UDPNCDecoder) = dec ↔
      dec.packetPool[key]? = some m := by
  constructor
  · intro h
    have hp := congrArg (fun x => x.packetPool[key]?) h
    simpa using hp.symm
  · intro h
    have hp : dec.packetPool.insert key m = dec.packetPool := by
      apply Std.ExtTreeMap.ext_getElem?
      intro g
      rw [Std.ExtTreeMap.getElem?_insert]
      by_cases hg : key = g
      · rw [if_pos (by simpa using hg), ← hg, h]
      · rw [if_neg (by simpa using hg)]
    rw [hp]

theorem addUDPNCMessage_uncoded {pktId fromId : UInt64} {addr : IPaddr}
    (hu : m.Uncoded pktId fromId addr) :
    dec.addUDPNCMessage m =
      if m.getMessageSize < maxPacketSize ∧ fromId ≠ netIdUnassigned then
        if dec.packetPool[pktId]?.any (fun stored => !stored.equals m) = true then
          .error packetNotUnique
        else .ok { dec with packetPool := dec.packetPool.insert pktId m }
      else .ok dec := by
  have hl : m.pktIds.length = 1 := by rw [hu.pktIds]; rfl
  by_cases hz : m.getMessageSize < maxPacketSize
  · have hp : poolable m = .ok (fromId != netIdUnassigned) := by
      rw [poolable, if_pos ⟨hl, hz⟩, hu.getFirstFromId]
      rfl
    by_cases hf : fromId = netIdUnassigned
    · rw [if_neg (by tauto)]
      exact addUDPNCMessage_skip dec hl.le (by rw [hp, hf]; rfl)
    · have hp' : poolable m = .ok true := by rw [hp]; simp [hf]
      rw [if_pos ⟨hz, hf⟩]
      simp only [addUDPNCMessage, hp', hu.pktIds, front_cons, bind, Except.bind, if_true]
      cases dec.packetPool[pktId]? with
      | none => rfl
      | some stored => cases he : stored.equals m <;> simp [he]
  · rw [if_neg (by tauto)]
    exact addUDPNCMessage_skip dec hl.le (if_neg (by tauto))

theorem addUDPNCMessage_eq_self_iff {pktId fromId : UInt64} {addr : IPaddr}
    (hu : m.Uncoded pktId fromId addr) :
    dec.addUDPNCMessage m = .ok dec ↔ maxPacketSize ≤ m.getMessageSize ∨
      fromId = netIdUnassigned ∨ dec.packetPool[pktId]? = some m := by
  rw [addUDPNCMessage_uncoded hu]
  by_cases hp : m.getMessageSize < maxPacketSize ∧ fromId ≠ netIdUnassigned
  · have hz : ¬ maxPacketSize ≤ m.getMessageSize := by omega
    simp only [hp, and_self, ne_eq, not_false_eq_true, if_true, hz, false_or]
    rw [← mk_insert_eq_iff]
    split
    · rename_i hany
      refine ⟨fun h => (nomatch h), fun h => ?_⟩
      rw [(mk_insert_eq_iff dec pktId m).mp h] at hany
      simp [UDPNCMessage.equals_self] at hany
    · rw [Except.ok.injEq]
  · rw [if_neg hp]
    simp only [true_iff]
    by_cases hf : fromId = netIdUnassigned
    · exact .inr (.inl hf)
    · exact .inl (by by_contra hz; exact hp ⟨by omega, hf⟩)

theorem notMem_foldl_erase {ids : List UInt64} {id : UInt64} (h : id ∈ ids ∨ id ∉ pool) :
    id ∉ ids.foldl (fun p x => p.erase x) pool := by
  induction ids generalizing pool with
  | nil => exact h.resolve_left (by simp)
  | cons x ids ih =>
    refine ih ?_
    by_cases hx : x = id
    · exact .inr (by simp [hx])
    · rcases h with h | h
      · exact .inl (List.mem_of_ne_of_mem (Ne.symm hx) h)
      · exact .inr (by simp [h])

theorem getElem?_of_foldl_erase {pool : PacketPool} {ids : List UInt64} {key : UInt64} {x : UDPNCMessage}
    (h : (ids.foldl (fun p id => p.erase id) pool)[key]? = some x) : pool[key]? = some x := by
  induction ids generalizing pool with
  | nil => exact h
  | cons id ids ih =>
    have hx := ih h
    rw [Std.ExtTreeMap.getElem?_erase] at hx
    split at hx
    · cases hx
    · exact hx

theorem length_fetchLoop_le (pool : PacketPool) (fuel i : Nat) (nc : List UDPNCMessage) :
    (fetchLoop pool fuel i nc).2.2.length ≤ nc.length := by
  induction fuel generalizing i nc with
  | zero => exact le_rfl
  | succ fuel ih =>
    have he : (nc.eraseIdx i).length ≤ nc.length := List.length_eraseIdx_le _ _
    rw [fetchLoop]
    cases hn : nc[i]? with
    | none => exact le_rfl
    | some packet =>
      dsimp only
      split
      · exact (ih _ _).trans he
      · split
        · exact he
        · exact (ih _ _).trans he

theorem length_fetchLoop_lt (pool : PacketPool) (fuel : Nat) {i : Nat} {nc : List UDPNCMessage}
    (hi : i < nc.length) : (fetchLoop pool (fuel + 1) i nc).2.2.length < nc.length := by
  have he : (nc.eraseIdx i).length < nc.length := by
    rw [List.length_eraseIdx_of_lt hi]
    omega
  rw [fetchLoop, List.getElem?_eq_getElem hi]
  dsimp only
  split
  · exact (length_fetchLoop_le _ _ _ _).trans_lt he
  · split
    · exact he
    · exact (length_fetchLoop_le _ _ _ _).trans_lt he

theorem fetchFromPacketPool_snd (dec : UDPNCDecoder) : dec.fetchFromPacketPool.2 =
    ⟨(fetchLoop dec.packetPool dec.ncPackets.length 0 dec.ncPackets).2.1,
      (fetchLoop dec.packetPool dec.ncPackets.length 0 dec.ncPackets).2.2⟩ := by
  simp only [fetchFromPacketPool]
  split
  · rfl
  · split
    · rfl
    · split <;> rfl

theorem produceDecodedUDPNCMessage_snd {K : Kodo} {dec' : UDPNCDecoder} {o : Option UDPNCMessage}
    (h : dec.produceDecodedUDPNCMessage K = .ok (o, dec')) :
    dec' = dec.fetchFromPacketPool.2 ∧
      ∀ f, dec.fetchFromPacketPool.1 = some f → f.available.length = 1 := by
  rcases hf : dec.fetchFromPacketPool with ⟨x, y⟩
  cases x with
  | none =>
    simp only [produceDecodedUDPNCMessage, hf, Except.ok.injEq, Prod.mk.injEq] at h
    exact ⟨h.2.symm, by simp⟩
  | some f =>
    by_cases hl : f.available.length = 1
    · cases hd : decode K f with
      | error e => simp [produceDecodedUDPNCMessage, hf, hl, hd, bind, Except.bind] at h
      | ok o' =>
        simp only [produceDecodedUDPNCMessage, hf, hl, ne_eq, not_true_eq_false, if_false, hd, bind,
          Except.bind, Except.ok.injEq, Prod.mk.injEq] at h
        exact ⟨h.2.symm, fun g hg => by rw [← Option.some.inj hg, hl]⟩
    · simp [produceDecodedUDPNCMessage, hf, hl] at h

theorem foldl_erase_ne {ids : List UInt64} (h : 0 < availableIds pool ids) :
    ids.foldl (fun p x => p.erase x) pool ≠ pool := by
  obtain ⟨id, hid, hm⟩ := List.countP_pos_iff.mp h
  intro heq
  have hn : id ∉ ids.foldl (fun p x => p.erase x) pool := notMem_foldl_erase (.inl hid)
  rw [heq] at hn
  exact hn (by simpa using hm)

theorem front_dropped {K : Kodo} {x : UDPNCMessage} {nc : List UDPNCMessage} {o : Option UDPNCMessage}
    {nc' : List UDPNCMessage} (h : produceDecodedUDPNCMessage K ⟨pool, x :: nc⟩ = .ok (o, ⟨pool, nc'⟩))
    (hlen : nc'.length = nc.length) :
    availableIds pool x.pktIds + 1 ≠ x.pktIds.length ∧ nc' = nc ∧ nc.length ≤ 1 := by
  obtain ⟨hsnd, hone⟩ := produceDecodedUDPNCMessage_snd h
  have hne : availableIds pool x.pktIds + 1 ≠ x.pktIds.length := by
    intro hav
    rw [fetchFromPacketPool_take hav] at hsnd hone
    have ha : availableIds pool x.pktIds = 1 := by
      rw [← length_available]
      exact hone _ rfl
    exact foldl_erase_ne (by omega) (congrArg UDPNCDecoder.packetPool hsnd).symm
  rw [fetchFromPacketPool_snd] at hsnd
  simp only [List.length_cons, fetchLoop_drop _ hne, UDPNCDecoder.mk.injEq] at hsnd
  have hl : nc.length ≤ 1 := by
    by_contra hlt
    obtain ⟨k, hk⟩ : ∃ k, nc.length = k + 1 := ⟨nc.length - 1, by omega⟩
    have hlt' := length_fetchLoop_lt pool k (show 1 < nc.length by omega)
    rw [← hk, ← hsnd.2] at hlt'
    omega
  rw [fetchLoop_past hl] at hsnd
  exact ⟨hne, hsnd.2, hl⟩

/-- A queued coded packet leaves the decoder as it was exactly when it is dropped again: the
queue held nothing else, or a copy of it that is dropped in its place. -/
theorem produce_queued_eq_iff {K : Kodo} (dec : UDPNCDecoder) :
    produceDecodedUDPNCMessage K { dec with ncPackets := dec.ncPackets ++ [m] } = .ok (none, dec) ↔
      (dec.ncPackets = [] ∨ dec.ncPackets = [m]) ∧
        availableIds dec.packetPool m.pktIds + 1 ≠ m.pktIds.length := by
  obtain ⟨pool, nc⟩ := dec
  dsimp only
  constructor
  · intro ho
    cases nc with
    | nil =>
      obtain ⟨hne, -, -⟩ := front_dropped ho rfl
      exact ⟨.inl rfl, hne⟩
    | cons x rest =>
      obtain ⟨hne, heq, hl⟩ := front_dropped ho (by simp)
      obtain rfl : rest = [] := List.eq_nil_of_length_eq_zero (by simpa using hl)
      obtain rfl : x = m := by simpa using heq
      exact ⟨.inr rfl, hne⟩
  · rintro ⟨rfl | rfl, hne⟩
    · rw [List.nil_append, produceDecodedUDPNCMessage, fetchFromPacketPool_drop hne (by simp)]
    · rw [List.singleton_append, produceDecodedUDPNCMessage,
        fetchFromPacketPool_drop hne (by simp)]

end UDPNCDecoder

def Datagram.cut (d : Datagram) : UDPNCMessage :=
  (messageAt d.buf).assignMsg (window d.buf (tableSize d.header) (d.size - tableSize d.header))

/-- The ways a rejected datagram of several ids leaves no trace in the decoder: it is not
longer than a header, it is for nobody here, or it is dropped from the queue at once. -/
def CodedQuiet (a : HostAddrs) (dec : UDPNCDecoder) (d : Datagram) : Prop :=
  1 < d.header.encPacketCount.toNat ∧
    (d.size ≤ 8 ∨ Receiver.toAddrForMe a d.cut = false ∨
      ((dec.ncPackets = [] ∨ dec.ncPackets = [d.cut]) ∧
        UDPNCDecoder.availableIds dec.packetPool d.cut.pktIds + 1 ≠ d.header.encPacketCount.toNat))

def UncodedQuiet (dec : UDPNCDecoder) (d : Datagram) : Prop :=
  d.header.encPacketCount.toNat ≤ 1 ∧
    (d.size ≤ 8 ∨ d.header.encPacketCount.toNat = 0 ∨ maxPacketSize ≤ d.packetsize ∨
      readU64 d.buf 20 = netIdUnassigned ∨ dec.packetPool[readU64 d.buf 12]? = some d.cut)

namespace Receiver

variable {K : Kodo} {a : HostAddrs} {r : Receiver} {d : Datagram} {k : Int}

theorem enqueue_ne (dec : UDPNCDecoder) (m : UDPNCMessage) (addr : IPaddr) :
    { r with decoder := dec }.enqueue m addr ≠ r := by
  intro he
  have hq := congrArg (fun x => x.queue.length) he
  simp [enqueue] at hq

theorem decodeForMe_eq_self_iff {m : UDPNCMessage} (hn : 1 < m.pktIds.length) :
    r.decodeForMe K m = .ok r ↔
      (r.decoder.ncPackets = [] ∨ r.decoder.ncPackets = [m]) ∧
        UDPNCDecoder.availableIds r.decoder.packetPool m.pktIds + 1 ≠ m.pktIds.length := by
  rw [← UDPNCDecoder.produce_queued_eq_iff (K := K)]
  simp only [decodeForMe, putOtherUDPNCMessage, UDPNCDecoder.addUDPNCMessage_coded _ hn, bind,
    Except.bind]
  cases hp : UDPNCDecoder.produceDecodedUDPNCMessage K
      { r.decoder with ncPackets := r.decoder.ncPackets ++ [m] } with
  | error f => simp
  | ok x =>
    obtain ⟨o, dec⟩ := x
    cases o with
    | some decoded => simp [enqueue_ne]
    | none =>
      simp only [Except.ok.injEq, Prod.mk.injEq, true_and]
      exact ⟨fun h => congrArg Receiver.decoder h, fun h => by rw [h]⟩

theorem parse_cut_msg (hr : d.parse.ret = .ok k) (hk : k ≤ 0) (hs : 8 < d.size)
    (hv : d.header.isUDPNCHeader = true) : d.size < d.packetsize ∧ d.parse.msg = d.cut := by
  rcases Datagram.ret_nonpos hr hk with h | ⟨-, h⟩ | ⟨-, -, hp, ht⟩
  · omega
  · simp [hv] at h
  · refine ⟨hp, ?_⟩
    rw [Datagram.parse_cut hs hv hp ht]
    rfl

theorem processEncoded_eq_self_iff (hr : d.parse.ret = .ok k) (hk : k ≤ 0)
    (hv : d.header.isUDPNCHeader = true) (hc : 1 < d.header.encPacketCount.toNat) :
    r.processEncoded K a d = .ok r ↔ CodedQuiet a r.decoder d := by
  by_cases hs : d.size ≤ 8
  · have hm : d.parse.msg = UDPNCMessage.new d.junk := by rw [Datagram.parse_short hs]
    simp [processEncoded, hr, hm, toAddrForMe, UDPNCMessage.new, CodedQuiet, hc, hs, bind,
      Except.bind]
  obtain ⟨-, hm⟩ := parse_cut_msg hr hk (by omega) hv
  have hl : d.cut.pktIds.length = d.header.encPacketCount.toNat := by
    rw [← hm, (Datagram.parse_fields (by omega) hv).2.1, List.length_map, List.length_range]
  have hdec := decodeForMe_eq_self_iff (K := K) (r := r) (m := d.cut) (by omega)
  rw [hl] at hdec
  cases hme : toAddrForMe a d.cut with
  | false => simp [processEncoded, hr, hm, hme, CodedQuiet, hc, bind, Except.bind]
  | true =>
    simp [processEncoded, hr, hm, hme, CodedQuiet, hc, hs, bind, Except.bind, hdec]

theorem putOther_eq_self_iff {m : UDPNCMessage} :
    r.putOtherUDPNCMessage m = .ok r ↔ r.decoder.addUDPNCMessage m = .ok r.decoder := by
  cases ha : r.decoder.addUDPNCMessage m with
  | error f => simp [putOtherUDPNCMessage, ha, bind, Except.bind]
  | ok dec =>
    simp only [putOtherUDPNCMessage, ha, bind, Except.bind, Except.ok.injEq]
    exact ⟨fun h => congrArg Receiver.decoder h, fun h => by rw [h]⟩

theorem putOther_rejected_iff (hr : d.parse.ret = .ok k) (hk : k ≤ 0)
    (hv : d.header.isUDPNCHeader = true) (hc : d.header.encPacketCount.toNat ≤ 1) :
    r.putOtherUDPNCMessage d.parse.msg = .ok r ↔ UncodedQuiet r.decoder d := by
  rw [putOther_eq_self_iff]
  by_cases h0 : d.size ≤ 8 ∨ d.header.encPacketCount.toNat = 0
  · have hl : d.parse.msg.pktIds = [] := by
      by_cases hs : d.size ≤ 8
      · rw [Datagram.parse_short hs]
        rfl
      · rw [(Datagram.parse_fields (by omega) hv).2.1, h0.resolve_left hs]
        rfl
    have hp : UDPNCDecoder.poolable d.parse.msg = .ok false :=
      UDPNCDecoder.poolable_coded (by simp [hl])
    simp only [UDPNCDecoder.addUDPNCMessage_skip _ (by simp [hl]) hp, true_iff]
    exact ⟨hc, by tauto⟩
  · obtain ⟨addr, hu⟩ := Datagram.parse_uncoded (d := d) (by omega) hv (by omega)
    obtain ⟨-, hm⟩ := parse_cut_msg hr hk (by omega) hv
    have hz : d.parse.msg.getMessageSize = d.packetsize := by
      rw [UDPNCMessage.getMessageSize, (Datagram.parse_fields (by omega) hv).1]
      rfl
    obtain ⟨hs, h1⟩ := not_or.mp h0
    rw [UDPNCDecoder.addUDPNCMessage_eq_self_iff hu, hz, hm]
    simp only [UncodedQuiet, hc, hs, h1, true_and, false_or]

theorem processUnicast_eq_self_iff (hr : d.parse.ret = .ok k) (hk : k ≤ 0) (remote : IPaddr) :
    r.processUnicast K a d remote = .ok r ↔
      d.header.isUDPNCHeader = false ∨ CodedQuiet a r.decoder d := by
  cases hv : d.header.isUDPNCHeader with
  | false => simp [processUnicast, hv]
  | true =>
    by_cases hc : 1 < d.header.encPacketCount.toNat
    · simp only [processUnicast, hv, Bool.true_eq_false, if_false, hc, if_true, false_or,
        processEncoded_eq_self_iff hr hk hv hc]
    · have hq : ¬ CodedQuiet a r.decoder d := fun h => hc h.1
      have hne : r.processUnicast K a d remote ≠ .ok r := by
        cases ha : r.decoder.addUDPNCMessage d.parse.msg with
        | error f => simp [processUnicast, hv, hc, hr, putOtherUDPNCMessage, ha, bind, Except.bind]
        | ok dec =>
          simp only [processUnicast, hv, Bool.true_eq_false, if_false, hc, hr, putOtherUDPNCMessage,
            ha, bind, Except.bind, ne_eq, Except.ok.injEq]
          exact enqueue_ne _ _ _
      simp only [hne, Bool.true_eq_false, hq, or_self]

theorem processMulticast_eq_self_iff (hr : d.parse.ret = .ok k) (hk : k ≤ 0) :
    r.processMulticast K a d = .ok r ↔
      d.header.isUDPNCHeader = false ∨ CodedQuiet a r.decoder d ∨ UncodedQuiet r.decoder d := by
  cases hv : d.header.isUDPNCHeader with
  | false => simp [processMulticast, hv]
  | true =>
    by_cases hc : 1 < d.header.encPacketCount.toNat
    · have hq : ¬ UncodedQuiet r.decoder d := fun h => absurd h.1 (by omega)
      simp only [processMulticast, hv, Bool.true_eq_false, if_false, hc, if_true, false_or,
        processEncoded_eq_self_iff hr hk hv hc, hq, or_false]
    · have hq : ¬ CodedQuiet a r.decoder d := fun h => hc h.1
      simp only [processMulticast, hv, Bool.true_eq_false, if_false, hc, hr, bind, Except.bind,
        putOther_rejected_iff hr hk hv (by omega), hq, false_or]

end Receiver

theorem insert_count_ne {counts : Std.ExtTreeMap UInt64 Nat} {id : UInt64} :
    counts.insert id (counts.getD id 0 + 1) ≠ counts := by
  intro h
  have hg := congrArg (fun c => c.getD id 0) h
  simp at hg

theorem Listener.processInput_eq_self_iff {K : Kodo} {l : Listener} {d : Datagram} {k : Int}
    (hr : d.parse.ret = .ok k) (hk : k ≤ 0) :
    l.processInput K d = .ok l ↔
      d.header.isUDPNCHeader = false ∨ 1 < d.header.encPacketCount.toNat ∨
        (8 < d.size ∧ d.header.encPacketCount.toNat = 1 ∧ readU64 d.buf 20 = netIdUnassigned) := by
  cases hv : d.header.isUDPNCHeader with
  | false => simp [processInput, hv]
  | true =>
    by_cases hc : 1 < d.header.encPacketCount.toNat
    · simp [processInput, hv, hc]
    by_cases h0 : d.size ≤ 8 ∨ d.header.encPacketCount.toNat = 0
    · have hq : ¬ (8 < d.size ∧ d.header.encPacketCount.toNat = 1 ∧
          readU64 d.buf 20 = netIdUnassigned) := by omega
      simp [processInput, hv, hc, hr, Datagram.getFirstFromId_parse_none hv h0, hq, bind, Except.bind]
    · obtain ⟨addr, hu⟩ := Datagram.parse_uncoded (d := d) (by omega) hv (by omega)
      have hfrom := hu.getFirstFromId
      obtain ⟨hp, -⟩ := Receiver.parse_cut_msg hr hk (by omega) hv
      have hz : d.parse.msg.getMessageSize ≠ 0 := by
        rw [UDPNCMessage.getMessageSize, (Datagram.parse_fields (by omega) hv).1]
        exact fun h => absurd (show d.packetsize = 0 from h) (by omega)
      by_cases hf : readU64 d.buf 20 = netIdUnassigned
      · have hq : 8 < d.size ∧ d.header.encPacketCount.toNat = 1 := by omega
        simp [processInput, hv, hr, hfrom, hf, hq, bind, Except.bind]
      · have hne : l.processInput K d ≠ .ok l := by
          intro h
          rw [processInput, if_neg (by simp [hv]), if_neg hc] at h
          simp only [hr, hfrom, hf, hz, if_false, bind, Except.bind] at h
          split at h
          · exact absurd h (by simp)
          split at h
          · exact absurd h (by simp)
          rw [Except.ok.injEq] at h
          exact insert_count_ne (congrArg Listener.recvfrommapCount h)
        simp only [hne, Bool.true_eq_false, hc, hf, and_false, or_self]

/-- A rejected datagram changes nothing, and finds a sender where it looks for one, exactly
under these conditions. -/
theorem rejected_unchanged_iff (K : Kodo) (a : HostAddrs) (l : Listener) (r : Receiver) (d : Datagram)
    (remote : IPaddr) (k : Int) (hr : d.parse.ret = .ok k) (hk : k ≤ 0) :
    (l.processInput K d = .ok l ↔
      d.header.isUDPNCHeader = false ∨ 1 < d.header.encPacketCount.toNat ∨
        (8 < d.size ∧ d.header.encPacketCount.toNat = 1 ∧ readU64 d.buf 20 = netIdUnassigned)) ∧
    (r.processUnicast K a d remote = .ok r ↔
      d.header.isUDPNCHeader = false ∨ CodedQuiet a r.decoder d) ∧
    (r.processMulticast K a d = .ok r ↔
      d.header.isUDPNCHeader = false ∨ CodedQuiet a r.decoder d ∨ UncodedQuiet r.decoder d) :=
  ⟨Listener.processInput_eq_self_iff hr hk, Receiver.processUnicast_eq_self_iff hr hk remote,
    Receiver.processMulticast_eq_self_iff hr hk⟩

def cutPacket (fromId : UInt64) : Datagram where
  buf := memOf (UDPNCMessage.wire (.single ⟨startBits, 0, 1#4, 0, 0, 0, 0, endBits⟩ 7 fromId
    ⟨0x0A000001, 1037, 0⟩ 3 (List.replicate 100 0)))
  size := 40
  junk := default

theorem rejected_unchanged_unassigned :
    (cutPacket 0).parse.ret = .ok (-1) ∧
    Listener.processInput Kodo.elimination (.start 0) (cutPacket 0) = .ok (.start 0) ∧
    Receiver.processMulticast Kodo.elimination ⟨⟨0, 0, 0⟩, ⟨0, 0, 0⟩⟩ {} (cutPacket 0) = .ok {} := by
  have hr : (cutPacket 0).parse.ret = .ok (-1) := by decide +kernel
  obtain ⟨hl, -, hm⟩ := rejected_unchanged_iff Kodo.elimination ⟨⟨0, 0, 0⟩, ⟨0, 0, 0⟩⟩ (.start 0) {}
    (cutPacket 0) ⟨0, 0, 0⟩ (-1) hr (by decide)
  refine ⟨hr, hl.mpr (.inr (.inr ?_)), hm.mpr (.inr (.inr ?_))⟩
  · decide +kernel
  · refine ⟨?_, .inr (.inr (.inr (.inl ?_)))⟩
    · decide +kernel
    · decide +kernel

theorem rejected_packet_pooled :
    (cutPacket 5).parse.ret = .ok (-1) ∧
    (∃ l, Listener.processInput Kodo.elimination (.start 0) (cutPacket 5) = .ok l ∧
      l.recoder.packetPool.size = 1 ∧ l.recvfrommapCount.size = 1 ∧ l ≠ .start 0) ∧
    (∃ r : Receiver, Receiver.processUnicast Kodo.elimination ⟨⟨0, 0, 0⟩, ⟨0, 0, 0⟩⟩ {} (cutPacket 5)
        ⟨0, 0, 0⟩ = .ok r ∧ r.decoder.packetPool.size = 1 ∧ r.queue.length = 1 ∧ r ≠ {}) ∧
    (∃ r : Receiver, Receiver.processMulticast Kodo.elimination ⟨⟨0, 0, 0⟩, ⟨0, 0, 0⟩⟩ {} (cutPacket 5)
        = .ok r ∧ r.decoder.packetPool.size = 1 ∧ r ≠ {}) := by
  have hl : returns (Listener.processInput Kodo.elimination (.start 0) (cutPacket 5))
      (fun l => l.recoder.packetPool.size == 1 && l.recvfrommapCount.size == 1) = true := by
    decide +kernel
  have hu : returns (Receiver.processUnicast Kodo.elimination ⟨⟨0, 0, 0⟩, ⟨0, 0, 0⟩⟩ {} (cutPacket 5)
      ⟨0, 0, 0⟩) (fun r => r.decoder.packetPool.size == 1 && r.queue.length == 1) = true := by
    decide +kernel
  have hm : returns (Receiver.processMulticast Kodo.elimination ⟨⟨0, 0, 0⟩, ⟨0, 0, 0⟩⟩ {} (cutPacket 5))
      (fun r => r.decoder.packetPool.size == 1) = true := by decide +kernel
  obtain ⟨l, hl, hl'⟩ := returns_iff.mp hl
  obtain ⟨u, hu, hu'⟩ := returns_iff.mp hu
  obtain ⟨m, hm, hm'⟩ := returns_iff.mp hm
  simp only [Bool.and_eq_true, beq_iff_eq] at hl' hu' hm'
  refine ⟨by decide +kernel, ⟨l, hl, hl'.1, hl'.2, ?_⟩, ⟨u, hu, hu'.1, hu'.2, ?_⟩, ⟨m, hm, hm', ?_⟩⟩
  · rintro rfl
    exact absurd hl'.1 (by decide)
  · rintro rfl
    exact absurd hu'.2 (by decide)
  · rintro rfl
    exact absurd hm' (by decide)

end VastNC
