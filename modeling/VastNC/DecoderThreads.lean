import VastNC.RejectedDatagram

/-! The decoder shared by receiving threads. A step is one section under `packet_pool_mutex`;
any thread may take the next one. -/

namespace VastNC

namespace UDPNCDecoder

theorem fetchLoop_sublist (pool : PacketPool) (fuel i : Nat) (nc : List UDPNCMessage) :
    (fetchLoop pool fuel i nc).2.2.Sublist nc := by
  induction fuel generalizing i nc with
  | zero => exact List.Sublist.refl _
  | succ fuel ih =>
    have he : (nc.eraseIdx i).Sublist nc := List.eraseIdx_sublist nc i
    rw [fetchLoop]
    cases hn : nc[i]? with
    | none => exact List.Sublist.refl _
    | some packet =>
      dsimp only
      split
      · exact (ih _ _).trans he
      · split
        · exact he
        · exact (ih _ _).trans he

theorem getElem?_of_fetchLoop {pool : PacketPool} {fuel i : Nat} {nc : List UDPNCMessage}
    {key : UInt64} {m : UDPNCMessage} (h : (fetchLoop pool fuel i nc).2.1[key]? = some m) :
    pool[key]? = some m := by
  induction fuel generalizing i nc with
  | zero => exact h
  | succ fuel ih =>
    rw [fetchLoop] at h
    cases hn : nc[i]? with
    | none => simpa [hn] using h
    | some packet =>
      simp only [hn] at h
      split at h
      · exact ih h
      · split at h
        · exact getElem?_of_foldl_erase h
        · exact ih h

/-- An entry of `packet_pool` as `addUDPNCMessage` admits it. -/
structure Admitted (key : UInt64) (m : UDPNCMessage) : Prop where
  pktIds : m.pktIds = [key]
  fromId : ∃ fromId, m.getFirstFromId = .ok fromId ∧ fromId ≠ netIdUnassigned
  size : m.getMessageSize < maxPacketSize

theorem poolable_true {m : UDPNCMessage} (h : poolable m = .ok true) : ∃ key, Admitted key m := by
  rw [poolable] at h
  split at h
  · rename_i hc
    obtain ⟨key, hk⟩ := List.length_eq_one_iff.mp hc.1
    cases hf : m.getFirstFromId with
    | error f => simp [hf, bind, Except.bind] at h
    | ok fromId =>
      refine ⟨key, hk, ⟨fromId, hf, ?_⟩, hc.2⟩
      simpa [hf, bind, Except.bind] using h
  · simp at h

theorem addUDPNCMessage_cases {dec dec' : UDPNCDecoder} {m : UDPNCMessage}
    (h : dec.addUDPNCMessage m = .ok dec') :
    (∃ key, Admitted key m ∧ dec' = { dec with packetPool := dec.packetPool.insert key m }) ∨
      (1 < m.pktIds.length ∧ dec' = { dec with ncPackets := dec.ncPackets ++ [m] }) ∨
      (m.pktIds.length ≤ 1 ∧ dec' = dec) := by
  by_cases hl : 1 < m.pktIds.length
  · rw [addUDPNCMessage_coded dec hl, Except.ok.injEq] at h
    exact .inr (.inl ⟨hl, h.symm⟩)
  · cases hp : poolable m with
    | error f => simp [addUDPNCMessage, hp, bind, Except.bind] at h
    | ok b =>
      cases b with
      | false =>
        rw [addUDPNCMessage_skip dec (by omega) hp, Except.ok.injEq] at h
        exact .inr (.inr ⟨by omega, h.symm⟩)
      | true =>
        obtain ⟨key, hk⟩ := poolable_true hp
        refine .inl ⟨key, hk, ?_⟩
        simp only [addUDPNCMessage, hp, hk.pktIds, front_cons, bind, Except.bind, if_true] at h
        cases hs : dec.packetPool[key]? with
        | none => simpa [hs, eq_comm] using h
        | some stored =>
          simp only [hs] at h
          split at h
          · exact (Except.ok.inj h).symm
          · cases h

end UDPNCDecoder

open UDPNCDecoder

/-- The decoder and, for every coded packet whose `produceDecodedUDPNCMessage` has not run
yet, the thread that added it. -/
structure DecoderThreads (T : Type*) where
  decoder : UDPNCDecoder := {}
  pending : Multiset T := 0

namespace DecoderThreads

variable {T : Type*} {s s' : DecoderThreads T}

inductive Step [DecidableEq T] (t : T) : DecoderThreads T → DecoderThreads T → Prop
  | addUncoded (s : DecoderThreads T) (m : UDPNCMessage) (decoder : UDPNCDecoder) :
    m.pktIds.length ≤ 1 → s.decoder.addUDPNCMessage m = .ok decoder →
      Step t s { s with decoder }
  -- the throw comes before any write and releases the lock
  | addThrows (s : DecoderThreads T) (m : UDPNCMessage) (f : Fault) :
    s.decoder.addUDPNCMessage m = .error f → f.isLogicError = true → Step t s s
  | addCoded (s : DecoderThreads T) (m : UDPNCMessage) (decoder : UDPNCDecoder) :
    1 < m.pktIds.length → s.decoder.addUDPNCMessage m = .ok decoder →
      Step t s ⟨decoder, t ::ₘ s.pending⟩
  -- only the fetch is locked; the decoding that follows it is local to the thread
  | produce (s : DecoderThreads T) :
    t ∈ s.pending → Step t s ⟨s.decoder.fetchFromPacketPool.2, s.pending.erase t⟩
  | clear (s : DecoderThreads T) : Step t s { s with decoder := s.decoder.clearPacketPool }

abbrev Reachable [DecidableEq T] : DecoderThreads T → Prop :=
  Relation.ReflTransGen (fun s s' => ∃ t, Step t s s') {}

structure Inv (s : DecoderThreads T) : Prop where
  pool : ∀ key m, s.decoder.packetPool[key]? = some m → Admitted key m
  coded : ∀ m ∈ s.decoder.ncPackets, 1 < m.pktIds.length
  queued : s.decoder.ncPackets.length ≤ s.pending.card

theorem start_inv : Inv ({} : DecoderThreads T) where
  pool := fun key m h => by simp at h
  coded := fun m h => (nomatch h)
  queued := le_rfl

theorem fetch_sublist (dec : UDPNCDecoder) :
    dec.fetchFromPacketPool.2.ncPackets.Sublist dec.ncPackets := by
  rw [fetchFromPacketPool_snd]
  exact fetchLoop_sublist _ _ _ _

theorem fetch_shorter {dec : UDPNCDecoder} (h : dec.ncPackets ≠ []) :
    dec.fetchFromPacketPool.2.ncPackets.length < dec.ncPackets.length := by
  have hpos : 0 < dec.ncPackets.length := List.length_pos_iff.mpr h
  obtain ⟨n, hn⟩ : ∃ n, dec.ncPackets.length = n + 1 := ⟨_, (Nat.succ_pred_eq_of_pos hpos).symm⟩
  rw [fetchFromPacketPool_snd]
  simpa only [← hn] using length_fetchLoop_lt dec.packetPool n hpos

theorem Inv.insert (hi : s.Inv) {key : UInt64} {m : UDPNCMessage} (hm : Admitted key m) :
    Inv { s with decoder := { s.decoder with packetPool := s.decoder.packetPool.insert key m } } where
  pool := by
    intro g n hn
    rw [Std.ExtTreeMap.getElem?_insert] at hn
    split at hn
    · rename_i hg
      obtain rfl : key = g := by simpa using hg
      rwa [← Option.some.inj hn]
    · exact hi.pool g n hn
  coded := hi.coded
  queued := hi.queued

theorem Inv.produce [DecidableEq T] (hi : s.Inv) {t : T} (ht : t ∈ s.pending) :
    Inv ⟨s.decoder.fetchFromPacketPool.2, s.pending.erase t⟩ where
  pool := by
    intro key m h
    rw [fetchFromPacketPool_snd] at h
    exact hi.pool key m (getElem?_of_fetchLoop h)
  coded := fun m hm => hi.coded m ((fetch_sublist s.decoder).subset hm)
  queued := by
    have hq := hi.queued
    have hle := (fetch_sublist s.decoder).length_le
    have hc := Multiset.card_erase_add_one ht
    by_cases hnc : s.decoder.ncPackets = []
    · rw [hnc, List.length_nil] at hle
      exact hle.trans (Nat.zero_le _)
    · have hlt := fetch_shorter hnc
      dsimp only
      omega

theorem Step.inv [DecidableEq T] {t : T} (h : Step t s s') (hi : s.Inv) : s'.Inv := by
  cases h with
  | addUncoded m dec hl hadd =>
    obtain ⟨key, hm, rfl⟩ | ⟨hl', -⟩ | ⟨-, rfl⟩ := addUDPNCMessage_cases hadd
    · exact hi.insert hm
    · omega
    · exact hi
  | addThrows m f hadd hf => exact hi
  | addCoded m dec hl hadd =>
    rw [addUDPNCMessage_coded s.decoder hl, Except.ok.injEq] at hadd
    subst hadd
    refine ⟨hi.pool, fun n hn => ?_, ?_⟩
    · rcases List.mem_append.mp hn with hn | hn
      · exact hi.coded n hn
      · rwa [List.mem_singleton.mp hn]
    · have hq := hi.queued
      simp only [List.length_append, List.length_singleton, Multiset.card_cons]
      omega
  | produce ht => exact hi.produce ht
  | clear => exact ⟨fun key m h => by simp [clearPacketPool] at h, fun m h => (nomatch h), Nat.zero_le _⟩

theorem reachable_inv [DecidableEq T] (h : Reachable s) : s.Inv := by
  induction h with
  | refl => exact start_inv
  | tail _ hstep ih =>
    obtain ⟨t, ht⟩ := hstep
    exact ht.inv ih

/-- In every state that some interleaving reaches: the pool is keyed by the only packet id and
holds what may be coded, every queued packet is coded, a produce takes at least one packet off
a queue that is not empty, and the queue holds no more packets than produces are to come. -/
theorem decoder_threads_invariant [DecidableEq T] (h : Reachable s) :
    (∀ (key : UInt64) (m : UDPNCMessage), s.decoder.packetPool[key]? = some m → m.pktIds = [key] ∧
      (∃ fromId, m.getFirstFromId = .ok fromId ∧ fromId ≠ 0) ∧ m.getMessageSize < 500) ∧
    (∀ m ∈ s.decoder.ncPackets, 2 ≤ m.pktIds.length) ∧
    (s.decoder.ncPackets ≠ [] →
      s.decoder.fetchFromPacketPool.2.ncPackets.Sublist s.decoder.ncPackets ∧
      s.decoder.fetchFromPacketPool.2.ncPackets.length < s.decoder.ncPackets.length) ∧
    s.decoder.ncPackets.length ≤ s.pending.card ∧
    (s.pending = 0 → s.decoder.ncPackets = []) := by
  have hi := reachable_inv h
  refine ⟨fun key m hm => ?_, hi.coded, fun hnc => ⟨fetch_sublist _, fetch_shorter hnc⟩, hi.queued, ?_⟩
  · have hp := hi.pool key m hm
    exact ⟨hp.pktIds, hp.fromId, hp.size⟩
  · intro hp
    have hq := hi.queued
    rw [hp, Multiset.card_zero] at hq
    exact List.eq_nil_of_length_eq_zero (Nat.le_zero.mp hq)

def plain : UDPNCMessage := samplePacket 7 5 ⟨0x0A000001, 1037, 0⟩

def coded : UDPNCMessage := { plain with pktIds := [7, 8] }

def twoThreads : UDPNCDecoder := ⟨(∅ : PacketPool).insert 7 plain, [coded]⟩

/-- Thread `false` pools a packet, thread `true` queues a coded one. -/
theorem twoThreads_reachable : Reachable (T := Bool) ⟨twoThreads, {true}⟩ := by
  have hu : plain.Uncoded 7 5 ⟨0x0A000001, 1037, 0⟩ := ⟨rfl, rfl, rfl, rfl⟩
  have hadd : addUDPNCMessage {} plain = .ok ⟨(∅ : PacketPool).insert 7 plain, []⟩ := by
    rw [addUDPNCMessage_uncoded hu, if_pos (by decide), if_neg (by simp)]
  refine .tail (.tail .refl ⟨false, .addUncoded _ plain _ (by decide) hadd⟩) ⟨true, ?_⟩
  exact .addCoded _ coded _ (by decide) (addUDPNCMessage_coded _ (by decide))

theorem decoder_threads_invariant_two :
    twoThreads.ncPackets ≠ [] ∧ twoThreads.fetchFromPacketPool.2.ncPackets.length < 1 := by
  have hne : twoThreads.ncPackets ≠ [] := by simp [twoThreads]
  exact ⟨hne, ((decoder_threads_invariant twoThreads_reachable).2.2.1 hne).2⟩

end DecoderThreads

end VastNC
