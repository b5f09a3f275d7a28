import VastNC.RejectedDatagram
import VastNC.Recovery

/-! Which exceptions leave the receive path of a client that is sent complete datagrams
only, whatever they hold. -/

namespace VastNC

open LittleEndian FallibleRun UDPNCDecoder

/-- A packet that would be pooled under an id where a different packet is. -/
def Clash (pool : PacketPool) (m : UDPNCMessage) : Prop :=
  ∃ pktId fromId addr stored, m.Uncoded pktId fromId addr ∧ fromId ≠ netIdUnassigned ∧
    m.getMessageSize < maxPacketSize ∧ pool[pktId]? = some stored ∧ stored.equals m = false

section Conditions

variable {K : Kodo} (R : K.Rlnc) (a : HostAddrs) (pool : PacketPool) (m : UDPNCMessage)

inductive MessageThrows : Fault → Prop where
  | clash (h : Clash pool m) : MessageThrows packetNotUnique
  | many (hn : 2 < m.pktIds.length) (hme : Receiver.toAddrForMe a m = true)
      (hav : availableIds pool m.pktIds + 1 = m.pktIds.length) : MessageThrows availableNotOne

def MessageStrays : Prop := Receiver.toAddrForMe a m = true ∧ Strays R pool m

def RecoversTo (x : UDPNCMessage) : Prop :=
  Receiver.toAddrForMe a m = true ∧
    ∃ decoded, Recovered R pool m (.ok (some decoded)) ∧ x = { decoded with socketAddr := ⟨0, 0, 0⟩ }

end Conditions

namespace ReceiverEvent

variable {K : Kodo} (R : K.Rlnc) (a : HostAddrs) (r : Receiver)

def Complete : ReceiverEvent → Prop
  | .unicast d _ => d.Complete
  | .multicast d => d.Complete
  | .consume => True

def Throws (f : Fault) : ReceiverEvent → Prop
  | .unicast d _ => MessageThrows a r.decoder.packetPool (messageAt d.buf) f
  | .multicast d => MessageThrows a r.decoder.packetPool (messageAt d.buf) f
  | .consume => f = Consumer.encodedPackets ∧ ∃ m rest, r.queue = m :: rest ∧ 1 < m.pktIds.length

def Strays : ReceiverEvent → Prop
  | .unicast d _ => MessageStrays R a r.decoder.packetPool (messageAt d.buf)
  | .multicast d => MessageStrays R a r.decoder.packetPool (messageAt d.buf)
  | .consume => False

def Recovers (x : UDPNCMessage) : ReceiverEvent → Prop
  | .unicast d _ => RecoversTo R a r.decoder.packetPool (messageAt d.buf) x
  | .multicast d => RecoversTo R a r.decoder.packetPool (messageAt d.buf) x
  | .consume => False

end ReceiverEvent

namespace Receiver

variable {K : Kodo} {R : K.Rlnc} {a : HostAddrs} {r : Receiver} {m : UDPNCMessage}

structure Inv (r : Receiver) : Prop where
  ncPackets : r.decoder.ncPackets = []
  entries : ∀ (key : UInt64) (m : UDPNCMessage), r.decoder.packetPool[key]? = some m → m.Sized 1
  paired : ∀ m ∈ r.queue, m.toAddrs.length = m.fromIds.length

/-- What a call that ends with `x` may do: `throws` says which exceptions it ends with, and
`recovers` which messages of several ids it may put in the queue. -/
structure Settles (r : Receiver) (throws : Fault → Prop) (recovers : UDPNCMessage → Prop)
    (x : Except Fault Receiver) : Prop where
  fault : ∀ f, x = .error f ↔ throws f
  inv : ∀ r', x = .ok r' → r'.Inv
  queue : ∀ r', x = .ok r' → ∀ m ∈ r'.queue, 1 < m.pktIds.length → m ∈ r.queue ∨ recovers m

theorem Settles.of_ok {throws : Fault → Prop} {recovers : UDPNCMessage → Prop} {r' : Receiver}
    (ht : ∀ f, ¬ throws f) (hi : r'.Inv)
    (hq : ∀ m ∈ r'.queue, 1 < m.pktIds.length → m ∈ r.queue ∨ recovers m) :
    Settles r throws recovers (.ok r') where
  fault := fun f => by simp [ht f]
  inv := by rintro _ ⟨⟩; exact hi
  queue := by rintro _ ⟨⟩; exact hq

theorem Settles.of_error {throws : Fault → Prop} {recovers : UDPNCMessage → Prop} {f : Fault}
    (h : ∀ g, throws g ↔ g = f) : Settles r throws recovers (.error f) where
  fault := fun g => by rw [h, Except.error.injEq, eq_comm]
  inv := by rintro _ ⟨⟩
  queue := by rintro _ ⟨⟩

theorem clash_iff {pool : PacketPool} {pktId fromId : UInt64} {addr : IPaddr}
    (hu : m.Uncoded pktId fromId addr) :
    Clash pool m ↔ (m.getMessageSize < maxPacketSize ∧ fromId ≠ netIdUnassigned) ∧
      pool[pktId]?.any (fun stored => !stored.equals m) = true := by
  simp only [Option.any_eq_true, Bool.not_eq_true']
  constructor
  · rintro ⟨pktId', fromId', addr', stored, hu', hf, hz, hp, he⟩
    obtain ⟨rfl, rfl, -⟩ := hu.unique hu'
    exact ⟨⟨hz, hf⟩, stored, hp, he⟩
  · rintro ⟨⟨hz, hf⟩, stored, hp, he⟩
    exact ⟨pktId, fromId, addr, stored, hu, hf, hz, hp, he⟩

theorem not_clash {n : Nat} (hm : m.Sized n) (hn : 1 < n) {pool : PacketPool} : ¬ Clash pool m := by
  rintro ⟨pktId, fromId, addr, stored, hu, -⟩
  have := hu.count
  have := hm.count
  omega

theorem messageThrows_iff_clash {n : Nat} (hm : m.Sized n) (hn : n ≤ 1) {pool : PacketPool} (f : Fault) :
    MessageThrows a pool m f ↔ f = packetNotUnique ∧ Clash pool m := by
  have hl := hm.pktIds
  constructor
  · intro h
    cases h with
    | clash h => exact ⟨rfl, h⟩
    | many h2 _ _ => omega
  · rintro ⟨rfl, h⟩
    exact .clash h

theorem messageThrows_iff_many {n : Nat} (hm : m.Sized n) (hn : 1 < n) {pool : PacketPool} (f : Fault) :
    MessageThrows a pool m f ↔ f = availableNotOne ∧ 2 < m.pktIds.length ∧ toAddrForMe a m = true ∧
      availableIds pool m.pktIds + 1 = m.pktIds.length := by
  constructor
  · intro h
    cases h with
    | clash h => exact absurd h (not_clash hm hn)
    | many h2 hme hav => exact ⟨rfl, h2, hme, hav⟩
  · rintro ⟨rfl, h2, hme, hav⟩
    exact .many h2 hme hav

theorem putOther_cases (hi : r.Inv) {n : Nat} (hm : m.Sized n) (hn : n ≤ 1) :
    (Clash r.decoder.packetPool m ∧ r.putOtherUDPNCMessage m = .error packetNotUnique) ∨
      (¬ Clash r.decoder.packetPool m ∧ ∃ dec, r.putOtherUDPNCMessage m = .ok { r with decoder := dec } ∧
        Inv { r with decoder := dec }) := by
  have hl := hm.pktIds
  by_cases h1 : n = 1
  · subst h1
    obtain ⟨pktId, hp⟩ := List.length_eq_one_iff.mp hl
    obtain ⟨fromId, hf⟩ := List.length_eq_one_iff.mp hm.fromIds
    obtain ⟨addr, ha⟩ := List.length_eq_one_iff.mp hm.toAddrs
    have hu : m.Uncoded pktId fromId addr := ⟨hm.count, hp, hf, ha⟩
    have hadd : r.decoder.addUDPNCMessage m = _ := addUDPNCMessage_uncoded hu
    rw [clash_iff hu]
    by_cases hpool : m.getMessageSize < maxPacketSize ∧ fromId ≠ netIdUnassigned
    · by_cases hany : r.decoder.packetPool[pktId]?.any (fun stored => !stored.equals m) = true
      · rw [if_pos hpool, if_pos hany] at hadd
        exact .inl ⟨⟨hpool, hany⟩, by simp only [putOtherUDPNCMessage, hadd, bind, Except.bind]⟩
      · rw [if_pos hpool, if_neg hany] at hadd
        refine .inr ⟨fun h => hany h.2,
          { r.decoder with packetPool := r.decoder.packetPool.insert pktId m },
          by simp only [putOtherUDPNCMessage, hadd, bind, Except.bind], hi.ncPackets, ?_, hi.paired⟩
        intro key x hx
        have hx' : (r.decoder.packetPool.insert pktId m)[key]? = some x := hx
        rw [Std.ExtTreeMap.getElem?_insert] at hx'
        split at hx'
        · rwa [← Option.some.inj hx']
        · exact hi.entries key x hx'
    · rw [if_neg hpool] at hadd
      exact .inr ⟨fun h => hpool h.1, r.decoder,
        by simp only [putOtherUDPNCMessage, hadd, bind, Except.bind], hi⟩
  · have hp : poolable m = .ok false := poolable_coded (by omega)
    refine .inr ⟨?_, r.decoder, ?_, hi⟩
    · rintro ⟨pktId, fromId, addr, stored, hu, -⟩
      have := hu.count
      have := hm.count
      omega
    · simp only [putOtherUDPNCMessage, addUDPNCMessage_skip r.decoder (by omega) hp, bind, Except.bind]

def decodedTo (r : Receiver) (m : UDPNCMessage) (o : Option UDPNCMessage) : Receiver :=
  { r with
    decoder := ⟨m.pktIds.foldl (fun p id => p.erase id) r.decoder.packetPool, []⟩
    queue := r.queue ++ o.toList.map (fun x => { x with socketAddr := ⟨0, 0, 0⟩ }) }

theorem decodeForMe_eq (hnc : r.decoder.ncPackets = []) (hn : 1 < m.pktIds.length) :
    r.decodeForMe K m =
      if availableIds r.decoder.packetPool m.pktIds + 1 ≠ m.pktIds.length then .ok r
      else if 2 < m.pktIds.length then .error availableNotOne
      else (decode K (fetch r.decoder.packetPool m)).map (r.decodedTo m) := by
  by_cases hav : availableIds r.decoder.packetPool m.pktIds + 1 = m.pktIds.length
  · have hl := length_available r.decoder.packetPool m
    have hf : fetchFromPacketPool { r.decoder with ncPackets := r.decoder.ncPackets ++ [m] } =
        (some (fetch r.decoder.packetPool m),
          ⟨m.pktIds.foldl (fun p id => p.erase id) r.decoder.packetPool, []⟩) := by
      rw [hnc]
      exact fetchFromPacketPool_take hav
    rw [if_neg (by simpa using hav)]
    simp only [decodeForMe, putOtherUDPNCMessage, addUDPNCMessage_coded _ hn,
      produceDecodedUDPNCMessage, hf, bind, Except.bind]
    by_cases h2 : 2 < m.pktIds.length
    · rw [if_pos h2, if_pos (by omega)]
    · rw [if_neg h2, if_neg (by omega)]
      cases decode K (fetch r.decoder.packetPool m) with
      | error f => rfl
      | ok o =>
        cases o with
        | none => simp [Except.map, decodedTo]
        | some x => rfl
  · rw [if_pos hav]
    exact (decodeForMe_eq_self_iff hn).mpr ⟨.inl hnc, hav⟩

theorem decodedTo_inv (hi : r.Inv) (m : UDPNCMessage) {o : Option UDPNCMessage}
    (ho : ∀ x, o = some x → x.toAddrs.length = x.fromIds.length) : (r.decodedTo m o).Inv where
  ncPackets := rfl
  entries := fun key x hx => hi.entries key x (getElem?_of_foldl_erase hx)
  paired := by
    intro x hx
    rcases List.mem_append.mp hx with hx | hx
    · exact hi.paired x hx
    · obtain ⟨y, hy, rfl⟩ := List.mem_map.mp hx
      exact ho y (Option.mem_toList.mp hy)

theorem decodeForMe_settles (hi : r.Inv) {n : Nat} (hm : m.Sized n) (hn : 1 < n)
    (hme : toAddrForMe a m = true) (hsafe : ¬ Strays R r.decoder.packetPool m) :
    Settles r (MessageThrows a r.decoder.packetPool m) (RecoversTo R a r.decoder.packetPool m)
      (r.decodeForMe K m) := by
  have hl := hm.pktIds
  have hthrows (f : Fault) : MessageThrows a r.decoder.packetPool m f ↔ _ := messageThrows_iff_many hm hn f
  rw [decodeForMe_eq hi.ncPackets (by omega)]
  by_cases hav : availableIds r.decoder.packetPool m.pktIds + 1 = m.pktIds.length
  · rw [if_neg (by simpa using hav)]
    by_cases h2 : 2 < m.pktIds.length
    · rw [if_pos h2]
      exact .of_error fun f => (hthrows f).trans (and_iff_left ⟨h2, hme, hav⟩)
    rw [if_neg h2]
    obtain rfl : n = 2 := by omega
    have hno : ∀ f, ¬ MessageThrows a r.decoder.packetPool m f := fun f h => h2 ((hthrows f).mp h).2.1
    obtain ⟨i, stored, hp⟩ := exists_pooled hl (Nat.succ.inj (hav.trans hl))
    rcases decode_cases R hm hi.entries hp hsafe with hd | ⟨o, hd, hrec⟩
    · rw [hd]
      exact .of_ok hno (decodedTo_inv hi m (by simp)) (fun x hx _ => .inl (by simpa [decodedTo] using hx))
    · rw [hd]
      refine .of_ok hno (decodedTo_inv hi m ?_) (fun x hx _ => ?_)
      · rintro x rfl
        exact hrec.paired
      rcases List.mem_append.mp hx with hx | hx
      · exact .inl hx
      cases o with
      | none => simp at hx
      | some decoded => exact .inr ⟨hme, decoded, hrec, by simpa using hx⟩
  · rw [if_pos hav]
    exact .of_ok (fun f h => hav ((hthrows f).mp h).2.2.2) hi (fun x hx _ => .inl hx)

theorem processEncoded_settles (hi : r.Inv) {d : Datagram} (hd : d.Complete)
    (hn : 1 < d.header.encPacketCount.toNat)
    (hsafe : ¬ MessageStrays R a r.decoder.packetPool (messageAt d.buf)) :
    Settles r (MessageThrows a r.decoder.packetPool (messageAt d.buf))
      (RecoversTo R a r.decoder.packetPool (messageAt d.buf)) (r.processEncoded K a d) := by
  obtain ⟨-, -, -, hmsg, hret⟩ := hd.spec
  have hm := messageAt_sized d.buf
  cases hme : toAddrForMe a (messageAt d.buf) with
  | true =>
    simp only [processEncoded, hret, hmsg, hme, bind, Except.bind, if_true]
    exact decodeForMe_settles hi hm hn hme (fun h => hsafe ⟨hme, h⟩)
  | false =>
    simp only [processEncoded, hret, hmsg, hme, bind, Except.bind, Bool.false_eq_true, if_false]
    refine .of_ok (fun f h => ?_) hi (fun x hx _ => .inl hx)
    have hthrows := (messageThrows_iff_many hm hn f).mp h
    simp [hme] at hthrows

theorem putOther_settles (hi : r.Inv) {n : Nat} (hm : m.Sized n) (hn : n ≤ 1) :
    Settles r (MessageThrows a r.decoder.packetPool m) (RecoversTo R a r.decoder.packetPool m)
      (r.putOtherUDPNCMessage m) := by
  have hthrows (f : Fault) : MessageThrows a r.decoder.packetPool m f ↔ _ := messageThrows_iff_clash hm hn f
  rcases putOther_cases hi hm hn with ⟨hc, hput⟩ | ⟨hc, dec, hput, hi'⟩
  · rw [hput]
    exact .of_error fun f => (hthrows f).trans (and_iff_left hc)
  · rw [hput]
    exact .of_ok (fun f h => hc ((hthrows f).mp h).2) hi' (fun x hx _ => .inl hx)

theorem Settles.enqueue {throws : Fault → Prop} {recovers : UDPNCMessage → Prop}
    {x : Except Fault Receiver} (h : Settles r throws recovers x) (hids : m.pktIds.length ≤ 1)
    (hm : m.toAddrs.length = m.fromIds.length) (addr : IPaddr) :
    Settles r throws recovers (x >>= fun r' => .ok (r'.enqueue m addr)) := by
  cases x with
  | error f => exact .of_error fun g => by rw [← h.fault, Except.error.injEq, eq_comm]
  | ok r' =>
    have hi := h.inv r' rfl
    have ht : ∀ f, ¬ throws f := by simpa using fun f => (h.fault f).not
    refine .of_ok ht ⟨hi.ncPackets, hi.entries, fun y hy => ?_⟩ (fun y hy hy1 => ?_)
    · rcases List.mem_append.mp hy with hy | hy
      · exact hi.paired y hy
      · rw [List.mem_singleton.mp hy]
        exact hm
    rcases List.mem_append.mp hy with hy | hy
    · exact h.queue r' rfl y hy hy1
    · rw [List.mem_singleton.mp hy] at hy1
      exact absurd (show 1 < m.pktIds.length from hy1) (by omega)

theorem processUnicast_settles (hi : r.Inv) {d : Datagram} (hd : d.Complete) (remote : IPaddr)
    (hsafe : ¬ MessageStrays R a r.decoder.packetPool (messageAt d.buf)) :
    Settles r (MessageThrows a r.decoder.packetPool (messageAt d.buf))
      (RecoversTo R a r.decoder.packetPool (messageAt d.buf)) (r.processUnicast K a d remote) := by
  obtain ⟨-, hv, -, hmsg, hret⟩ := hd.spec
  have hm : (messageAt d.buf).Sized d.header.encPacketCount.toNat := messageAt_sized d.buf
  by_cases hn : 1 < d.header.encPacketCount.toNat
  · rw [processUnicast, if_neg (by simp [hv]), if_pos hn]
    exact processEncoded_settles hi hd hn hsafe
  · have hl := hm.pktIds
    rw [processUnicast, if_neg (by simp [hv]), if_neg hn, hret, hmsg]
    exact (putOther_settles hi hm (by omega)).enqueue (by omega) (hm.toAddrs.trans hm.fromIds.symm) remote

theorem processMulticast_settles (hi : r.Inv) {d : Datagram} (hd : d.Complete)
    (hsafe : ¬ MessageStrays R a r.decoder.packetPool (messageAt d.buf)) :
    Settles r (MessageThrows a r.decoder.packetPool (messageAt d.buf))
      (RecoversTo R a r.decoder.packetPool (messageAt d.buf)) (r.processMulticast K a d) := by
  obtain ⟨-, hv, -, hmsg, hret⟩ := hd.spec
  have hm : (messageAt d.buf).Sized d.header.encPacketCount.toNat := messageAt_sized d.buf
  by_cases hn : 1 < d.header.encPacketCount.toNat
  · rw [processMulticast, if_neg (by simp [hv]), if_pos hn]
    exact processEncoded_settles hi hd hn hsafe
  · rw [processMulticast, if_neg (by simp [hv]), if_neg hn, hret, hmsg]
    exact putOther_settles hi hm (by omega)

theorem consume_settles (hi : r.Inv) :
    Settles r (fun f => f = Consumer.encodedPackets ∧ ∃ m rest, r.queue = m :: rest ∧ 1 < m.pktIds.length)
      (fun _ => False) (r.consume a) := by
  cases hq : r.queue with
  | nil =>
    simp only [consume, hq]
    exact .of_ok (by simp) hi (fun x hx _ => .inl hx)
  | cons m rest =>
    by_cases hm : 1 < m.pktIds.length
    · have hc : Consumer.processInput a.publicIP r.recvdOrdering m m.socketAddr =
          .error Consumer.encodedPackets := if_pos hm
      simp only [consume, hq, hc, bind, Except.bind]
      exact .of_error fun f => and_iff_left ⟨m, rest, rfl, hm⟩
    obtain ⟨c, hc⟩ := Consumer.processInput_returns a.publicIP r.recvdOrdering m.socketAddr
      (show m.pktIds.length ≤ 1 by omega) (hi.paired m (by simp [hq]))
    simp only [consume, hq, hc, bind, Except.bind]
    refine .of_ok ?_ ?_ (fun x hx _ => .inl (by rw [hq]; exact List.mem_cons_of_mem _ hx))
    · rintro f ⟨-, m', rest', heq, hm'⟩
      obtain ⟨rfl, -⟩ := List.cons.inj heq
      exact hm hm'
    · have hrest : ∀ x ∈ rest, x.toAddrs.length = x.fromIds.length :=
        fun x hx => hi.paired x (by rw [hq]; exact List.mem_cons_of_mem _ hx)
      cases c.cleared with
      | true => exact ⟨rfl, fun key x hx => by simp [clearPacketPool] at hx, hrest⟩
      | false => exact ⟨hi.ncPackets, hi.entries, hrest⟩

theorem step_settles (hi : r.Inv) {e : ReceiverEvent} (he : e.Complete) (hsafe : ¬ e.Strays R a r) :
    Settles r (fun f => e.Throws a r f) (fun x => e.Recovers R a r x) (r.step K a e) := by
  cases e with
  | unicast d remote => exact processUnicast_settles hi he remote hsafe
  | multicast d => exact processMulticast_settles hi he hsafe
  | consume => exact consume_settles hi

theorem processEncoded_strays (hi : r.Inv) {d : Datagram} (hd : d.Complete)
    (h : MessageStrays R a r.decoder.packetPool (messageAt d.buf)) :
    1 < d.header.encPacketCount.toNat ∧ ∃ f, r.processEncoded K a d = .error f := by
  obtain ⟨hme, hs⟩ := h
  obtain ⟨-, -, -, hmsg, hret⟩ := hd.spec
  obtain ⟨i, stored, hp⟩ := hs.pooled
  have hm : (messageAt d.buf).Sized d.header.encPacketCount.toNat := messageAt_sized d.buf
  have hids : (messageAt d.buf).pktIds.length = 2 := hp.pktIds
  have h2 : d.header.encPacketCount.toNat = 2 := hm.pktIds.symm.trans hids
  rw [h2] at hm
  obtain ⟨f, hf⟩ := hs.decode_error R hm hi.entries
  refine ⟨by omega, f, ?_⟩
  simp only [processEncoded, hret, hmsg, hme, bind, Except.bind, if_true]
  rw [decodeForMe_eq hi.ncPackets (by omega), if_neg (by simp [hp.fetch.1, hids]), if_neg (by omega), hf]
  rfl

/-- A step that strays does not return. -/
theorem step_strays (hi : r.Inv) {e : ReceiverEvent} (he : e.Complete) (h : e.Strays R a r) :
    ∃ f, r.step K a e = .error f := by
  cases e with
  | unicast d remote =>
    obtain ⟨-, hv, -⟩ := he.spec
    obtain ⟨hn, f, hf⟩ := processEncoded_strays hi he h
    exact ⟨f, by rw [step, processUnicast, if_neg (by simp [hv]), if_pos hn, hf]⟩
  | multicast d =>
    obtain ⟨-, hv, -⟩ := he.spec
    obtain ⟨hn, f, hf⟩ := processEncoded_strays hi he h
    exact ⟨f, by rw [step, processMulticast, if_neg (by simp [hv]), if_pos hn, hf]⟩
  | consume => exact h.elim

theorem step_ok_settles (R : K.Rlnc) (hi : r.Inv) {e : ReceiverEvent} (he : e.Complete) {r' : Receiver}
    (h : r.step K a e = .ok r') :
    Settles r (fun f => e.Throws a r f) (fun x => e.Recovers R a r x) (r.step K a e) := by
  refine step_settles hi he (fun hs => ?_)
  obtain ⟨f, hf⟩ := step_strays hi he hs
  rw [hf] at h
  cases h

theorem start_inv : Inv {} := ⟨rfl, fun key m h => by simp at h, by simp⟩

theorem run_inv (R : K.Rlnc) {es : List ReceiverEvent} (hes : ∀ e ∈ es, e.Complete)
    (h : run (step K a) {} es = .ok r) : r.Inv :=
  run_along (P := fun _ e => e.Complete) Inv
    (fun _ _ s' hi he hs => (step_ok_settles R hi he hs).inv s' hs) start_inv
    (Along.of_forall (fun _ e he => hes e he)) h

theorem queue_recovered (R : K.Rlnc) {es : List ReceiverEvent} (hes : ∀ e ∈ es, e.Complete)
    (h : run (step K a) {} es = .ok r) (hm : m ∈ r.queue) (hids : 1 < m.pktIds.length) :
    ∃ pre e post r', es = pre ++ e :: post ∧ run (step K a) {} pre = .ok r' ∧ e.Recovers R a r' m := by
  induction es using List.reverseRecOn generalizing r with
  | nil =>
    obtain rfl : {} = r := by simpa [run] using h
    simp at hm
  | append_singleton es e ih =>
    obtain ⟨t, ht, hstep⟩ := run_concat_ok.mp h
    have hpre : ∀ x ∈ es, x.Complete := fun x hx => hes x (List.mem_append_left _ hx)
    have he := hes e (by simp)
    rcases (step_ok_settles R (run_inv R hpre ht) he hstep).queue r hstep m hm hids with hq | hr
    · obtain ⟨pre, x, post, r', rfl, hrun, hrec⟩ := ih hpre ht hq
      exact ⟨pre, x, post ++ [e], r', by simp, hrun, hrec⟩
    · exact ⟨es, e, [], t, rfl, ht, hr⟩

/-- In a run that does not stray, an exception leaves the receive path exactly at a packet
whose id is taken by another one, at a coded packet of more than two ids of which one is
missing, and when the consumer meets a message of several ids. Into its queue only a coded
packet can have brought one. -/
theorem logic_error_iff (R : K.Rlnc) (a : HostAddrs) (es : List ReceiverEvent)
    (hes : ∀ e ∈ es, e.Complete)
    (hsafe : ∀ pre e post r, es = pre ++ e :: post → run (step K a) {} pre = .ok r → ¬ e.Strays R a r) :
    (∀ f, run (step K a) {} es = .error f ↔
      ∃ pre e post r, es = pre ++ e :: post ∧ run (step K a) {} pre = .ok r ∧ e.Throws a r f) ∧
    ∀ (r : Receiver) (m : UDPNCMessage), run (step K a) {} es = .ok r → m ∈ r.queue →
      1 < m.pktIds.length → ∃ pre e post r', es = pre ++ e :: post ∧
        run (step K a) {} pre = .ok r' ∧ e.Recovers R a r' m := by
  refine ⟨fun f => run_error_iff.trans ?_, fun r m h hm hids => queue_recovered R hes h hm hids⟩
  have hstep {pre : List ReceiverEvent} {e : ReceiverEvent} {post : List ReceiverEvent} {r : Receiver}
      (hsplit : es = pre ++ e :: post) (hpre : run (step K a) {} pre = .ok r) :
      r.step K a e = .error f ↔ e.Throws a r f := by
    have hi := run_inv R (fun x hx => hes x (by rw [hsplit]; exact List.mem_append_left _ hx)) hpre
    exact (step_settles hi (hes e (by simp [hsplit])) (hsafe pre e post r hsplit hpre)).fault f
  constructor
  · rintro ⟨pre, e, post, r, hsplit, hpre, he⟩
    exact ⟨pre, e, post, r, hsplit, hpre, (hstep hsplit hpre).mp he⟩
  · rintro ⟨pre, e, post, r, hsplit, hpre, he⟩
    exact ⟨pre, e, post, r, hsplit, hpre, (hstep hsplit hpre).mpr he⟩

section Runs

def here : IPaddr := ⟨0x0A000001, 1037, 0⟩

def codedPacket (ids : List UInt64) (payload : List UInt8) (checksum : UInt32) : UDPNCMessage where
  header := ⟨startBits, 0, 0, 0, UInt8.ofNat ids.length, BitVec.ofNat 24 payload.length, 0, endBits⟩
  pktIds := ids
  fromIds := ids.map (fun _ => 5)
  toAddrs := ids.map (fun _ => here)
  msg := payload
  checksum

/-- A coded packet out of which the bytes `hidden` are recovered by a client that has the
sample packet 7; `size` of them are checked. -/
def carrier (hidden : List UInt8) (size : Nat) : UDPNCMessage :=
  let t := zeroPad maxPacketSize hidden
  let s := zeroPad maxPacketSize (samplePacket 7 5 here).wire
  codedPacket [8, 7] (Kodo.elimination.writePayload 0 t s)
    (generateChecksum (samplePacket 7 5 here).wire + generateChecksum (t.take size))

theorem codedPacket_complete {ids : List UInt64} {payload : List UInt8} {checksum : UInt32}
    (hids : ids.length < 256) (hp : payload.length < 2 ^ 24) :
    (codedPacket ids payload checksum).datagram.Complete := by
  refine (UDPNCMessage.datagram_spec (n := ids.length) ⟨?_, rfl, ?_, ?_, ?_⟩ ?_).1
  · exact Nat.mod_eq_of_lt hids
  · simp [codedPacket]
  · simp [codedPacket]
  · exact Nat.mod_eq_of_lt hp
  · rfl

theorem samplePacket_complete (pktId fromId : UInt64) (addr : IPaddr) :
    (samplePacket pktId fromId addr).datagram.Complete :=
  (UDPNCMessage.datagram_spec (samplePacket_sized pktId fromId addr) rfl).1

theorem carrier_complete {hidden : List UInt8} (h : hidden.length ≤ maxPacketSize) (size : Nat) :
    (carrier hidden size).datagram.Complete := by
  have hs : (zeroPad maxPacketSize (samplePacket 7 5 here).wire).length = maxPacketSize :=
    length_zeroPad (by decide)
  have hw := Kodo.eliminationRlnc.length_writePayload 0 _ _ (length_zeroPad h) hs
  simp only [payloadRoom, maxPacketSize] at hw
  exact codedPacket_complete (by decide) (by simp only [maxPacketSize]; omega)

def clashing : List ReceiverEvent :=
  [.multicast (samplePacket 7 5 here).datagram, .unicast (samplePacket 7 6 here).datagram here]

def threeIds : List ReceiverEvent :=
  [.multicast (samplePacket 7 5 here).datagram, .multicast (samplePacket 8 5 here).datagram,
    .multicast (codedPacket [7, 8, 9] [1] 0).datagram]

def nested : List ReceiverEvent :=
  [.multicast (samplePacket 7 5 here).datagram,
    .unicast (carrier (codedPacket [1, 2] [] 0).wire (codedPacket [1, 2] [] 0).sizeOf).datagram here,
    .consume]

theorem nested_complete : ∀ e ∈ nested, e.Complete := by
  have hn := carrier_complete (show (codedPacket [1, 2] [] 0).wire.length ≤ maxPacketSize by decide)
    (codedPacket [1, 2] [] 0).sizeOf
  simp [nested, ReceiverEvent.Complete, samplePacket_complete, hn]

/-- All but the last step of `nested` return, so none of them strays. -/
theorem nested_safe (pre : List ReceiverEvent) (e : ReceiverEvent) (post : List ReceiverEvent)
    (r : Receiver) (hsplit : nested = pre ++ e :: post)
    (hpre : run (step Kodo.elimination ⟨here, here⟩) {} pre = .ok r) :
    ¬ e.Strays Kodo.eliminationRlnc ⟨here, here⟩ r := by
  intro hs
  have hc := nested_complete
  rw [hsplit] at hc
  have hi := run_inv Kodo.eliminationRlnc (fun x hx => hc x (List.mem_append_left _ hx)) hpre
  obtain ⟨f, hf⟩ := step_strays hi (hc e (by simp)) hs
  have herr : run (step Kodo.elimination ⟨here, here⟩) {} (pre ++ [e]) = .error f :=
    run_error_iff.mpr ⟨pre, e, [], r, rfl, hpre, hf⟩
  have hfine : ∀ k ≤ 1, fault (run (step Kodo.elimination ⟨here, here⟩) {} (nested.take (k + 1))) = none := by
    decide +kernel
  have htake : nested.take (pre.length + 1) = pre ++ [e] := by simp [hsplit, List.take_append]
  by_cases hk : pre.length ≤ 1
  · have hnone := hfine pre.length hk
    rw [htake, herr] at hnone
    cases hnone
  · have hlen : 3 = pre.length + (post.length + 1) := by
      have h := congrArg List.length hsplit
      rwa [List.length_append, List.length_cons] at h
    have hlast : nested[2]? = some e := by
      rw [hsplit, show 2 = pre.length by omega, List.getElem?_append_right le_rfl, Nat.sub_self]
      rfl
    obtain rfl : ReceiverEvent.consume = e := Option.some.inj hlast
    exact hs

theorem logic_error_nested :
    ∃ pre e post r, nested = pre ++ e :: post ∧
      run (step Kodo.elimination ⟨here, here⟩) {} pre = .ok r ∧
      e.Throws ⟨here, here⟩ r Consumer.encodedPackets :=
  ((logic_error_iff Kodo.eliminationRlnc ⟨here, here⟩ nested nested_complete nested_safe).1
    Consumer.encodedPackets).mp (fault_eq_some (by decide +kernel))

theorem logic_error_escapes :
    (∀ e ∈ clashing ++ threeIds ++ nested, e.Complete) ∧
    run (step Kodo.elimination ⟨here, here⟩) {} clashing = .error packetNotUnique ∧
    run (step Kodo.elimination ⟨here, here⟩) {} threeIds = .error availableNotOne ∧
    run (step Kodo.elimination ⟨here, here⟩) {} nested = .error Consumer.encodedPackets := by
  refine ⟨?_, fault_eq_some ?_, fault_eq_some ?_, fault_eq_some ?_⟩
  · have h3 : (codedPacket [7, 8, 9] [1] 0).datagram.Complete :=
      codedPacket_complete (by decide) (by decide)
    have hn := carrier_complete (show (codedPacket [1, 2] [] 0).wire.length ≤ maxPacketSize by decide)
      (codedPacket [1, 2] [] 0).sizeOf
    simp [clashing, threeIds, nested, ReceiverEvent.Complete, samplePacket_complete, h3, hn]
  · decide +kernel
  · decide +kernel
  · decide +kernel

end Runs

end Receiver

end VastNC
