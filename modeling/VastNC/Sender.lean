import VastNC.Decoder
import VastNC.Consumer

/-! `net_udpNC_handler::send_helper`: numbering and sending of uncoded packets. -/

namespace VastNC

structure Sender where
  myID : UInt64
  pktGenCount : Nat := 0
  sendOrdering : Orderings := ∅
  decoder : UDPNCDecoder := {}

/-- One call of `send_helper`: the bytes, `none` for the keepalive call with `NULL`, the
destination, and the bits that the header's padding happens to have. -/
structure SendRequest where
  msg : Option (List UInt8)
  host : UInt32
  port : UInt16
  padding : BitVec 4

def SendRequest.toAddr (q : SendRequest) : IPaddr := ⟨q.host, q.port, 0⟩

namespace Sender

def keepaliveNotEmpty : Fault :=
  .logicError "net_udpNC_handler::send_helper keepalive packet should have 0 length"

def fill (q : SendRequest) : Except Fault UDPNCMessage :=
  let message := UDPNCMessage.new (UDPNCHeaderFactory.build { padding := q.padding }).1
  match q.msg with
  | some (b :: bs) => .ok (message.putMessage (b :: bs))
  | _ => if message.getMessageSize ≠ 0 then .error keepaliveNotEmpty else .ok message

def takeOrdering (sendOrdering : Orderings) (hostID : UInt64) : UInt8 × Orderings :=
  let sendOrdering := if hostID ∈ sendOrdering then sendOrdering else sendOrdering.insert hostID 0
  let ordering := sendOrdering.getD hostID 0
  (ordering, sendOrdering.insert hostID (ordering + 1))

def sendHelper (s : Sender) (q : SendRequest) :
    Except Fault (Sender × UDPNCMessage × List UInt8) := do
  let message ← fill q
  let (ordering, sendOrdering) := takeOrdering s.sendOrdering (resolveHostID q.toAddr)
  let sequenceNumber := (BitVec.ofNat 32 s.pktGenCount).toInt
  let message := message.putPacketId (UDPNCMessage.generatePacketId s.myID sequenceNumber) true
  let message := ((message.putOrdering ordering).putFromId s.myID).putToAddr q.toAddr
  let decoder ← s.decoder.addUDPNCMessage message
  let (bytes, _) ← message.serialize
  let _ ← storeIn message.sizeOf bytes
  .ok ({ s with pktGenCount := s.pktGenCount + 1, sendOrdering, decoder }, message, bytes)

def sendAll (s : Sender) : List SendRequest → Except Fault (Sender × List UDPNCMessage)
  | [] => .ok (s, [])
  | q :: qs => do
    let (s, message, _) ← s.sendHelper q
    let (s, messages) ← s.sendAll qs
    .ok (s, message :: messages)

end Sender

theorem resolveHostID_inj {a b : IPaddr} (h : resolveHostID a = resolveHostID b) :
    a.host = b.host ∧ a.port = b.port := by
  have hbit (i : Nat) := congrArg (fun x => x.toBitVec.getLsbD i) h
  constructor
  · apply UInt32.toBitVec_inj.mp
    apply BitVec.eq_of_getLsbD_eq
    intro i hi
    have hh := hbit (i + 32)
    simpa [resolveHostID, netIdRelay, show i + 32 < 64 by omega, show i < 64 by omega] using hh
  · apply UInt16.toBitVec_inj.mp
    apply BitVec.eq_of_getLsbD_eq
    intro i hi
    have hh := hbit (i + 16)
    simpa [resolveHostID, netIdRelay, show i + 16 < 64 by omega, show i + 16 < 32 by omega,
      show i < 64 by omega] using hh

namespace Sender

variable {s s' : Sender} {q : SendRequest} {m : UDPNCMessage} {bytes : List UInt8}

theorem fill_eq (q : SendRequest) : ∃ body, fill q =
    .ok ((UDPNCMessage.new (UDPNCHeaderFactory.build { padding := q.padding }).1).putMessage body) := by
  cases hq : q.msg with
  | none => exact ⟨[], by simp only [fill, hq]; rfl⟩
  | some l =>
    cases l with
    | nil => exact ⟨[], by simp only [fill, hq]; rfl⟩
    | cons b bs => exact ⟨b :: bs, by simp only [fill, hq]⟩

theorem takeOrdering_eq (o : Orderings) (hostID : UInt64) :
    (takeOrdering o hostID).1 = o[hostID]?.getD 0 ∧
      ∀ g, (takeOrdering o hostID).2[g]? =
        if hostID = g then some (o[hostID]?.getD 0 + 1) else o[g]? := by
  by_cases hm : hostID ∈ o
  · simp only [takeOrdering, hm, if_true, Std.ExtTreeMap.getD_eq_getD_getElem?, true_and]
    intro g
    rw [Std.ExtTreeMap.getElem?_insert]
    simp
  · have hn : o[hostID]? = none := by simpa using hm
    simp only [takeOrdering, hm, if_false, Std.ExtTreeMap.getD_eq_getD_getElem?, hn]
    refine ⟨by simp, fun g => ?_⟩
    by_cases hg : hostID = g
    · simp [hg]
    · rw [Std.ExtTreeMap.getElem?_insert, if_neg (by simpa using hg),
        Std.ExtTreeMap.getElem?_insert, if_neg (by simpa using hg), if_neg hg]

/-- What is sent, up to the body, and what is left of the sender, up to its decoder. -/
theorem sendHelper_cases (h : s.sendHelper q = .ok (s', m, bytes)) : ∃ body decoder,
    s' = { s with
      pktGenCount := s.pktGenCount + 1
      sendOrdering := (takeOrdering s.sendOrdering (resolveHostID q.toAddr)).2
      decoder } ∧
    m = (((((UDPNCMessage.new (UDPNCHeaderFactory.build { padding := q.padding }).1).putMessage body).putPacketId
      (UDPNCMessage.generatePacketId s.myID (BitVec.ofNat 32 s.pktGenCount).toInt) true).putOrdering
      (takeOrdering s.sendOrdering (resolveHostID q.toAddr)).1).putFromId s.myID).putToAddr q.toAddr := by
  obtain ⟨body, hb⟩ := fill_eq q
  simp only [sendHelper, hb, bind, Except.bind] at h
  split at h
  · cases h
  split at h
  · cases h
  split at h
  · cases h
  simp only [Except.ok.injEq, Prod.mk.injEq] at h
  obtain ⟨rfl, rfl, -⟩ := h
  exact ⟨body, _, rfl, rfl⟩

theorem sendHelper_spec (h : s.sendHelper q = .ok (s', m, bytes)) :
    s'.myID = s.myID ∧ m.pktIds.length = 1 ∧ m.fromIds = [s.myID] ∧ m.toAddrs = [q.toAddr] ∧
      m.getOrdering = s.sendOrdering[resolveHostID q.toAddr]?.getD 0 ∧
      ∀ g, s'.sendOrdering[g]? = if resolveHostID q.toAddr = g then
        some (s.sendOrdering[resolveHostID q.toAddr]?.getD 0 + 1) else s.sendOrdering[g]? := by
  obtain ⟨ho, hm⟩ := takeOrdering_eq s.sendOrdering (resolveHostID q.toAddr)
  obtain ⟨body, decoder, rfl, rfl⟩ := sendHelper_cases h
  exact ⟨rfl, rfl, rfl, rfl, ho, hm⟩

theorem sendAll_cons {qs : List SendRequest} {ms : List UDPNCMessage} (h : s.sendAll (q :: qs) = .ok (s', ms)) :
    ∃ t n bytes ns, s.sendHelper q = .ok (t, n, bytes) ∧ t.sendAll qs = .ok (s', ns) ∧ ms = n :: ns := by
  cases hq : s.sendHelper q with
  | error f => simp [sendAll, hq, bind, Except.bind] at h
  | ok r =>
    obtain ⟨t, n, bytes⟩ := r
    cases hr : t.sendAll qs with
    | error f => simp [sendAll, hq, hr, bind, Except.bind] at h
    | ok r' =>
      obtain ⟨t', ns⟩ := r'
      simp only [sendAll, hq, hr, bind, Except.bind, Except.ok.injEq, Prod.mk.injEq] at h
      obtain ⟨rfl, rfl⟩ := h
      exact ⟨t, n, bytes, ns, rfl, hr, rfl⟩

/-- The packets of a sender to one destination carry consecutive ordering numbers. -/
theorem sendAll_stream {qs : List SendRequest} {ms : List UDPNCMessage} {publicIP : IPaddr} {k : Nat}
    (h : s.sendAll qs = .ok (s', ms))
    (hk : s.sendOrdering[resolveHostID publicIP]?.getD 0 = UInt8.ofNat k) {i : Nat}
    (hi : (ms.filter (fun m => publicIP.equals (m.toAddrs.headD default)))[i]? = some m) :
    m.pktIds.length = 1 ∧ m.fromIds = [s.myID] ∧
      (∃ addr, m.toAddrs = [addr] ∧ publicIP.equals addr = true) ∧
      m.getOrdering = UInt8.ofNat (k + i) := by
  induction qs generalizing s ms k i with
  | nil =>
    obtain ⟨-, rfl⟩ : s = s' ∧ [] = ms := by simpa [sendAll] using h
    simp at hi
  | cons q qs ih =>
    obtain ⟨t, n, w, ns, hq, hr, rfl⟩ := sendAll_cons h
    obtain ⟨hid, hp, hf, ha, ho, hmap⟩ := sendHelper_spec hq
    have hhead : n.toAddrs.headD default = q.toAddr := by rw [ha]; rfl
    cases he : publicIP.equals q.toAddr with
    | false =>
      -- another destination: its host id differs, so the counter stands still
      have hne : resolveHostID q.toAddr ≠ resolveHostID publicIP := by
        intro heq
        obtain ⟨hh, hport⟩ := resolveHostID_inj heq
        simp [IPaddr.equals, hh, hport] at he
      rw [List.filter_cons_of_neg (by rw [hhead, he]; decide)] at hi
      rw [← hid]
      exact ih hr (by rw [hmap, if_neg hne, hk]) hi
    | true =>
      have heq : resolveHostID q.toAddr = resolveHostID publicIP := by
        simp only [IPaddr.equals, Bool.and_eq_true, beq_iff_eq] at he
        rw [resolveHostID, resolveHostID, he.1, he.2]
      rw [List.filter_cons_of_pos (by rw [hhead, he])] at hi
      cases i with
      | zero =>
        obtain rfl : n = m := by simpa using hi
        exact ⟨hp, hf, ⟨q.toAddr, ha, he⟩, by rw [ho, heq, hk, Nat.add_zero]⟩
      | succ i =>
        have hnext : t.sendOrdering[resolveHostID publicIP]?.getD 0 = UInt8.ofNat (k + 1) := by
          rw [hmap, if_pos heq, heq, hk]
          simp
        have hh := ih hr hnext (by simpa using hi)
        rw [← hid, show k + (i + 1) = k + 1 + i by omega]
        exact hh

end Sender

end VastNC
