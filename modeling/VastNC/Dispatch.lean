import VastNC.PoolInvariant

/-! `packet_listener::start_send`: the queue of coded messages and the two sends made for
each of them. -/

namespace VastNC

open FallibleRun

def packetDequeTooLong : Nat := 100

def bufsiz : Nat := 8192

/-- One call of `_sender->send`: the bytes of the buffer that were written, the length that
is passed with it and the endpoint. -/
structure Send where
  bytes : List UInt8
  len : Nat
  host : UInt32
  port : UInt16
  deriving DecidableEq, Repr

/-- `v[i]`. -/
def at_ {α : Type*} (l : List α) (i : Nat) : Except Fault α :=
  match l[i]? with
  | some a => .ok a
  | none => .error (.undefined "index past the end of a vector")

/-- The two sends of one popped message. Both take the port of the first address. -/
def sendMessage (message : UDPNCMessage) : Except Fault (List Send) := do
  let (bytes, sendlen) ← message.serialize
  let _ ← storeIn bufsiz bytes
  let addr0 ← at_ message.toAddrs 0
  let addr1 ← at_ message.toAddrs 1
  .ok [⟨bytes, sendlen, addr0.host, addr0.port⟩, ⟨bytes, sendlen, addr1.host, addr0.port⟩]

def sendTo (m : UDPNCMessage) (addr : IPaddr) : Send := ⟨m.wire, m.wire.length, addr.host, addr.port⟩

/-- The coding host: the listener, the messages the recoder has produced so far, and the
messages that were popped, each with the sends made for it. -/
structure CodingHost where
  listener : Listener
  produced : List UDPNCMessage := []
  dispatched : List (UDPNCMessage × List Send) := []

inductive HostEvent where
  | datagram (d : Datagram)
  | sendRound

namespace CodingHost

/-- One round of the loop of `start_send`. -/
def sendRound (h : CodingHost) : Except Fault CodingHost :=
  match h.listener.msgs with
  | [] => .ok h
  | message :: rest =>
    if packetDequeTooLong < (message :: rest).length then
      .ok { h with listener := { h.listener with msgs := [] } }
    else do
      let sends ← sendMessage message
      .ok { h with
        listener := { h.listener with msgs := rest }
        dispatched := h.dispatched ++ [(message, sends)] }

def step (K : Kodo) (h : CodingHost) : HostEvent → Except Fault CodingHost
  | .datagram d => do
    let l ← h.listener.processInput K d
    .ok { h with listener := l, produced := h.produced ++ l.msgs.drop h.listener.msgs.length }
  | .sendRound => h.sendRound

end CodingHost

structure CodedFor (K : Kodo) (c : UDPNCMessage) (addr1 addr2 : IPaddr) : Prop where
  combines : ∃ k p q, Combines K k p q c ∧ p.toAddrs = [addr1] ∧ q.toAddrs = [addr2] ∧
    p.pktIds.length = 1 ∧ q.pktIds.length = 1 ∧ p.fromIds.length = 1 ∧ q.fromIds.length = 1
  room : c.msg.length ≤ payloadRoom

namespace CodedFor

variable {K : Kodo} {c : UDPNCMessage} {addr1 addr2 : IPaddr}

theorem toAddrs (h : CodedFor K c addr1 addr2) : c.toAddrs = [addr1, addr2] := by
  obtain ⟨k, p, q, hc, h1, h2, -⟩ := h.combines
  rw [hc.toAddrs, h1, h2]
  rfl

theorem sized (h : CodedFor K c addr1 addr2) : c.Sized 2 := by
  obtain ⟨k, p, q, hc, h1, h2, hp, hq, hfp, hfq⟩ := h.combines
  have hr := h.room
  refine ⟨hc.count, ?_, ?_, ?_, ?_⟩
  · rw [hc.pktIds, List.length_append, hp, hq]
  · rw [hc.fromIds, List.length_append, hfp, hfq]
  · rw [h.toAddrs]
    rfl
  · rw [UDPNCMessage.getMessageSize, hc.packetsize, BitVec.toNat_ofNat]
    exact Nat.mod_eq_of_lt (by simp only [payloadRoom, maxPacketSize] at hr; omega)

theorem sendMessage (h : CodedFor K c addr1 addr2) :
    sendMessage c = .ok [sendTo c addr1, sendTo c { addr2 with port := addr1.port }] := by
  have hs := UDPNCMessage.serialize_eq h.sized
  have hl := UDPNCMessage.length_wire h.sized
  have hr := h.room
  have hg := h.sized.packetsize
  have hb : storeIn bufsiz c.wire = .ok (zeroPad bufsiz c.wire) := by
    refine if_pos ?_
    simp only [payloadRoom, maxPacketSize] at hr
    simp only [bufsiz]
    omega
  have h0 : at_ c.toAddrs 0 = .ok addr1 := by rw [h.toAddrs]; rfl
  have h1 : at_ c.toAddrs 1 = .ok addr2 := by rw [h.toAddrs]; rfl
  rw [← hl] at hs
  simp only [VastNC.sendMessage, hs, hb, h0, h1, bind, Except.bind, sendTo]

end CodedFor

namespace CodingHost

variable {K : Kodo} {h h' : CodingHost}

structure Inv (K : Kodo) (h : CodingHost) : Prop where
  entries : PoolEntries h.listener.recoder.packetPool
  produced : ∀ c ∈ h.produced, ∃ addr1 addr2, CodedFor K c addr1 addr2
  order : (h.dispatched.map Prod.fst ++ h.listener.msgs).Sublist h.produced
  sends : ∀ x ∈ h.dispatched, sendMessage x.1 = .ok x.2

theorem start_inv (K : Kodo) (padding : BitVec 4) : Inv K { listener := .start padding } where
  entries := (Ledger.start_inv padding).entries
  produced := by simp
  order := List.Sublist.refl _
  sends := by simp

theorem codedFor_of_pool (R : K.Rlnc) {pool : PacketPool} (hp : PoolEntries pool)
    {key1 key2 : UInt64} {k : Nat} {p q c : UDPNCMessage} (h1 : pool[key1]? = some p)
    (h2 : pool[key2]? = some q) (hc : Combines K k p q c) :
    ∃ addr1 addr2, CodedFor K c addr1 addr2 := by
  obtain ⟨f1, a1, hu1, -⟩ := (hp _ _ h1).uncoded
  obtain ⟨f2, a2, hu2, -⟩ := (hp _ _ h2).uncoded
  obtain ⟨-, s, -, -, hs, -, hls⟩ := hu1.symbol (hp _ _ h1).sizeOf
  obtain ⟨-, t, -, -, ht, -, hlt⟩ := hu2.symbol (hp _ _ h2).sizeOf
  obtain ⟨s', t', hs', ht', hmsg, -⟩ := hc.symbols
  rw [hs, Except.ok.injEq] at hs'
  rw [ht, Except.ok.injEq] at ht'
  refine ⟨a1, a2, ⟨k, p, q, hc, hu1.toAddrs, hu2.toAddrs, ?_, ?_, ?_, ?_⟩, ?_⟩
  · rw [hu1.pktIds, List.length_singleton]
  · rw [hu2.pktIds, List.length_singleton]
  · rw [hu1.fromIds, List.length_singleton]
  · rw [hu2.fromIds, List.length_singleton]
  · rw [hmsg, ← hs', ← ht']
    exact R.length_writePayload k s t hls hlt

theorem datagram_inv (R : K.Rlnc) (hi : Inv K h) {d : Datagram}
    (hstep : h.step K (.datagram d) = .ok h') : Inv K h' := by
  cases hl : h.listener.processInput K d with
  | error f => simp [step, hl, bind, Except.bind] at hstep
  | ok l =>
    simp only [step, hl, bind, Except.bind, Except.ok.injEq] at hstep
    subst hstep
    rcases Listener.processInput_cases hi.entries hl with rfl | hs
    · refine ⟨hi.entries, ?_, ?_, hi.sends⟩
      · simpa using hi.produced
      · simpa using hi.order
    cases hs with
    | ignored hm heq =>
      subst heq
      refine ⟨hi.entries, ?_, ?_, hi.sends⟩
      · simpa using hi.produced
      · simpa using hi.order
    | pooled hm hone hpool hmsgs =>
      refine ⟨?_, ?_, ?_, hi.sends⟩
      · simp only [hpool]
        exact hm.poolEntries hi.entries
      · simpa [hmsgs] using hi.produced
      · simpa [hmsgs] using hi.order
    | coded hm key1 key2 p q c h1 h2 hkeys hne hids hcomb hpool hcount hmsgs =>
      refine ⟨?_, ?_, ?_, hi.sends⟩
      · intro key n hn
        simp only [hpool] at hn
        exact hm.poolEntries hi.entries key n (getElem?_erase_pair.mp hn).2.2
      · intro c' hc'
        simp only [hmsgs, List.drop_left, List.mem_append, List.mem_singleton] at hc'
        rcases hc' with hc' | rfl
        · exact hi.produced c' hc'
        · exact codedFor_of_pool R (hm.poolEntries hi.entries) h1 h2 hcomb
      · simp only [hmsgs, List.drop_left, ← List.append_assoc]
        exact hi.order.append_right [c]

theorem sendRound_inv (hi : Inv K h) : ∃ h', h.sendRound = .ok h' ∧ Inv K h' := by
  have ho := hi.order
  cases hm : h.listener.msgs with
  | nil => exact ⟨h, by simp only [sendRound, hm], hi⟩
  | cons message rest =>
    rw [hm] at ho
    by_cases hb : packetDequeTooLong < (message :: rest).length
    · refine ⟨{ h with listener := { h.listener with msgs := [] } }, ?_, hi.entries, hi.produced,
        ?_, hi.sends⟩
      · simp only [sendRound, hm, hb, if_true]
      · exact ((List.Sublist.refl _).append (List.nil_sublist _)).trans ho
    · obtain ⟨addr1, addr2, hc⟩ := hi.produced message (ho.subset (by simp))
      obtain ⟨sends, hs⟩ : ∃ sends, sendMessage message = .ok sends := ⟨_, hc.sendMessage⟩
      refine ⟨{ h with
        listener := { h.listener with msgs := rest }
        dispatched := h.dispatched ++ [(message, sends)] }, ?_, hi.entries, hi.produced, ?_, ?_⟩
      · simp only [sendRound, hm, hb, if_false, hs, bind, Except.bind]
      · simpa [List.map_append, List.append_assoc] using ho
      · intro x hx
        rcases List.mem_append.mp hx with hx | hx
        · exact hi.sends x hx
        · rw [List.mem_singleton.mp hx]
          exact hs

theorem run_inv (R : K.Rlnc) {padding : BitVec 4} {es : List HostEvent}
    (hrun : run (step K) { listener := .start padding } es = .ok h) : Inv K h := by
  refine run_preserves (Inv K) (fun s e s' hs hst => ?_) (start_inv K padding) hrun
  cases e with
  | datagram d => exact datagram_inv R hs hst
  | sendRound =>
    obtain ⟨t, ht, hi⟩ := sendRound_inv hs
    have hst' : s.sendRound = .ok s' := hst
    rw [ht, Except.ok.injEq] at hst'
    rwa [← hst']

/-- Every popped message is sent twice, in the order of the queue, and the sends go to the
endpoints of the two combined packets exactly when these have the same port. -/
theorem dispatch_iff (R : K.Rlnc) (padding : BitVec 4) (es : List HostEvent) (h : CodingHost)
    (hrun : run (step K) { listener := .start padding } es = .ok h) :
    (h.dispatched.map Prod.fst ++ h.listener.msgs).Sublist h.produced ∧
    (∃ h', h.sendRound = .ok h') ∧
    ∀ x ∈ h.dispatched, ∃ k p q addr1 addr2, Combines K k p q x.1 ∧
      p.toAddrs = [addr1] ∧ q.toAddrs = [addr2] ∧
      x.1.serialize = .ok (x.1.wire, x.1.wire.length) ∧ x.2.length = 2 ∧
      (x.2 = [sendTo x.1 addr1, sendTo x.1 addr2] ↔ addr1.port = addr2.port) := by
  have hi := run_inv R hrun
  obtain ⟨h', hs, -⟩ := sendRound_inv hi
  refine ⟨hi.order, ⟨h', hs⟩, fun x hx => ?_⟩
  have hmem : x.1 ∈ h.produced :=
    hi.order.subset (List.mem_append_left _ (List.mem_map_of_mem hx))
  obtain ⟨addr1, addr2, hc⟩ := hi.produced x.1 hmem
  have hx2 := hi.sends x hx
  rw [hc.sendMessage, Except.ok.injEq] at hx2
  have hser := UDPNCMessage.serialize_eq hc.sized
  rw [← UDPNCMessage.length_wire hc.sized] at hser
  obtain ⟨k, p, q, hcomb, h1, h2, -⟩ := hc.combines
  refine ⟨k, p, q, addr1, addr2, hcomb, h1, h2, hser, by rw [← hx2]; rfl, ?_⟩
  rw [← hx2]
  simp [sendTo]

def twoPackets (port1 port2 : UInt16) : List HostEvent :=
  [.datagram (samplePacket 7 5 ⟨0x0A000001, port1, 0⟩).datagram,
    .datagram (samplePacket 8 6 ⟨0x0A000002, port2, 0⟩).datagram, .sendRound]

def endpoints (h : CodingHost) : List (List (UInt32 × UInt16)) :=
  h.dispatched.map (fun x => x.2.map (fun s => (s.host, s.port)))

theorem dispatch_same_port :
    ∃ h, run (step Kodo.elimination) { listener := .start 0 } (twoPackets 1037 1037) = .ok h ∧
      (endpoints h).length = 1 ∧ ∀ x ∈ h.dispatched, x.2.length = 2 := by
  have hend : returns (run (step Kodo.elimination) { listener := .start 0 } (twoPackets 1037 1037))
      (fun h => (endpoints h).length == 1) = true := by decide +kernel
  obtain ⟨h, hrun, hl⟩ := returns_iff.mp hend
  refine ⟨h, hrun, beq_iff_eq.mp hl, fun x hx => ?_⟩
  obtain ⟨-, -, -, -, -, -, -, -, -, hlen, -⟩ :=
    (dispatch_iff Kodo.eliminationRlnc 0 _ h hrun).2.2 x hx
  exact hlen

theorem dispatch_wrong_port :
    ∃ h, run (step Kodo.elimination) { listener := .start 0 } (twoPackets 1037 2000) = .ok h ∧
      endpoints h = [[(0x0A000001, 1037), (0x0A000002, 1037)]] ∧
      endpoints h ≠ [[(0x0A000001, 1037), (0x0A000002, 2000)]] := by
  have hend : returns (run (step Kodo.elimination) { listener := .start 0 } (twoPackets 1037 2000))
      (fun h => endpoints h == [[(0x0A000001, 1037), (0x0A000002, 1037)]]) = true := by decide +kernel
  obtain ⟨h, hrun, hl⟩ := returns_iff.mp hend
  have hl' := beq_iff_eq.mp hl
  exact ⟨h, hrun, hl', fun hne => absurd (hl'.symm.trans hne) (by decide)⟩

end CodingHost

end VastNC
