import VastNC.AddressBook
import VastNC.SendMessage
import VastNC.Splitter

/-! From `sendMessage` to `_full_queue`: the bytes of a send buffer are cut into its frames by
`process_input`, and `process` restores the messages from them. -/

namespace VastNC

open KeyedMachine LittleEndian

namespace SplitEvent

/-- The item that `net_udp::msg_received` queues; `clock` gives its time. -/
def item? (buf : Nat → UInt8) (clock : Nat → Nat) : SplitEvent → Option NetSocketMsg
  | .msgReceived host off len => some ⟨host, clock off, window buf off len⟩
  | _ => none

end SplitEvent

namespace Splitter

variable {s : Splitter}

def handedOn (s : Splitter) (clock : Nat → Nat) (events : List SplitEvent) : List NetSocketMsg :=
  events.filterMap (SplitEvent.item? s.buf clock)

theorem handedOn_frame (s : Splitter) (clock : Nat → Nat) (p size : Nat) (n : UInt64)
    (events : List SplitEvent) :
    s.handedOn clock (.access (.read p 4) :: s.frameEvents (p + 4) n size ++ events) =
      ⟨s.tempId, clock p, window s.buf p (size + 4)⟩ :: s.handedOn clock events := by
  have htrace (l : List Access) :
      (l.map (SplitEvent.shift (p + 4))).filterMap (SplitEvent.item? s.buf clock) = [] := by
    rw [List.filterMap_map, List.filterMap_eq_nil_iff]
    intro a _
    cases a <;> rfl
  have haddr : (if s.unicast then [SplitEvent.storeRemoteAddress s.tempId s.remoteAddr,
      .socketConnected s.tempId] else []).filterMap (SplitEvent.item? s.buf clock) = [] := by
    split <;> rfl
  have hread : SplitEvent.item? s.buf clock (.access (.read p 4)) = none := rfl
  rw [handedOn, List.cons_append, List.filterMap_cons, hread, List.filterMap_append, frameEvents,
    List.filterMap_append, List.filterMap_append, htrace, haddr]
  rfl

theorem window_bytes {f : Frame} {p : Nat} {rest : List UInt8}
    (h : window s.buf p (f.bytes ++ rest).length = f.bytes ++ rest) :
    window s.buf p (f.body.length + 4) = f.bytes ∧ vastHeaderAt s.buf p = f.header ∧
      window s.buf (p + 4 + f.body.length) rest.length = rest := by
  have hlen := f.length_bytes
  rw [List.length_append, window_add] at h
  obtain ⟨hf, hrest⟩ := List.append_inj h (length_window _ _ _)
  have hf' := hf
  rw [hlen, window_add, Frame.bytes] at hf'
  have hheader := (List.append_inj hf' (by simp)).1
  refine ⟨by rw [Nat.add_comm, ← hlen, hf], ?_, by rw [Nat.add_assoc, ← hlen, hrest]⟩
  rw [vastHeaderAt, sizeofVASTHeader, hheader, ← List.append_nil f.header.toBytes,
    VASTHeader.ofBytes_toBytes]

theorem loop_frames {fs : List Frame} {p : Nat} {n : UInt64} (clock : Nat → Nat)
    (hbuf : window s.buf p (bytesOf fs).length = bytesOf fs) (hn : n.toNat = (bytesOf fs).length) :
    ∃ events, s.loop (fs.length + 1) n p = some events ∧
      (s.handedOn clock events).map (fun m => (m.fromhost, m.msg)) =
        fs.map (fun f => (s.tempId, f.bytes)) := by
  induction fs generalizing p n with
  | nil => exact ⟨[], loop_short (by rw [hn]; exact Nat.zero_le 4), rfl⟩
  | cons f fs ih =>
    have hb : bytesOf (f :: fs) = f.bytes ++ bytesOf fs := List.flatMap_cons
    rw [hb] at hbuf hn
    rw [List.length_append, f.length_bytes] at hn
    obtain ⟨hframe, hheader, hrest⟩ := window_bytes hbuf
    have hsize : (vastHeaderAt s.buf p).msgSize.toNat = f.body.length := by
      rw [hheader, f.msgSize_header]
    have hv : (vastHeaderAt s.buf p).isVASTHeader = true := by
      rw [hheader]
      exact VASTHeader.isVASTHeader_build _ _
    have hpos := f.pos
    have hr : (n - 4 - UInt64.ofNat f.body.length).toNat = n.toNat - 4 - f.body.length :=
      toNat_rest (by omega) (by omega)
    obtain ⟨events, hloop, hitems⟩ := ih (n := n - 4 - UInt64.ofNat f.body.length) hrest (by omega)
    refine ⟨_, by rw [List.length_cons, loop_frame (by omega) hv, hsize, hloop]; rfl, ?_⟩
    rw [handedOn_frame, List.map_cons, List.map_cons, hitems, hframe]

theorem ofBytes_window (buf : Nat → UInt8) (p size : Nat) :
    VASTHeader.ofBytes (window buf p (size + 4)) = vastHeaderAt buf p := by
  have hl : (window buf p 4).length = sizeofVASTHeader := length_window _ _ _
  rw [Nat.add_comm, window_add, vastHeaderAt, VASTHeader.ofBytes, VASTHeader.ofBytes, List.take_left' hl,
    List.take_of_length_le (length_window _ _ _).le]
  rfl

theorem whole_of_mem_handedOn {fuel p : Nat} {n : UInt64} {events : List SplitEvent}
    {clock : Nat → Nat} {m : NetSocketMsg} (h : s.loop fuel n p = some events)
    (hm : m ∈ s.handedOn clock events) :
    (VASTHeader.ofBytes m.msg).isVASTHeader = true ∧
      m.msg.length = (VASTHeader.ofBytes m.msg).msgSize.toNat + 4 := by
  induction fuel generalizing n p events with
  | zero => cases h
  | succ fuel ih =>
    by_cases h4 : 4 < n.toNat
    · cases hf : (vastHeaderAt s.buf p).isVASTHeader with
      | false =>
        rw [loop_foreign h4 hf] at h
        cases h
        cases hm
      | true =>
        rw [loop_frame h4 hf, Option.map_eq_some_iff] at h
        obtain ⟨rest, hrest, rfl⟩ := h
        rw [handedOn_frame] at hm
        rcases List.mem_cons.mp hm with rfl | hm
        · simp only [ofBytes_window, length_window]
          exact ⟨hf, trivial⟩
        · exact ih hrest hm
    · rw [loop_short (by omega)] at h
      cases h
      cases hm

end Splitter

/-- An item of `net_udp`: what `process_input` hands on, or a disconnect notification. -/
inductive UdpItem : NetSocketMsg → Prop
  | input {s : Splitter} {fuel : Nat} {n : UInt64} {events : List SplitEvent} {clock : Nat → Nat}
    {m : NetSocketMsg} : s.loop fuel n 0 = some events → m ∈ s.handedOn clock events → UdpItem m
  | disconnected (host : UInt64) (now : Nat) : UdpItem ⟨host, now, []⟩

theorem UdpItem.digest {m : NetSocketMsg} (h : UdpItem m) : (VastNC.digest none m).1 = none := by
  cases h with
  | disconnected host now => rw [digest_disconnect]
  | input hloop hm =>
    obtain ⟨hv, hlen⟩ := Splitter.whole_of_mem_handedOn hloop hm
    have hne : m.msg ≠ [] := List.length_pos_iff.mp (by omega)
    by_cases h0 : (VASTHeader.ofBytes m.msg).msgSize.toNat = 0
    · rw [digest_short (by omega) hne]
    · have hhalf : halfFor none m.msg = some ⟨VASTHeader.ofBytes m.msg, [], by
          simp only [sizeofVASTHeader, List.length_nil]; omega⟩ := by
        simp only [halfFor, hv, if_true]
        rw [if_pos (by simp only [sizeofVASTHeader]; omega)]
      have hit : (iterate none m).half = none ∧ (iterate none m).rest = none := by
        have hmin : min (sizeofVASTHeader + (VASTHeader.ofBytes m.msg).msgSize.toNat) m.msg.length =
            m.msg.length := by
          rw [sizeofVASTHeader]
          omega
        have hfull : ¬ m.msg.length < sizeofVASTHeader + (VASTHeader.ofBytes m.msg).msgSize.toNat := by
          rw [sizeofVASTHeader]
          omega
        simp only [iterate, hne, if_false, hhalf, Half.fullSize, List.length_nil, Nat.sub_zero, hmin,
          List.take_length, List.nil_append, hfull, dite_false, lt_irrefl, and_self]
      rw [digest_none hit.2, hit.1]

/-- The states of the receiving side of a node that uses `net_udp`. Everything but `process`
leaves the half queue alone. -/
inductive UdpReachable : VastNet → Prop
  | start : UdpReachable {}
  | process {v : VastNet} {q : List NetSocketMsg} : UdpReachable v → (∀ m ∈ q, UdpItem m) →
    UdpReachable (v.process netUdp q).1
  | other {v w : VastNet} : UdpReachable v → w.halfQueue = v.halfQueue → UdpReachable w

theorem run_udpItems {ms : List NetSocketMsg} (h : ∀ m ∈ ms, UdpItem m) :
    (run digest none ms).1 = none := by
  induction ms with
  | nil => rfl
  | cons m ms ih =>
    obtain ⟨hm, hms⟩ := List.forall_mem_cons.mp h
    rw [run, hm.digest]
    exact ih hms

/-- A datagram is handed on in whole frames, so there is never a half message. -/
theorem UdpReachable.halves_eq_none {v : VastNet} (h : UdpReachable v) (host : UInt64) :
    v.halves host = none := by
  induction h with
  | start => exact Std.ExtTreeMap.getElem?_empty
  | process _ hq ih =>
    rw [VastNet.halves_process, ih]
    exact run_udpItems (fun m hm => hq m (List.mem_of_mem_filter hm))
  | other _ hw ih => rwa [VastNet.halves, hw]

namespace VastNet

theorem runKeyed_frames {halves : UInt64 → Option Half} {host : UInt64} (hhalf : halves host = none)
    {q : List NetSocketMsg} {fs : List Frame}
    (hq : q.map (fun m => (m.fromhost, m.msg)) = fs.map (fun f => (host, f.bytes))) :
    runKeyed digest halves (keyed q) = (halves, fs.map (fun f => (host, f.handled))) := by
  induction fs generalizing q with
  | nil =>
    obtain rfl := List.map_eq_nil_iff.mp hq
    rfl
  | cons f fs ih =>
    cases q with
    | nil => cases hq
    | cons m q =>
      obtain ⟨fromhost, recvtime, msg⟩ := m
      obtain ⟨hm, hrest⟩ := List.cons.inj hq
      obtain ⟨rfl, rfl⟩ := Prod.mk.inj hm
      have hk : keyed (⟨fromhost, recvtime, f.bytes⟩ :: q) =
          (fromhost, ⟨fromhost, recvtime, f.bytes⟩) :: keyed q := rfl
      have hsame : Function.update halves fromhost none = halves := by
        rw [← hhalf, Function.update_eq_self]
      rw [hk, runKeyed, hhalf, digest_frame, hsame, ih hrest]
      rfl

theorem messages_frames (host : UInt64) (msgs : List Outgoing) :
    messages (msgs.map (fun o => (host, o.frame.handled))) = msgs.map (fun o => (host, o.restored)) := by
  rw [messages, List.filterMap_map, ← List.filterMap_eq_map]
  refine List.filterMap_congr (fun o _ => ?_)
  simp only [Function.comp_apply, o.message?_frame host, Option.map_some]

theorem socket_frames (host : UInt64) (msgs : List Outgoing) :
    (msgs.map (fun o => (host, o.frame.handled))).filterMap (fun out => out.2.socket?) = [] := by
  rw [List.filterMap_map, List.filterMap_eq_nil_iff]
  exact fun o _ => rfl

theorem process_frames {v : VastNet} {host : UInt64} (hv : v.active = true) (hnz : host ≠ netIdUnassigned)
    (hhalf : v.halves host = none) {q : List NetSocketMsg} {msgs : List Outgoing}
    (hq : q.map (fun m => (m.fromhost, m.msg)) = msgs.map (fun o => (host, o.frame.bytes))) :
    (∀ p, (v.process netUdp q).1.fullQueue.ofKey p = v.fullQueue.ofKey p ++
        (msgs.filter (fun o => o.msg.priority.toNat = p)).map (fun o => ⟨host, o.restored⟩)) ∧
      (v.process netUdp q).1.halves = v.halves ∧
      (v.process netUdp q).1.socketQueue = v.socketQueue := by
  have hframes : q.map (fun m => (m.fromhost, m.msg)) =
      (msgs.map Outgoing.frame).map (fun f => (host, f.bytes)) := by
    rw [hq, List.map_map, Function.comp_def]
  have hrun := runKeyed_frames hhalf hframes
  rw [List.map_map, Function.comp_def] at hrun
  obtain ⟨-, -, hfull, hsocket⟩ := process_queues hv q
  rw [hrun] at hfull hsocket
  refine ⟨fun p => ?_, ?_, by rw [hsocket, socket_frames, List.append_nil]⟩
  · have hinsert : (v.process netUdp q).1.fullQueue =
        (msgs.map (fun o => (⟨host, o.restored⟩ : FullVmsg))).foldl StableQueue.insert v.fullQueue := by
      rw [hfull, messages_frames, List.foldl_map, List.foldl_map]
      simp only [queued, hnz, if_false]
    rw [hinsert, StableQueue.ofKey_foldl_insert, List.filter_map]
    simp only [Function.comp_def, Outgoing.priority_restored]
  · rw [process_udp, (foldl_absorb v q).1, hrun]

/-- Messages that are queued for a connected target and given to the receiver in one datagram are
all put into its full queue, once each and in order for every priority, and nothing else is. -/
theorem framing_round_trip (n : VastSender) (hup : n.net.active = true) (target : UInt64)
    (hother : target ≠ n.id) (hconn : target ∈ n.connected) (reliable : Bool)
    (hempty : n.pending reliable target = []) (msgs : List Outgoing)
    (hfrom : ∀ o ∈ msgs, o.msg.fromId ≠ 0) (v : VastNet) (hv : v.active = true)
    (hreach : UdpReachable v) (s : Splitter) (hremote : s.unicast = true) (size : UInt64)
    (hsize : size.toNat = ((n.sendAll target reliable msgs).pending reliable target).length)
    (hbuf : window s.buf 0 size.toNat = (n.sendAll target reliable msgs).pending reliable target)
    (clock : Nat → Nat) :
    ∃ events, s.loop (msgs.length + 1) size 0 = some events ∧
      (∀ p, ∃ new, (v.process netUdp (s.handedOn clock events)).1.fullQueue.ofKey p =
          v.fullQueue.ofKey p ++ new ∧
        new.map (fun m => (m.fromhost, m.msg.content)) =
          (msgs.filter (fun o => o.msg.priority.toNat = p)).map
            (fun o => (resolveHostID s.remoteAddr, o.msg.content))) ∧
      (v.process netUdp (s.handedOn clock events)).1.halfQueue = v.halfQueue ∧
      (v.process netUdp (s.handedOn clock events)).1.socketQueue = v.socketQueue ∧
      (v.process netUdp (s.handedOn clock events)).2 = [] := by
  have hdata := VastSender.pending_sendAll hup hother hconn reliable hfrom
  rw [hempty, List.nil_append] at hdata
  rw [hdata] at hsize hbuf
  rw [hsize] at hbuf
  obtain ⟨events, hloop, hitems⟩ := s.loop_frames clock hbuf hsize
  have hid : s.tempId = resolveHostID s.remoteAddr := by rw [Splitter.tempId, if_pos hremote]
  rw [hid, List.map_map, Function.comp_def] at hitems
  rw [List.length_map] at hloop
  obtain ⟨hfull, hhalf, hsocket⟩ := process_frames hv (AddressBook.resolveHostID_ne_zero s.remoteAddr)
    (hreach.halves_eq_none _) hitems
  refine ⟨events, hloop, fun p => ⟨_, hfull p, ?_⟩, ?_, hsocket, by rw [process_udp]⟩
  · rw [List.map_map, Function.comp_def]
    simp only [Outgoing.content_restored]
  · exact Std.ExtTreeMap.ext_getElem? (fun k => congrFun hhalf k)

def twoNotes : List Outgoing := [.note 1, .note 2]

def twoNotesInput : Splitter := ⟨memOf (bytesOf (twoNotes.map Outgoing.frame)), ⟨0x0A000005, 1037, 0⟩, 5⟩

theorem framing_round_trip_two_notes :
    ∃ events, twoNotesInput.loop 3 46 0 = some events ∧
      ((process netUdp {} (twoNotesInput.handedOn (fun _ => 1) events)).1.fullQueue.ofKey 3).map
        (fun m => (m.fromhost, m.msg.content)) =
        twoNotes.map (fun o => (resolveHostID ⟨0x0A000005, 1037, 0⟩, o.msg.content)) := by
  have hdata : (({ id := 5, connected := [9] } : VastSender).sendAll 9 true twoNotes).pending true 9 =
      bytesOf (twoNotes.map Outgoing.frame) :=
    VastSender.pending_sendAll rfl (by decide) (by decide) true (by decide)
  obtain ⟨events, hloop, hfull, -⟩ := framing_round_trip { id := 5, connected := [9] } rfl 9 (by decide)
    (by decide) true rfl twoNotes (by decide) {} rfl .start twoNotesInput rfl 46 (by rw [hdata]; rfl)
    (by rw [hdata]; exact window_memOf _) (fun _ => 1)
  obtain ⟨new, hnew, hcontent⟩ := hfull 3
  refine ⟨events, hloop, ?_⟩
  rw [hnew]
  exact hcontent

end VastNet

end VastNC
