import VastNC.Chunking

/-! The sending side of `VASTnet`: `sendMessage` frames a message and queues it in a buffer of
its target until `flush`. -/

namespace VastNC

open LittleEndian

namespace Message

/-- The message without the bookkeeping of its buffer. -/
def content (m : Message) : Message where
  fromId := m.fromId
  msgtype := m.msgtype
  msggroup := m.msggroup
  priority := m.priority
  reliable := m.reliable
  targets := m.targets
  data := m.data

theorem content_eq_iff {m other : Message} :
    m.content = other.content ↔ m.contentEquals other = true := by
  rw [contentEquals_iff, content, content, Message.mk.injEq]
  tauto

def resetCopy (m : Message) : Message := { m with curr := 0, capacity := m.data.length + m.free }

end Message

/-- A message whose number of targets and whose size fit into their fields. -/
structure Outgoing where
  msg : Message
  countFits : msg.targets.length ≤ 255
  sizeFits : msg.serialize.length < 2 ^ 22

namespace Outgoing

theorem length_serialize_pos (o : Outgoing) : 0 < o.msg.serialize.length := by
  rw [Message.length_serialize, Message.sizeOf, Message.headerSize]
  omega

def frame (o : Outgoing) : Frame where
  body := o.msg.serialize
  pos := o.length_serialize_pos
  small := o.sizeFits

def restored (o : Outgoing) : Message :=
  (({ msgtype := 0 } : Message).deserialize (memOf o.msg.serialize) o.msg.serialize.length).msg

theorem length_data_lt (o : Outgoing) : o.msg.data.length < 2 ^ 32 := by
  have h := o.sizeFits
  rw [Message.length_serialize, Message.sizeOf] at h
  omega

theorem contentEquals_restored (o : Outgoing) : o.restored.contentEquals o.msg = true :=
  (Message.Holds.of_memOf o.msg).deserialize_contentEquals o.length_data_lt o.countFits _

theorem content_restored (o : Outgoing) : o.restored.content = o.msg.content :=
  Message.content_eq_iff.mpr o.contentEquals_restored

theorem priority_restored (o : Outgoing) : o.restored.priority = o.msg.priority :=
  (Message.contentEquals_iff.mp o.contentEquals_restored).2.2.2.2.1

theorem message?_frame (o : Outgoing) (host : UInt64) :
    o.frame.handled.message? host = some o.restored := by
  have hsize : o.frame.header.msgSize.toNat = o.msg.serialize.length := o.frame.msgSize_header
  obtain ⟨-, ha⟩ := (Message.Holds.of_memOf o.msg).announced_eq o.length_data_lt o.countFits
  obtain ⟨hret, -, -⟩ := Message.deserialize_accepted { msgtype := 0 } ha.le
  have hpos : ¬ (({ msgtype := 0 } : Message).deserialize (memOf o.msg.serialize)
      o.msg.serialize.length).ret = 0 := by
    rw [hret, Message.headerSize]
    omega
  have hv : o.frame.handled = .vast o.frame.header o.msg.serialize := rfl
  have htype : o.frame.header.type = VASTHeaderType.regular.bits := rfl
  rw [hv, Handled.message?, hsize, if_neg hpos, if_pos htype, restored]

def note (k : UInt8) : Outgoing :=
  ⟨{ msgtype := 7, fromId := 5, data := [k] }, by simp, by
    rw [Message.length_serialize]
    simp [Message.sizeOf, Message.headerSize]⟩

end Outgoing

/-- The fields of `VASTnet` and its manager that sending uses: `connected` are the keys of
`_id2conn`, `id2addr` those of `_id2addr`, and `connect` is what the manager's `connect`
returns. `sendBuf` is `_sendbuf_TCP` at `true` and `_sendbuf_UDP` at `false`. -/
structure VastSender where
  net : VastNet := {}
  id : UInt64
  connected : List UInt64 := []
  id2addr : List UInt64 := []
  connect : UInt64 → Bool := fun _ => false
  sendBuf : Bool → Std.ExtTreeMap UInt64 VASTBuffer := fun _ => ∅

namespace VastSender

def queueMessage (n : VastSender) (target : UInt64) (msg : Message) (reliable : Bool)
    (type : VASTHeaderType) : VastSender :=
  let buf := (n.sendBuf reliable)[target]?.getD {}
  let header := VASTHeader.build type msg.serialize.length
  let buf := (buf.add header.toBytes).getD buf
  let buf := (buf.add msg.serialize).getD buf
  { n with sendBuf := Function.update n.sendBuf reliable ((n.sendBuf reliable).insert target buf) }

/-- The inner call of `sendMessage` finds the target connected. -/
def sendHandshake (n : VastSender) (target : UInt64) : VastSender :=
  if n.id = netIdUnassigned then n
  else
    let msg : Message := { msgtype := 0, priority := 0, fromId := n.id }
    n.queueMessage target ((msg.store (toLE 8 n.id.toNat)).getD msg) true .handshake

def validateConnection (n : VastSender) (host : UInt64) : VastSender × Bool :=
  if n.id = host ∨ host ∈ n.connected then (n, true)
  else if host ∉ n.id2addr then (n, false)
  else if n.connect host = false then (n, false)
  else ({ n with connected := host :: n.connected }.sendHandshake host, true)

def sendMessage (n : VastSender) (target : UInt64) (msg : Message) (reliable : Bool := true)
    (type : VASTHeaderType := .regular) : VastSender × Nat :=
  if n.net.active = false then (n, 0)
  else
    let msg := if msg.fromId = 0 then { msg with fromId := n.id } else msg
    if target = n.id then
      ({ n with net := n.net.storeVASTMessage n.id msg.resetCopy }, msg.data.length)
    else
      match n.validateConnection target with
      | (n, false) => (n, 0)
      | (n, true) => (n.queueMessage target msg reliable type,
          (VASTHeader.build type msg.serialize.length).msgSize.toNat)

def pending (n : VastSender) (reliable : Bool) (target : UInt64) : List UInt8 :=
  ((n.sendBuf reliable)[target]?.getD {}).data

variable {n : VastSender} {target : UInt64}

theorem pending_queueMessage (n : VastSender) (target : UInt64) (msg : Message) (reliable : Bool)
    (type : VASTHeaderType) : (n.queueMessage target msg reliable type).pending reliable target =
      n.pending reliable target ++
        ((VASTHeader.build type msg.serialize.length).toBytes ++ msg.serialize) := by
  obtain ⟨b, hb, hdata⟩ := ((n.sendBuf reliable)[target]?.getD {}).add_eq
    (VASTHeader.build type msg.serialize.length).toBytes
  obtain ⟨b', hb', hdata'⟩ := b.add_eq msg.serialize
  simp only [pending, queueMessage, Function.update_self, Std.ExtTreeMap.getElem?_insert_self,
    Option.getD_some, hb, hb']
  rw [hdata', hdata, List.append_assoc]

theorem sendMessage_connected (hactive : n.net.active = true) (hother : target ≠ n.id)
    (hconn : target ∈ n.connected) {msg : Message} (hfrom : msg.fromId ≠ 0) (reliable : Bool)
    (type : VASTHeaderType) :
    (n.sendMessage target msg reliable type).1 = n.queueMessage target msg reliable type := by
  have ha : ¬ n.net.active = false := by simp [hactive]
  have hv : n.validateConnection target = (n, true) := by
    rw [validateConnection, if_pos (Or.inr hconn)]
  rw [sendMessage, if_neg ha]
  simp only [hfrom, if_false, hother, hv]

def sendAll (n : VastSender) (target : UInt64) (reliable : Bool) (msgs : List Outgoing) : VastSender :=
  msgs.foldl (fun n o => (n.sendMessage target o.msg reliable .regular).1) n

/-- The buffer of a connected target holds the frames of what was sent, one behind the other. -/
theorem pending_sendAll (hactive : n.net.active = true) (hother : target ≠ n.id)
    (hconn : target ∈ n.connected) (reliable : Bool) {msgs : List Outgoing}
    (hfrom : ∀ o ∈ msgs, o.msg.fromId ≠ 0) : (n.sendAll target reliable msgs).pending reliable target =
      n.pending reliable target ++ bytesOf (msgs.map Outgoing.frame) := by
  induction msgs generalizing n with
  | nil => exact (List.append_nil _).symm
  | cons o msgs ih =>
    obtain ⟨ho, hrest⟩ := List.forall_mem_cons.mp hfrom
    have hstep : n.sendAll target reliable (o :: msgs) =
        (n.queueMessage target o.msg reliable .regular).sendAll target reliable msgs := by
      rw [← sendMessage_connected hactive hother hconn ho]
      rfl
    rw [hstep, ih (n := n.queueMessage target o.msg reliable .regular) hactive hother hconn hrest,
      pending_queueMessage, List.append_assoc, List.map_cons,
      bytesOf, bytesOf, List.flatMap_cons]
    rfl

end VastSender

end VastNC
