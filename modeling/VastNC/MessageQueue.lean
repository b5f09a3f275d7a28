import VastNC.Extract
import VastNC.Lib.Tables

/-! `MessageQueue`: the targets of a message are split by the hosts they live at, every host gets
one copy, and what arrives there goes to the handler of its group. -/

namespace VastNC

open LittleEndian

namespace Message

/-- What another host makes of a message: it reads as many bytes behind the header as the
header's 22 bits say. -/
def received (host : UInt64) (m : Message) : Option Message :=
  (Handled.vast (VASTHeader.build .regular m.serialize.length) m.serialize).message? host

/-- `m` as another message arrives: the same content, with the cursor at the start. -/
structure Arrives (m r : Message) : Prop where
  content : r.content = m.content
  curr : r.curr = 0

namespace Arrives

variable {m r : Message}

theorem fields (h : m.Arrives r) : r.fromId = m.fromId ∧ r.msgtype = m.msgtype ∧
    r.msggroup = m.msggroup ∧ r.targets = m.targets ∧ r.data = m.data := by
  obtain ⟨hf, hty, hg, -, -, hd, ht⟩ := contentEquals_iff.mp (content_eq_iff.mp h.content)
  exact ⟨hf, hty, hg, ht, hd⟩

end Arrives

theorem arrives_resetCopy (m : Message) : m.Arrives m.resetCopy := ⟨rfl, rfl⟩

theorem arrives_restored (o : Outgoing) : o.msg.Arrives o.restored := by
  have ha := ((Holds.of_memOf o.msg).announced_eq o.length_data_lt o.countFits).2
  obtain ⟨-, hres, -⟩ := deserialize_accepted { msgtype := 0 } ha.le
  refine ⟨o.content_restored, ?_⟩
  rw [Outgoing.restored]
  exact hres.curr

theorem received_fits {m : Message} (hcount : m.targets.length ≤ 255) (hsize : m.sizeOf < 2 ^ 22)
    (host : UInt64) : ∃ r, m.received host = some r ∧ m.Arrives r := by
  have hserialize : m.serialize.length < 2 ^ 22 := by rwa [length_serialize]
  exact ⟨_, Outgoing.message?_frame ⟨m, hcount, hserialize⟩ host, arrives_restored ⟨m, hcount, hserialize⟩⟩

theorem readTargets_take {buf : Nat → UInt8} {m : Message} (h : Holds buf m) {k : Nat}
    (hk : k ≤ m.targets.length) : readTargets buf k = m.targets.take k := by
  have hlen : (m.targets.take k).length = k := by rw [List.length_take, Nat.min_eq_left hk]
  have hall : m.targets.flatMap (fun t => toLE 8 t.toNat) = [] ++
      (m.targets.take k).flatMap (fun t => toLE 8 t.toNat) ++
        (m.targets.drop k).flatMap (fun t => toLE 8 t.toNat) := by
    rw [List.nil_append, ← List.flatMap_append, List.take_append_drop]
  have hbytes : window buf headerSize (8 * m.targets.length) =
      m.targets.flatMap (fun t => toLE 8 t.toNat) := h.targets
  have hpre : window buf headerSize (8 * (m.targets.take k).length) =
      (m.targets.take k).flatMap (fun t => toLE 8 t.toNat) := by
    have hadd : 8 * m.targets.length = 8 * k + 8 * (m.targets.length - k) := by omega
    rw [hadd, window_add, hall, List.nil_append] at hbytes
    rw [hlen]
    exact (List.append_inj hbytes (by rw [length_window, length_flatMap_toLE, hlen])).1
  have hmap := map_readU64 hpre
  rwa [hlen] at hmap

theorem Holds.size_mod {buf : Nat → UInt8} {m : Message} (h : Holds buf m) :
    ofLE (window buf 8 4) = m.data.length % 2 ^ 32 := by
  have hs : m.headerBytes = toLE 8 m.fromId.toNat ++ toLE 4 m.data.length ++
      (toLE 2 m.msgtype.toNat ++ [m.msggroup, m.priority, if m.reliable then 1 else 0]) := by
    simp [headerBytes]
  have hw : window buf 8 4 = toLE 4 m.data.length :=
    window_slice h.headerBytes_window hs (by simp) (by simp)
  rw [hw, ofLE_toLE, show 256 ^ 4 = 2 ^ 32 from rfl]

/-- The number of targets is read modulo 256, and a message whose size does not fit into the
header loses a part of its data or is lost. -/
theorem received_some {m r : Message} {host : UInt64} (h : m.received host = some r) :
    r.curr = 0 ∧ r.targets = m.targets.take (m.targets.length % 256) ∧
      r.data.length ≤ m.data.length ∧
      (m.targets.length ≤ 255 → 2 ^ 22 ≤ m.sizeOf → r.data.length < m.data.length) := by
  have hh := Holds.of_memOf m
  have hcount : (memOf m.serialize 17).toNat = m.targets.length % 256 := by
    rw [hh.count, UInt8.toNat_ofNat']
  have hmsg : (VASTHeader.build .regular m.serialize.length).msgSize.toNat = m.sizeOf % 2 ^ 22 := by
    rw [length_serialize, VASTHeader.build, BitVec.toNat_ofNat]
  simp only [received, Handled.message?, hmsg] at h
  split at h
  · cases h
  · rename_i hret
    rw [if_pos (show (VASTHeader.build .regular m.serialize.length).type =
      VASTHeaderType.regular.bits from rfl)] at h
    by_cases ha : announced (memOf m.serialize) ≤ m.sizeOf % 2 ^ 22
    · obtain ⟨-, hr, -⟩ := deserialize_accepted { msgtype := 0 } ha
      rw [Option.some.inj h] at hr
      have hdata : r.data.length = m.data.length % 2 ^ 32 := by
        rw [hr.data, length_window, hh.size_mod]
      refine ⟨hr.curr, ?_, ?_, fun hle hbig => ?_⟩
      · rw [hr.targets, hcount, readTargets_take hh (Nat.mod_le _ _)]
      · rw [hdata]
        exact Nat.mod_le _ _
      · rw [announced, hcount, hh.size_mod, Nat.mod_eq_of_lt (by omega : m.targets.length < 256)] at ha
        rw [sizeOf] at ha hbig
        omega
    · exact absurd (deserialize_rejected { msgtype := 0 } (Nat.lt_of_not_le ha)).1 hret

end Message

structure MessageQueue where
  hostId : UInt64
  id2host : UInt64 → Option UInt64
  defaultHost : UInt64

namespace MessageQueue

def hostOf (q : MessageQueue) (target : UInt64) : UInt64 := (q.id2host target).getD q.defaultHost

def host2targets (q : MessageQueue) (targets : List UInt64) : Std.ExtTreeMap UInt64 (List UInt64) :=
  Tables.groupBy q.hostOf targets

def transmit (q : MessageQueue) (msg : Message) (host : UInt64) : Option Message :=
  let msg := if msg.fromId = 0 then { msg with fromId := q.hostId } else msg
  if host = q.hostId then some msg.resetCopy else msg.received host

/-- One message for each host, in the order of the host ids; all connections are there. -/
def sendMessage (q : MessageQueue) (msg : Message) : List (UInt64 × Message) :=
  (q.host2targets msg.targets).toList.filterMap
    (fun e => (q.transmit { msg with targets := e.2 } e.1).map (fun m => (e.1, m)))

/-- A sender that is not known yet is recorded under its own host. -/
def learn (q : MessageQueue) (fromHost : UInt64) (msg : Message) : MessageQueue :=
  if fromHost ≠ q.hostId ∧ q.id2host msg.fromId = none ∧ msg.fromId = fromHost then
    { q with id2host := Function.update q.id2host msg.fromId (some fromHost) }
  else q

def isLocal (q : MessageQueue) (target : UInt64) : Bool :=
  target == q.hostId || q.id2host target == none || q.id2host target == some q.hostId

/-- `processMessages` for one message that is no `DISCONNECT`: what the handler gets. -/
def processMessage (q : MessageQueue) (fromHost : UInt64) (msg : Message) : Option Message :=
  if msg.msgtype = VastNet.disconnectType ∨ msg.fromId = netIdUnassigned then none
  else
    let targets := msg.targets.filter (q.learn fromHost msg).isLocal
    if targets = [] then none else some { msg with targets }

/-- Between two hosts a message has to fit its header. -/
def Carries (q : MessageQueue) (msg : Message) (host : UInt64) : Prop :=
  host = q.hostId ∨ msg.targets.length ≤ 255 ∧ msg.sizeOf < 2 ^ 22

theorem carries_iff {q : MessageQueue} {msg : Message} {host : UInt64} : q.Carries msg host ↔
    host = q.hostId ∨
      msg.targets.length ≤ 255 ∧ 18 + 8 * msg.targets.length + msg.data.length < 2 ^ 22 := Iff.rfl

def sent (q : MessageQueue) (msg : Message) : Message :=
  if msg.fromId = 0 then { msg with fromId := q.hostId } else msg

section Sent

variable (q : MessageQueue) (msg : Message)

theorem sent_eq : ∃ fromId, q.sent msg = { msg with fromId } ∧
    (msg.fromId ≠ 0 ∨ q.hostId ≠ 0 → fromId ≠ 0) := by
  rw [sent]
  split
  · rename_i hz
    exact ⟨q.hostId, rfl, fun h => h.resolve_left (fun hne => hne hz)⟩
  · rename_i hne
    exact ⟨msg.fromId, rfl, fun _ => hne⟩

@[simp] theorem targets_sent : (q.sent msg).targets = msg.targets := by
  obtain ⟨fromId, hs, -⟩ := q.sent_eq msg
  rw [hs]

@[simp] theorem data_sent : (q.sent msg).data = msg.data := by
  obtain ⟨fromId, hs, -⟩ := q.sent_eq msg
  rw [hs]

@[simp] theorem msgtype_sent : (q.sent msg).msgtype = msg.msgtype := by
  obtain ⟨fromId, hs, -⟩ := q.sent_eq msg
  rw [hs]

@[simp] theorem msggroup_sent : (q.sent msg).msggroup = msg.msggroup := by
  obtain ⟨fromId, hs, -⟩ := q.sent_eq msg
  rw [hs]

@[simp] theorem sizeOf_sent : (q.sent msg).sizeOf = msg.sizeOf := by
  rw [Message.sizeOf, Message.sizeOf, targets_sent, data_sent]

end Sent

theorem transmit_eq (q : MessageQueue) (msg : Message) (host : UInt64) : q.transmit msg host =
    if host = q.hostId then some (q.sent msg).resetCopy else (q.sent msg).received host := rfl

theorem transmit_carries {q : MessageQueue} {msg : Message} {host : UInt64}
    (h : q.Carries msg host) : ∃ r, q.transmit msg host = some r ∧ (q.sent msg).Arrives r := by
  rw [transmit_eq]
  by_cases hl : host = q.hostId
  · rw [if_pos hl]
    exact ⟨_, rfl, (q.sent msg).arrives_resetCopy⟩
  · obtain ⟨hcount, hsize⟩ := h.resolve_left hl
    rw [if_neg hl]
    exact Message.received_fits (by rwa [targets_sent]) (by rwa [sizeOf_sent]) host

/-- What is certain about a message that arrives, whether it fits or not. -/
structure Bounded (q : MessageQueue) (msg : Message) (host : UInt64) (r : Message) : Prop where
  curr : r.curr = 0
  targets : r.targets <+: msg.targets
  length_targets : host ≠ q.hostId → r.targets.length ≤ 255
  length_data : r.data.length ≤ msg.data.length
  cut : ¬ q.Carries msg host → msg.targets.length ≤ 255 → r.data.length < msg.data.length

theorem transmit_some {q : MessageQueue} {msg r : Message} {host : UInt64}
    (h : q.transmit msg host = some r) : q.Bounded msg host r := by
  rw [transmit_eq] at h
  by_cases hl : host = q.hostId
  · rw [if_pos hl, Option.some.injEq] at h
    have ht : r.targets = msg.targets := by rw [← h, ← q.targets_sent msg]; rfl
    have hd : r.data = msg.data := by rw [← h, ← q.data_sent msg]; rfl
    refine ⟨by rw [← h]; rfl, by rw [ht], fun hn => absurd hl hn, by rw [hd],
      fun hn => absurd (Or.inl hl) hn⟩
  · rw [if_neg hl] at h
    obtain ⟨hc, ht, hd, hlt⟩ := Message.received_some h
    rw [targets_sent] at ht hlt
    rw [data_sent] at hd hlt
    refine ⟨hc, ?_, fun _ => ?_, hd, fun hn hle => hlt hle ?_⟩
    · rw [ht]
      exact List.take_prefix _ _
    · rw [ht, List.length_take]
      exact Nat.le_trans (Nat.min_le_left _ _) (Nat.le_of_lt_succ (Nat.mod_lt _ (by decide)))
    · have hfit : ¬ msg.sizeOf < 2 ^ 22 := fun hsz => hn (Or.inr ⟨hle, hsz⟩)
      rw [sizeOf_sent]
      exact Nat.le_of_not_lt hfit

section Process

variable {q : MessageQueue} {fromHost target : UInt64} {msg r : Message}

theorem isLocal_learn (h : q.isLocal target = true) (hne : target = q.hostId ∨ target ≠ fromHost) :
    (q.learn fromHost msg).isLocal target = true := by
  rw [learn]
  split
  · rename_i hl
    rcases hne with rfl | hne
    · simp [isLocal]
    · simpa [isLocal, hl.2.2, Function.update_of_ne hne] using h
  · exact h

theorem processMessage_some (h : q.processMessage fromHost msg = some r) :
    r = { msg with targets := msg.targets.filter (q.learn fromHost msg).isLocal } ∧ r.targets ≠ [] := by
  rw [processMessage] at h
  split at h
  · cases h
  · dsimp only at h
    split at h
    · cases h
    · rename_i hne
      rw [← Option.some.inj h]
      exact ⟨rfl, hne⟩

theorem processMessage_local (htype : msg.msgtype ≠ VastNet.disconnectType) (hfrom : msg.fromId ≠ 0)
    (hmem : target ∈ msg.targets) (hl : (q.learn fromHost msg).isLocal target = true) :
    q.processMessage fromHost msg =
      some { msg with targets := msg.targets.filter (q.learn fromHost msg).isLocal } := by
  have hcond : ¬ (msg.msgtype = VastNet.disconnectType ∨ msg.fromId = netIdUnassigned) := by
    rintro (h | h)
    · exact htype h
    · exact hfrom h
  have hfilter : msg.targets.filter (q.learn fromHost msg).isLocal ≠ [] :=
    List.ne_nil_of_mem (List.mem_filter.mpr ⟨hmem, hl⟩)
  rw [processMessage, if_neg hcond]
  simp only [if_neg hfilter]

end Process

end MessageQueue

structure Network where
  queue : UInt64 → MessageQueue
  hostId : ∀ host, (queue host).hostId = host

namespace Network

open Message

def delivered (net : Network) (host : UInt64) (msg : Message) : List (UInt64 × Message) :=
  ((net.queue host).sendMessage msg).filterMap
    (fun e => ((net.queue e.1).processMessage host e.2).map (fun m => (e.1, m)))

def targetsAt (net : Network) (host : UInt64) (targets : List UInt64) (dest : UInt64) : List UInt64 :=
  targets.filter (fun t => (net.queue host).hostOf t == dest)

def deliveredTo (net : Network) (host : UInt64) (msg : Message) (dest : UInt64) : Option Message :=
  if net.targetsAt host msg.targets dest = [] then none
  else ((net.queue host).transmit { msg with targets := net.targetsAt host msg.targets dest } dest).bind
    ((net.queue dest).processMessage host)

variable {net : Network} {host dest : UInt64} {msg r : Message}

theorem delivered_eq (net : Network) (host : UInt64) (msg : Message) : net.delivered host msg =
    ((net.queue host).host2targets msg.targets).toList.filterMap
      (fun e => (net.deliveredTo host msg e.1).map (fun m => (e.1, m))) := by
  rw [delivered, MessageQueue.sendMessage, List.filterMap_filterMap]
  apply List.filterMap_congr
  rintro ⟨d, ts⟩ he
  obtain ⟨hne, hts⟩ := (Tables.mem_toList_groupBy _).mp he
  rw [hts] at hne
  rw [deliveredTo, targetsAt, if_neg hne, ← hts]
  cases (net.queue host).transmit { msg with targets := ts } d <;> rfl

theorem mem_delivered : (dest, r) ∈ net.delivered host msg ↔ net.deliveredTo host msg dest = some r := by
  rw [delivered_eq, List.mem_filterMap]
  constructor
  · rintro ⟨⟨d, ts⟩, -, h⟩
    obtain ⟨m, hm, he⟩ := Option.map_eq_some_iff.mp h
    rw [Prod.mk.injEq] at he
    rw [← he.1, ← he.2, hm]
  · intro h
    have hne : net.targetsAt host msg.targets dest ≠ [] := by
      intro he
      rw [deliveredTo, if_pos he] at h
      cases h
    exact ⟨(dest, net.targetsAt host msg.targets dest), (Tables.mem_toList_groupBy _).mpr ⟨hne, rfl⟩,
      by rw [h]; rfl⟩

theorem nodup_delivered (net : Network) (host : UInt64) (msg : Message) :
    ((net.delivered host msg).map Prod.fst).Nodup := by
  have hkeys := Tables.nodup_keys ((net.queue host).host2targets msg.targets)
  rw [List.Nodup, List.pairwise_map] at hkeys
  rw [delivered_eq, List.Nodup, List.pairwise_map, List.pairwise_filterMap]
  refine hkeys.imp fun hne a ha b hb he => hne ?_
  obtain ⟨_, -, rfl⟩ := Option.map_eq_some_iff.mp ha
  obtain ⟨_, -, rfl⟩ := Option.map_eq_some_iff.mp hb
  exact he

theorem filter_delivered (net : Network) (host : UInt64) (msg : Message) (dest : UInt64) :
    (net.delivered host msg).filter (fun e => e.1 == dest) =
      (net.deliveredTo host msg dest).toList.map (fun m => (dest, m)) := by
  cases h : net.deliveredTo host msg dest with
  | none =>
    rw [Option.toList_none, List.map_nil, List.filter_eq_nil_iff]
    rintro ⟨d, m⟩ hm hd
    rw [beq_iff_eq] at hd
    subst hd
    rw [mem_delivered, h] at hm
    cases hm
  | some m => exact Tables.filter_eq_singleton (net.nodup_delivered host msg) (mem_delivered.mpr h)

theorem deliveredTo_some (h : net.deliveredTo host msg dest = some r) :
    net.targetsAt host msg.targets dest ≠ [] ∧ ∃ m, (net.queue host).Bounded
        { msg with targets := net.targetsAt host msg.targets dest } dest m ∧ r.targets ≠ [] ∧
      r = { m with targets := m.targets.filter ((net.queue dest).learn host m).isLocal } := by
  rw [deliveredTo] at h
  split at h
  · cases h
  · rename_i hne
    obtain ⟨m, hm, hp⟩ := Option.bind_eq_some_iff.mp h
    obtain ⟨hr, hne'⟩ := MessageQueue.processMessage_some hp
    exact ⟨hne, m, MessageQueue.transmit_some hm, hne', hr⟩

theorem deliveredTo_bounds (h : net.deliveredTo host msg dest = some r) :
    r.curr = 0 ∧ r.data.length ≤ msg.data.length ∧
      (¬ (net.queue host).Carries { msg with targets := net.targetsAt host msg.targets dest } dest →
        (net.targetsAt host msg.targets dest).length ≤ 255 → r.data.length < msg.data.length) := by
  obtain ⟨-, m, hb, -, rfl⟩ := deliveredTo_some h
  exact ⟨hb.curr, hb.length_data, hb.cut⟩

/-- A message that arrives as it was sent, up to its targets. -/
structure Intact (msg r : Message) : Prop where
  curr : r.curr = 0
  fromId : r.fromId ≠ 0
  msgtype : r.msgtype = msg.msgtype
  msggroup : r.msggroup = msg.msggroup
  data : r.data = msg.data

/-- A target that stays local at `dest` when its queue has learnt the sender. -/
def Settled (net : Network) (host dest target : UInt64) : Prop :=
  target = dest ∨ target ≠ host ∧ (net.queue dest).isLocal target = true

theorem Settled.isLocal_learn {target : UInt64} (h : net.Settled host dest target) (m : Message) :
    ((net.queue dest).learn host m).isLocal target = true := by
  rcases h with rfl | ⟨hhost, hloc⟩
  · have hself : (net.queue target).isLocal target = true := by simp [MessageQueue.isLocal, net.hostId]
    exact MessageQueue.isLocal_learn hself (Or.inl (net.hostId target).symm)
  · exact MessageQueue.isLocal_learn hloc (Or.inr hhost)

theorem deliveredTo_carries {target : UInt64} (hfrom : msg.fromId ≠ 0 ∨ host ≠ 0)
    (htype : msg.msgtype ≠ VastNet.disconnectType) (hmem : target ∈ net.targetsAt host msg.targets dest)
    (hset : net.Settled host dest target)
    (hc : (net.queue host).Carries { msg with targets := net.targetsAt host msg.targets dest } dest) :
    ∃ r, net.deliveredTo host msg dest = some r ∧ Intact msg r ∧
      ((∀ t ∈ net.targetsAt host msg.targets dest, net.Settled host dest t) →
        r.targets = net.targetsAt host msg.targets dest) := by
  obtain ⟨r, hr, ha⟩ := MessageQueue.transmit_carries hc
  obtain ⟨hf, hty, hg, ht, hd⟩ := ha.fields
  obtain ⟨fromId, hs, hid⟩ := (net.queue host).sent_eq
    { msg with targets := net.targetsAt host msg.targets dest }
  rw [MessageQueue.targets_sent] at ht
  rw [MessageQueue.msgtype_sent] at hty
  rw [MessageQueue.msggroup_sent] at hg
  rw [MessageQueue.data_sent] at hd
  have hne : r.fromId ≠ 0 := by
    rw [hf, hs]
    exact hid (by rwa [net.hostId])
  have hprocess : (net.queue dest).processMessage host r = some _ :=
    MessageQueue.processMessage_local (by rwa [hty]) hne (by rwa [ht]) (hset.isLocal_learn r)
  refine ⟨{ r with targets := r.targets.filter ((net.queue dest).learn host r).isLocal }, ?_,
    ⟨ha.curr, hne, hty, hg, hd⟩, fun hall => ?_⟩
  · rw [deliveredTo, if_neg (List.ne_nil_of_mem hmem), hr, Option.bind_some, hprocess]
  · dsimp only
    rw [ht]
    exact List.filter_eq_self.mpr fun t hm => (hall t hm).isLocal_learn r

end Network

end VastNC
