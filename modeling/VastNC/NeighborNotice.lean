import VastNC.Extract
import VastNC.Subscription

/-! `VASTMatcher::notifyClients` and the client's handling of `NEIGHBOR`: the changes of a
subscription's neighbours as entries of different lengths, with their number in one byte at
the end of the message. -/

namespace VastNC

open Message

def NeighborUpdateStatus.code : NeighborUpdateStatus → UInt32
  | .inserted => 1
  | .deleted => 2
  | .unchanged => 3
  | .updated => 4

inductive NeighborChange where
  | inserted (id : UInt64) (node : Node)
  | deleted (id : UInt64)
  | unchanged (id : UInt64)
  | updated (id : UInt64) (aoi : Area) (time : UInt64)
  deriving DecidableEq

namespace NeighborChange

def id : NeighborChange → UInt64
  | .inserted id _ => id
  | .deleted id => id
  | .unchanged id => id
  | .updated id _ _ => id

def status : NeighborChange → NeighborUpdateStatus
  | .inserted _ _ => .inserted
  | .deleted _ => .deleted
  | .unchanged _ => .unchanged
  | .updated _ _ _ => .updated

def details : NeighborChange → List UInt8
  | .inserted _ node => Node.codec.encode node
  | .deleted _ => []
  | .unchanged _ => []
  | .updated _ aoi time => Area.codec.encode aoi ++ FixedCodec.u64.encode time

def encode (c : NeighborChange) : List UInt8 :=
  FixedCodec.u64.encode c.id ++ (FixedCodec.u32.encode c.status.code ++ c.details)

def store (m : Message) (c : NeighborChange) : Message :=
  let m := (m.putAs FixedCodec.u64 c.id).putAs FixedCodec.u32 c.status.code
  match c with
  | .inserted _ node => m.putAs Node.codec node
  | .deleted _ => m
  | .unchanged _ => m
  | .updated _ aoi time => (m.putAs Area.codec aoi).putAs FixedCodec.u64 time

/-- The entry for a status; an id without a subscription is reported as deleted. -/
def ofStatus (subs : Subscriptions) (id : UInt64) (status : NeighborUpdateStatus) : NeighborChange :=
  match status, subs.find id with
  | .deleted, _ => .deleted id
  | _, none => .deleted id
  | .inserted, some neighbor => .inserted id ⟨neighbor.id, neighbor.time, neighbor.aoi, neighbor.relay⟩
  | .updated, some neighbor => .updated id neighbor.aoi neighbor.time
  | .unchanged, some _ => .unchanged id

end NeighborChange

namespace Subscription

/-- The entries to be reported: an unchanged neighbour only when the subscription is dirty. -/
def reported (subs : Subscriptions) (s : Subscription) : List NeighborChange :=
  (s.neighborStates.toList.filter (fun e => !(e.2 == .unchanged && !s.dirty))).map
    (fun e => .ofStatus subs e.1 e.2)

/-- The message that `notifyClients` sends for one subscription it owns; `msg` is the message
of the turn before, and `listsize_t` counts modulo 256. -/
def neighborMessage (subs : Subscriptions) (s : Subscription) (msg : Message) : Option Message :=
  let listsize := UInt8.ofNat (s.reported subs).length
  let msg := (s.reported subs).foldl NeighborChange.store { msg.clear neighborType with priority := 1 }
  if listsize > 0 then some (msg.putAs FixedCodec.u8 listsize) else none

end Subscription

def updateFirst (id : UInt64) (f : Node → Node) : List Node → List Node
  | [] => []
  | n :: ns => if n.id = id then f n :: ns else n :: updateFirst id f ns

theorem map_id_updateFirst {id : UInt64} {f : Node → Node} (hf : ∀ n, n.id = id → (f n).id = id)
    (l : List Node) : (updateFirst id f l).map Node.id = l.map Node.id := by
  induction l with
  | nil => rfl
  | cons n ns ih =>
    by_cases h : n.id = id
    · rw [updateFirst, if_pos h, List.map_cons, List.map_cons, hf n h, h]
    · rw [updateFirst, if_neg h, List.map_cons, List.map_cons, ih]

/-- `VASTClient::_neighbors`: no id occurs twice. -/
structure NeighborList where
  nodes : List Node := []
  nodup : (nodes.map Node.id).Nodup := by simp

namespace NeighborList

def find (l : NeighborList) (id : UInt64) : Option Node := l.nodes.find? (fun n => n.id == id)

theorem find_eq_none {l : NeighborList} {id : UInt64} : l.find id = none ↔ id ∉ l.nodes.map Node.id := by
  simp [find]

def modify (l : NeighborList) (id : UInt64) (f : Node → Node) (hf : ∀ n, n.id = id → (f n).id = id) :
    NeighborList where
  nodes := updateFirst id f l.nodes
  nodup := by rw [map_id_updateFirst hf]; exact l.nodup

def push (l : NeighborList) (node : Node) (h : l.find node.id = none) : NeighborList where
  nodes := l.nodes ++ [node]
  nodup := by
    rw [List.map_append, List.nodup_append']
    refine ⟨l.nodup, List.nodup_singleton _, ?_⟩
    rw [List.map_singleton, List.disjoint_singleton]
    exact find_eq_none.mp h

def erase (l : NeighborList) (id : UInt64) : NeighborList where
  nodes := l.nodes.eraseP (fun n => n.id == id)
  nodup := l.nodup.sublist (List.eraseP_sublist.map Node.id)

theorem find_modify (l : NeighborList) (id : UInt64) (f : Node → Node)
    (hf : ∀ n, n.id = id → (f n).id = id) (k : UInt64) :
    (l.modify id f hf).find k = if id = k then (l.find id).map f else l.find k := by
  have hlist (ns : List Node) : (updateFirst id f ns).find? (fun n => n.id == k) =
      if id = k then (ns.find? (fun n => n.id == id)).map f else ns.find? (fun n => n.id == k) := by
    induction ns with
    | nil => simp [updateFirst]
    | cons n ns ih =>
      by_cases h : n.id = id
      · by_cases hk : id = k
        · simp [updateFirst, h, hk, hf n h]
        · simp [updateFirst, h, hk, hf n h]
      · by_cases hk : n.id = k
        · subst hk
          simp [updateFirst, h, Ne.symm h]
        · simp [updateFirst, h, hk, ih]
  exact hlist l.nodes

theorem find_push (l : NeighborList) (node : Node) (h : l.find node.id = none) (k : UInt64) :
    (l.push node h).find k = if node.id = k then some node else l.find k := by
  by_cases hk : node.id = k
  · subst hk
    rw [find, push, List.find?_append, show l.nodes.find? (fun n => n.id == node.id) = none from h]
    simp
  · rw [find, push, List.find?_append]
    simp [hk, find]

theorem find_erase (l : NeighborList) (id k : UInt64) :
    (l.erase id).find k = if id = k then none else l.find k := by
  have hlist (ns : List Node) (hnd : (ns.map Node.id).Nodup) :
      (ns.eraseP (fun n => n.id == id)).find? (fun n => n.id == k) =
        if id = k then none else ns.find? (fun n => n.id == k) := by
    induction ns with
    | nil => simp
    | cons n ns ih =>
      rw [List.map_cons, List.nodup_cons] at hnd
      by_cases h : n.id = id
      · subst h
        by_cases hk : n.id = k
        · subst hk
          simpa [List.eraseP_cons] using hnd.1
        · simp [hk]
      · by_cases hk : n.id = k
        · subst hk
          simp [h, Ne.symm h]
        · simp [h, hk, ih hnd.2]
  exact hlist l.nodes l.nodup

end NeighborList

/-- The part of `VASTClient` that `NEIGHBOR` changes. `latencies` are the send times given to
`recordLatency`, `requested` the neighbours asked for, and `applied` is a history. -/
structure ClientNeighbors where
  neighbors : NeighborList := {}
  lastUpdate : Std.ExtTreeMap UInt64 UInt64 := ∅
  latencies : List UInt64 := []
  requested : List UInt64 := []
  applied : List NeighborChange := []

namespace ClientNeighbors

def addNeighbor (c : ClientNeighbors) (node : Node) (now : UInt64) : ClientNeighbors :=
  { c with
    neighbors := if h : c.neighbors.find node.id = none then c.neighbors.push node h
      else c.neighbors.modify node.id (fun _ => node) (fun _ _ => rfl)
    lastUpdate := c.lastUpdate.insert node.id now }

def removeNeighbor (c : ClientNeighbors) (id : UInt64) : ClientNeighbors :=
  if c.neighbors.find id = none then c
  else { c with neighbors := c.neighbors.erase id, lastUpdate := c.lastUpdate.erase id }

def update (c : ClientNeighbors) (id : UInt64) (aoi : Area) (time now : UInt64) : ClientNeighbors :=
  let c := { c with latencies := c.latencies ++ [time] }
  if c.neighbors.find id = none then { c with requested := c.requested ++ [id] }
  else
    { c with
      neighbors := c.neighbors.modify id (fun n => { n with aoi, time }) (fun _ h => h)
      lastUpdate := c.lastUpdate.insert id now }

def change (now : UInt64) (c : ClientNeighbors) : NeighborChange → ClientNeighbors
  | .inserted _ node => c.addNeighbor node now
  | .deleted id => c.removeNeighbor id
  | .unchanged id => { c with lastUpdate := c.lastUpdate.insert id now }
  | .updated id aoi time => c.update id aoi time now

def apply (now : UInt64) (c : ClientNeighbors) (e : NeighborChange) : ClientNeighbors :=
  { c.change now e with applied := c.applied ++ [e] }

end ClientNeighbors

/-- One turn of the client's loop: what it extracts. `none` stands for an entry that is cut
short or whose status is no status, where the code goes on with the values of the turn before. -/
def readChange (m : Message) : Option (NeighborChange × Message) := do
  let (id, m) ← m.extractAs FixedCodec.u64
  let (status, m) ← m.extractAs FixedCodec.u32
  if status = NeighborUpdateStatus.inserted.code then
    let (node, m) ← m.extractAs Node.codec
    return (.inserted id node, m)
  else if status = NeighborUpdateStatus.deleted.code then return (.deleted id, m)
  else if status = NeighborUpdateStatus.unchanged.code then return (.unchanged id, m)
  else if status = NeighborUpdateStatus.updated.code then
    let (aoi, m) ← m.extractAs Area.codec
    let (time, m) ← m.extractAs FixedCodec.u64
    return (.updated id aoi time, m)
  else none

def readChanges (now : UInt64) : Nat → ClientNeighbors → Message → Option ClientNeighbors
  | 0, c, _ => some c
  | n + 1, c, m => do
    let (e, m) ← readChange m
    readChanges now n (c.apply now e) m

/-- `VASTClient::handleMessage` for `NEIGHBOR`. -/
def ClientNeighbors.handleNeighbor (now : UInt64) (c : ClientNeighbors) (m : Message) :
    Option ClientNeighbors := do
  let (size, m) ← m.extractAs FixedCodec.u8 true
  readChanges now size.toNat c m

namespace NeighborChange

variable {m : Message}

theorem alloc_store (h : m.alloc = true) (c : NeighborChange) : (store m c).alloc = true := by
  cases c with
  | inserted id node => exact alloc_put (alloc_put (alloc_put h _) _) _
  | deleted id => exact alloc_put (alloc_put h _) _
  | unchanged id => exact alloc_put (alloc_put h _) _
  | updated id aoi time => exact alloc_put (alloc_put (alloc_put (alloc_put h _) _) _) _

theorem data_store (h : m.alloc = true) (c : NeighborChange) : (store m c).data = m.data ++ c.encode := by
  have h₁ := alloc_put h (FixedCodec.u64.encode c.id)
  have h₂ := alloc_put h₁ (FixedCodec.u32.encode c.status.code)
  have hd := put_put h (FixedCodec.u64.encode c.id) (FixedCodec.u32.encode c.status.code)
  cases c with
  | inserted id node => simp [store, putAs, data_put h₂, encode, details, hd]
  | deleted id => simpa [store, putAs, encode, details] using hd
  | unchanged id => simpa [store, putAs, encode, details] using hd
  | updated id aoi time =>
    simp only [store, putAs, data_put (alloc_put h₂ (Area.codec.encode aoi)), data_put h₂, hd, encode,
      details, List.append_assoc]

theorem foldl_store (h : m.alloc = true) (l : List NeighborChange) :
    (l.foldl store m).alloc = true ∧ (l.foldl store m).data = m.data ++ l.flatMap encode := by
  induction l generalizing m with
  | nil => exact ⟨h, by simp⟩
  | cons c l ih =>
    obtain ⟨ha, hd⟩ := ih (alloc_store h c)
    refine ⟨ha, ?_⟩
    rw [List.foldl_cons, hd, data_store h, List.append_assoc, List.flatMap_cons]

end NeighborChange

section Read

variable {m : Message} {pre post : List UInt8}

theorem readChange_encode {e : NeighborChange} (h : m.At pre (e.encode ++ post)) :
    ∃ m' : Message, readChange m = some (e, m') ∧ m'.At (pre ++ e.encode) post := by
  rw [NeighborChange.encode, List.append_assoc, List.append_assoc] at h
  obtain ⟨m₁, h₁, ha₁⟩ := h.extractAs
  obtain ⟨m₂, h₂, ha₂⟩ := ha₁.extractAs
  have hread : readChange m = (match e with
      | .inserted id _ => (m₂.extractAs Node.codec).map (fun r => (NeighborChange.inserted id r.1, r.2))
      | .deleted id => some (.deleted id, m₂)
      | .unchanged id => some (.unchanged id, m₂)
      | .updated id _ _ => (m₂.extractAs Area.codec).bind (fun r => (r.2.extractAs FixedCodec.u64).map
          (fun t => (NeighborChange.updated id r.1 t.1, t.2)))) := by
    cases e <;> simp [readChange, h₁, h₂, NeighborChange.id, NeighborChange.status,
      NeighborUpdateStatus.code, Option.map_eq_bind]
  rw [NeighborChange.encode, hread]
  cases e with
  | inserted id node =>
    obtain ⟨m₃, h₃, ha₃⟩ := ha₂.extractAs
    exact ⟨m₃, by simp only [h₃, Option.map_some], by simpa [NeighborChange.details] using ha₃⟩
  | deleted id => exact ⟨m₂, rfl, by simpa [NeighborChange.details] using ha₂⟩
  | unchanged id => exact ⟨m₂, rfl, by simpa [NeighborChange.details] using ha₂⟩
  | updated id aoi time =>
    rw [NeighborChange.details, List.append_assoc (Area.codec.encode aoi)] at ha₂
    obtain ⟨m₃, h₃, ha₃⟩ := ha₂.extractAs
    obtain ⟨m₄, h₄, ha₄⟩ := ha₃.extractAs
    exact ⟨m₄, by simp only [h₃, Option.bind_some, h₄, Option.map_some],
      by simpa [NeighborChange.details] using ha₄⟩

theorem readChanges_flatMap (now : UInt64) (es : List NeighborChange) (c : ClientNeighbors)
    (h : m.At pre (es.flatMap NeighborChange.encode ++ post)) :
    readChanges now es.length c m = some (es.foldl (fun c e => c.apply now e) c) := by
  induction es generalizing m pre c with
  | nil => rfl
  | cons e es ih =>
    rw [List.flatMap_cons, List.append_assoc] at h
    obtain ⟨m', hr, ha⟩ := readChange_encode h
    rw [List.length_cons, readChanges, hr, Option.bind_eq_bind, Option.bind_some]
    exact ih (c.apply now e) ha

end Read

namespace Subscription

variable {subs : Subscriptions} {s : Subscription} {msg : Message}

def reportedCount (s : Subscription) : Nat :=
  s.neighborStates.toList.countP (fun e => !(e.2 == .unchanged && !s.dirty))

theorem length_reported (subs : Subscriptions) (s : Subscription) :
    (s.reported subs).length = s.reportedCount := by
  rw [reported, List.length_map, ← List.countP_eq_length_filter, reportedCount]

theorem neighborMessage_eq_none : s.neighborMessage subs msg = none ↔ s.reportedCount % 256 = 0 := by
  rw [neighborMessage]
  simp only [length_reported]
  by_cases h : s.reportedCount % 256 = 0
  · have hz : ¬ UInt8.ofNat s.reportedCount > 0 := by
      rw [gt_iff_lt, UInt8.lt_iff_toNat_lt, UInt8.toNat_ofNat', h]
      decide
    simp [hz, h]
  · have hp : UInt8.ofNat s.reportedCount > 0 := by
      rw [gt_iff_lt, UInt8.lt_iff_toNat_lt, UInt8.toNat_ofNat']
      exact Nat.pos_of_ne_zero h
    simp [hp, h]

theorem data_neighborMessage {sent : Message} (h : s.neighborMessage subs msg = some sent) :
    sent.data = (s.reported subs).flatMap NeighborChange.encode ++
      FixedCodec.u8.encode (UInt8.ofNat s.reportedCount) := by
  have halloc : ({ msg.clear neighborType with priority := 1 } : Message).alloc = true := rfl
  obtain ⟨ha, hd⟩ := NeighborChange.foldl_store halloc (s.reported subs)
  simp only [neighborMessage, length_reported, Option.ite_none_right_eq_some] at h
  obtain ⟨-, h⟩ := h
  rw [← Option.some.inj h, putAs, data_put ha, hd]
  rfl

theorem handle_neighborMessage {sent m : Message} (h : s.neighborMessage subs msg = some sent)
    (hd : m.data = sent.data) (hc : m.curr = 0) (now : UInt64) (c : ClientNeighbors) :
    c.handleNeighbor now m = some (((s.reported subs).take (s.reportedCount % 256)).foldl
      (fun c e => c.apply now e) c) := by
  have hdata := hd.trans (data_neighborMessage h)
  have hlen : ((s.reported subs).take (s.reportedCount % 256)).length = s.reportedCount % 256 := by
    rw [List.length_take, length_reported]
    exact Nat.min_eq_left (Nat.mod_le _ _)
  have hat : Message.At { m with data := (s.reported subs).flatMap NeighborChange.encode } []
      (((s.reported subs).take (s.reportedCount % 256)).flatMap NeighborChange.encode ++
        ((s.reported subs).drop (s.reportedCount % 256)).flatMap NeighborChange.encode) := by
    refine ⟨?_, hc⟩
    rw [← List.flatMap_append, List.take_append_drop, List.nil_append]
  have hread := readChanges_flatMap now _ c hat
  rw [hlen] at hread
  rw [ClientNeighbors.handleNeighbor, Message.extractAs_end hdata (by rw [hc]; exact Nat.zero_le _),
    Option.bind_eq_bind, Option.bind_some]
  simp only [UInt8.toNat_ofNat']
  exact hread

end Subscription

structure NeighborView where
  nodes : UInt64 → Option Node
  heard : UInt64 → Option UInt64

namespace NeighborView

def apply (now : UInt64) (w : NeighborView) : NeighborChange → NeighborView
  | .inserted _ node =>
    ⟨Function.update w.nodes node.id (some node), Function.update w.heard node.id (some now)⟩
  | .deleted id =>
    match w.nodes id with
    | some _ => ⟨Function.update w.nodes id none, Function.update w.heard id none⟩
    | none => w
  | .unchanged id => { w with heard := Function.update w.heard id (some now) }
  | .updated id aoi time =>
    match w.nodes id with
    | some n =>
      ⟨Function.update w.nodes id (some { n with aoi, time }), Function.update w.heard id (some now)⟩
    | none => w

end NeighborView

namespace ClientNeighbors

def view (c : ClientNeighbors) : NeighborView := ⟨c.neighbors.find, fun id => c.lastUpdate[id]?⟩

theorem heard_insert (m : Std.ExtTreeMap UInt64 UInt64) (id now : UInt64) :
    (fun k => (m.insert id now)[k]?) = Function.update (fun k => m[k]?) id (some now) := by
  funext k
  by_cases hk : id = k
  · simp [Function.update, hk]
  · simp [Std.ExtTreeMap.getElem?_insert, Function.update, hk, Ne.symm hk]

theorem heard_erase (m : Std.ExtTreeMap UInt64 UInt64) (id : UInt64) :
    (fun k => (m.erase id)[k]?) = Function.update (fun k => m[k]?) id none := by
  funext k
  by_cases hk : id = k
  · simp [Function.update, hk]
  · simp [Std.ExtTreeMap.getElem?_erase, Function.update, hk, Ne.symm hk]

theorem find_eq_update {l l' : NeighborList} {id : UInt64} {o : Option Node}
    (h : ∀ k, l'.find k = if id = k then o else l.find k) : l'.find = Function.update l.find id o := by
  funext k
  by_cases hk : id = k
  · simp [h, Function.update, hk]
  · simp [h, Function.update, hk, Ne.symm hk]

theorem view_addNeighbor (c : ClientNeighbors) (node : Node) (now : UInt64) :
    (c.addNeighbor node now).view = ⟨Function.update c.neighbors.find node.id (some node),
      Function.update (fun id => c.lastUpdate[id]?) node.id (some now)⟩ := by
  simp only [view, addNeighbor, heard_insert, NeighborView.mk.injEq, and_true]
  apply find_eq_update
  intro k
  by_cases h : c.neighbors.find node.id = none
  · rw [dif_pos h, NeighborList.find_push]
  · obtain ⟨n, hn⟩ := Option.ne_none_iff_exists'.mp h
    rw [dif_neg h, NeighborList.find_modify, hn, Option.map_some]

theorem view_apply (now : UInt64) (c : ClientNeighbors) (e : NeighborChange) :
    (c.apply now e).view = c.view.apply now e := by
  have happly : (c.apply now e).view = (c.change now e).view := rfl
  rw [happly]
  cases e with
  | inserted id node => exact view_addNeighbor c node now
  | deleted id =>
    simp only [change, removeNeighbor, NeighborView.apply, view]
    cases h : c.neighbors.find id with
    | none => simp
    | some n =>
      simp only [reduceCtorEq, if_false, heard_erase, NeighborView.mk.injEq, and_true]
      exact find_eq_update (c.neighbors.find_erase id)
  | unchanged id => simp only [change, view, NeighborView.apply, heard_insert]
  | updated id aoi time =>
    simp only [change, update, NeighborView.apply, view]
    cases h : c.neighbors.find id with
    | none => simp
    | some n =>
      simp only [reduceCtorEq, if_false, heard_insert, NeighborView.mk.injEq, and_true]
      apply find_eq_update
      intro k
      rw [NeighborList.find_modify, h, Option.map_some]

theorem view_foldl_apply (now : UInt64) (es : List NeighborChange) (c : ClientNeighbors) :
    (es.foldl (fun c e => c.apply now e) c).view = es.foldl (fun w e => w.apply now e) c.view := by
  induction es generalizing c with
  | nil => rfl
  | cons e es ih => rw [List.foldl_cons, List.foldl_cons, ih, view_apply]

theorem applied_foldl_apply (now : UInt64) (es : List NeighborChange) (c : ClientNeighbors) :
    (es.foldl (fun c e => c.apply now e) c).applied = c.applied ++ es := by
  induction es generalizing c with
  | nil => simp
  | cons e es ih => rw [List.foldl_cons, ih, apply, List.append_assoc, List.singleton_append]

end ClientNeighbors

/-- The notification of one subscription and its handling at the client: a message goes out
when there is something to report, and however it arrives with its cursor at the start, the
client applies the reported entries in their order. -/
structure NotifiedCompletely (subs : Subscriptions) (s : Subscription) (msg : Message) (now : UInt64)
    (c : ClientNeighbors) : Prop where
  sent : s.reported subs ≠ [] → (s.neighborMessage subs msg).isSome = true
  applied : ∀ sent m : Message, s.neighborMessage subs msg = some sent → m.data = sent.data → m.curr = 0 →
    ∃ c', c.handleNeighbor now m = some c' ∧ c'.applied = c.applied ++ s.reported subs ∧
      c'.view = (s.reported subs).foldl (fun w e => w.apply now e) c.view

/-- The client is told of every change exactly when at most 255 entries are to be reported. -/
theorem notifiedCompletely_iff (subs : Subscriptions) (s : Subscription) (msg : Message) (now : UInt64)
    (c : ClientNeighbors) : NotifiedCompletely subs s msg now c ↔ s.reportedCount ≤ 255 := by
  constructor
  · intro h
    by_contra hbig
    by_cases hz : s.reportedCount % 256 = 0
    · have hne : s.reported subs ≠ [] := by
        rw [ne_eq, ← List.length_eq_zero_iff, Subscription.length_reported]
        omega
      have hsome := h.sent hne
      rw [Subscription.neighborMessage_eq_none.mpr hz] at hsome
      cases hsome
    · obtain ⟨sent, hsent⟩ := Option.ne_none_iff_exists'.mp
        (fun hn : s.neighborMessage subs msg = none => hz (Subscription.neighborMessage_eq_none.mp hn))
      obtain ⟨c', hc', happ, -⟩ := h.applied sent sent.reset hsent rfl rfl
      rw [Subscription.handle_neighborMessage (m := sent.reset) hsent rfl rfl, Option.some.injEq] at hc'
      rw [← hc', ClientNeighbors.applied_foldl_apply] at happ
      have hlen := congrArg List.length (List.append_cancel_left happ)
      rw [List.length_take, Subscription.length_reported] at hlen
      omega
  · intro h
    have hmod : s.reportedCount % 256 = s.reportedCount := Nat.mod_eq_of_lt (by omega)
    refine ⟨fun hne => ?_, fun sent m hsent hd hc => ?_⟩
    · rw [Option.isSome_iff_ne_none, ne_eq, Subscription.neighborMessage_eq_none, hmod,
        ← Subscription.length_reported subs, List.length_eq_zero_iff]
      exact hne
    · refine ⟨_, Subscription.handle_neighborMessage hsent hd hc now c, ?_, ?_⟩
      · rw [ClientNeighbors.applied_foldl_apply, hmod, ← Subscription.length_reported subs, List.take_length]
      · rw [ClientNeighbors.view_foldl_apply, hmod, ← Subscription.length_reported subs, List.take_length]

def crowd : List Subscription := (List.range 256).map (fun i => { id := UInt64.ofNat (i + 1) })

def crowded : Subscription :=
  { id := 257, dirty := true
    neighborStates := Std.ExtTreeMap.ofList (crowd.map (fun s => (s.id, NeighborUpdateStatus.inserted))) }

theorem nodup_crowd : (crowd.map Subscription.id).Nodup := by
  rw [crowd, List.map_map]
  exact nodup_ofNat_range 1 (by decide)

theorem reportedCount_crowded : crowded.reportedCount = 256 := by
  have hsize : crowded.neighborStates.size = 256 := by
    rw [crowded, Std.ExtTreeMap.size_ofList, List.length_map, crowd, List.length_map, List.length_range]
    have h := nodup_crowd
    rw [List.Nodup, List.pairwise_map] at h
    rw [List.pairwise_map]
    exact h.imp (fun hne he => hne (Std.compare_eq_iff_eq.mp he))
  have hall : (fun e : UInt64 × NeighborUpdateStatus => !(e.2 == .unchanged && !crowded.dirty)) =
      fun _ => true := by
    funext e
    simp [crowded]
  rw [Subscription.reportedCount, hall, List.countP_true, Std.ExtTreeMap.length_toList, hsize]

theorem crowded_not_notified : (crowded.reported (.ofEntries crowd)).length = 256 ∧
    crowded.neighborMessage (.ofEntries crowd) { msgtype := neighborType } = none := by
  refine ⟨by rw [Subscription.length_reported, reportedCount_crowded], ?_⟩
  rw [Subscription.neighborMessage_eq_none, reportedCount_crowded]

end VastNC
