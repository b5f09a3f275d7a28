import VastNC.SendTargets
import VastNC.Subscription

/-! A publication on its way: `VASTClient::publish`, the matcher's `PUBLISH`, the relay's
forwarding and the subscriber's `MESSAGE`, with the network between them. -/

namespace VastNC

open Message

theorem unpack_packMsgtype {app : UInt16} (type : UInt16) (ha : app < 256) (ht : type < 256) :
    appMsgtype (packMsgtype app type) = app ∧ vastMsgtype (packMsgtype app type) = type := by
  have ha' : app.toNat < 256 := ha
  have ht' : type.toNat < 256 := ht
  have hshift : (8 : UInt16).toNat % 16 = 8 := rfl
  have hmask : (0xFF : UInt16).toNat = 2 ^ 8 - 1 := rfl
  have hleft : app.toNat <<< 8 % 2 ^ 16 = app.toNat <<< 8 := by
    rw [Nat.shiftLeft_eq]
    omega
  have hn : (packMsgtype app type).toNat = app.toNat * 256 + type.toNat := by
    rw [packMsgtype, UInt16.toNat_or, UInt16.toNat_shiftLeft, hshift, hleft,
      ← Nat.shiftLeft_add_eq_or_of_lt (by omega), Nat.shiftLeft_eq]
  constructor
  · rw [← UInt16.toNat_inj, appMsgtype, UInt16.toNat_shiftRight, hn, hshift, Nat.shiftRight_eq_div_pow]
    omega
  · rw [← UInt16.toNat_inj, vastMsgtype, UInt16.toNat_and, hn, Nat.and_comm, hmask,
      Nat.and_two_pow_sub_one_eq_mod]
    omega

theorem packMsgtype_ne {app type : UInt16} (ha : app < 256) (ht : type < 256) (hz : type ≠ 0) :
    packMsgtype app type ≠ VastNet.disconnectType := by
  intro h
  have hvast := (unpack_packMsgtype type ha ht).2
  rw [h] at hvast
  exact hz hvast.symm

section Posting

open Grouping

def allConnected : NetCalls Unit where
  validateConnection net _ := (net, true)
  sendMessage net _ msg _ := (net, msg)

namespace MessageQueue

variable {q : MessageQueue} {st : Statics} {msg : Message}

/-- `sendMessage` with its static variables; all connections are there. -/
def sendCounted (q : MessageQueue) (st : Statics) (msg : Message) : List (UInt64 × Message) :=
  let (s, discarded) := loop allConnected q msg msg.targets { net := (), statics := st }
  if discarded then []
  else s.host2targets.toList.filterMap
    (fun e => (q.transmit { msg with targets := e.2 } e.1).map (fun m => (e.1, m)))

/-- The targets without a host of their own do not bring the counter to ten. -/
def Keeps (q : MessageQueue) (st : Statics) (msg : Message) : Prop :=
  q.unresolved msg.targets = 0 ∨ st.due msg + q.unresolved msg.targets ≤ 10

instance (q : MessageQueue) (st : Statics) (msg : Message) : Decidable (q.Keeps st msg) :=
  inferInstanceAs (Decidable (_ ∨ _))

theorem host2targets_place (s : Grouping Unit) (target host : UInt64) :
    (s.place allConnected target host).host2targets =
      s.host2targets.insert host (s.host2targets[host]?.getD [] ++ [target]) := rfl

theorem host2targets_loop (targets : List UInt64) (s : Grouping Unit)
    (h : (loop allConnected q msg targets s).2 = false) :
    (loop allConnected q msg targets s).1.host2targets = targets.foldl
      (fun t x => t.insert (q.hostOf x) (t[q.hostOf x]?.getD [] ++ [x])) s.host2targets := by
  induction targets generalizing s with
  | nil => rfl
  | cons target targets ih =>
    cases hhost : q.id2host target with
    | some host =>
      rw [loop_cons_host hhost] at h ⊢
      rw [ih _ h, host2targets_place, List.foldl_cons]
    | none =>
      by_cases hdue : s.statics.due msg < 10
      · rw [loop_cons_default hhost hdue] at h ⊢
        rw [ih _ h, host2targets_place, List.foldl_cons]
      · rw [(loop_cons_discard hhost (Nat.le_of_not_lt hdue) targets).1] at h
        cases h

theorem sendCounted_eq (q : MessageQueue) (st : Statics) (msg : Message) :
    q.sendCounted st msg = if q.Keeps st msg then q.sendMessage msg else [] := by
  have hstart : Splits q ({ net := (), statics := st } : Grouping Unit) [] [] := splits_start
  have hs := @loop_splits Unit allConnected q _ _ msg msg.targets _ hstart
  by_cases hk : q.Keeps st msg
  · have hfalse := (hs.1 hk).1
    simp only [sendCounted, hfalse, host2targets_loop _ _ hfalse, if_pos hk]
    rfl
  · have htrue := (hs.2 hk).1
    simp only [sendCounted, htrue, if_neg hk, if_true]

theorem keeps_of_hosts (h : ∀ t ∈ msg.targets, ∃ host, q.id2host t = some host) : q.Keeps st msg := by
  refine .inl (List.countP_eq_zero.mpr fun t ht => ?_)
  obtain ⟨host, hh⟩ := h t ht
  simp [hh]

theorem hostOf_of_some {t host : UInt64} (h : q.id2host t = some host) : q.hostOf t = host := by
  rw [hostOf, h, Option.getD_some]

end MessageQueue

namespace Network

variable {net : Network} {host dest : UInt64} {st : Statics} {msg r : Message}

def posted (net : Network) (host : UInt64) (st : Statics) (msg : Message) : List (UInt64 × Message) :=
  ((net.queue host).sendCounted st msg).filterMap
    (fun e => ((net.queue e.1).processMessage host e.2).map (fun m => (e.1, m)))

def postedTo (net : Network) (host : UInt64) (st : Statics) (msg : Message) (dest : UInt64) :
    Option Message :=
  if (net.queue host).Keeps st msg then net.deliveredTo host msg dest else none

theorem postedTo_some (h : net.postedTo host st msg dest = some r) :
    (net.queue host).Keeps st msg ∧ net.deliveredTo host msg dest = some r := by
  rw [postedTo] at h
  split at h
  · exact ⟨‹_›, h⟩
  · cases h

theorem posted_eq (net : Network) (host : UInt64) (st : Statics) (msg : Message) :
    net.posted host st msg = if (net.queue host).Keeps st msg then net.delivered host msg else [] := by
  rw [posted, MessageQueue.sendCounted_eq]
  split <;> rfl

theorem mem_posted : (dest, r) ∈ net.posted host st msg ↔ net.postedTo host st msg dest = some r := by
  rw [posted_eq, postedTo]
  split
  · exact mem_delivered
  · simp

theorem filter_posted (net : Network) (host : UInt64) (st : Statics) (msg : Message) (dest : UInt64) :
    (net.posted host st msg).filter (fun e => e.1 == dest) =
      (net.postedTo host st msg dest).toList.map (fun m => (dest, m)) := by
  rw [posted_eq, postedTo]
  split
  · exact net.filter_delivered host msg dest
  · rfl

end Network

end Posting

/-- A message as an application makes it for `publish`: in a buffer of its own. -/
structure AppMessage where
  msg : Message
  alloc : msg.alloc = true
  small : msg.msgtype < 256

/-- `VASTClient::publish` and `sendMatcherMessage`. -/
def AppMessage.publish (app : AppMessage) (now : UInt64) (area : Area) (layer : UInt16)
    (matcher : UInt64) : Message :=
  let msg := { app.msg with
    msgtype := packMsgtype app.msg.msgtype publishType, capacity := app.msg.data.length + app.msg.free }
  let msg := ((msg.putAs FixedCodec.u64 now).putAs Area.codec area).putAs FixedCodec.u16 layer
  { msg with priority := 1, msggroup := groupMatcher }.addTarget matcher

/-- The relay's default case: targets are translated to the hosts of their clients, those that
are not known yet are left to `_queue`. -/
def forwardMessage (sub2client : UInt64 → Option UInt64) (self : UInt64) (m : Message) : Option Message :=
  if m.msggroup = groupRelay ∧ vastMsgtype m.msgtype = messageType then
    let clients := m.targets.filterMap
      (fun t => (sub2client t).or (if t = self then some t else none))
    if clients = [] then none
    else some { m with
      msgtype := packMsgtype (appMsgtype m.msgtype) messageType, targets := clients
      msggroup := groupClient }
  else none

def clientMessage (m : Message) : Option Message :=
  if m.msggroup = groupClient ∧ vastMsgtype m.msgtype = messageType then
    let m := { m with msgtype := appMsgtype m.msgtype }
    some (((m.extractAs FixedCodec.u64 true).map Prod.snd).getD m).reset
  else none

/-- Who takes part in a publication, all of them joined, with one matcher, and the tables that
joining and subscribing have set up: the publisher knows the matcher's host, the matcher routes
a subscription to its relay, the relay knows the client behind it and its host, and no two
subscriptions have the same client. `overlaps` is `Area::overlaps`, a comparison of floats. -/
structure Overlay where
  net : Network
  statics : UInt64 → Statics
  overlaps : Area → Position → Bool
  publisher : UInt64
  matcher : UInt64
  subs : Subscriptions
  sub2client : UInt64 → UInt64 → Option UInt64
  publisher_ne : publisher ≠ 0
  to_matcher : (net.queue publisher).id2host matcher = some matcher
  to_relay : ∀ s ∈ subs.entries, (net.queue matcher).id2host s.id = some s.relay.hostId
  at_relay : ∀ s ∈ subs.entries, (net.queue s.relay.hostId).isLocal s.id = true
  known : ∀ s ∈ subs.entries, sub2client s.relay.hostId s.id = some s.hostId
  to_client : ∀ s ∈ subs.entries, (net.queue s.relay.hostId).id2host s.hostId = some s.hostId
  ids_ne : ∀ s ∈ subs.entries, s.id ≠ matcher
  clients : (subs.entries.map Subscription.hostId).Nodup

namespace Overlay

def covers (o : Overlay) (area : Area) (layer : UInt16) (s : Subscription) : Bool :=
  layer == s.layer && o.overlaps s.aoi area.center

/-- The matcher's `PUBLISH`. `none` stands for a message that reaches nobody, and for one too
short to hold a layer. -/
def handlePublish (o : Overlay) (m : Message) : Option Message :=
  if m.msggroup = groupMatcher ∧ vastMsgtype m.msgtype = publishType then do
    let m := { m with msgtype := packMsgtype (appMsgtype m.msgtype) messageType }
    let (layer, m) ← m.extractAs FixedCodec.u16 true
    let (area, m) := (m.extractAs Area.codec true).getD (({} : Area), m)
    let m := { m.reset with targets := [] }
    let m := o.subs.entries.foldl (fun (m : Message) s => if o.covers area layer s then m.addTarget s.id else m) m
    if m.targets = [] then none else some { m with msggroup := groupRelay }
  else none

def hop (o : Overlay) (handle : UInt64 → Message → Option Message) (l : List (UInt64 × Message)) :
    List (UInt64 × Message) :=
  l.flatMap (fun e => (handle e.1 e.2).toList.flatMap (o.net.posted e.1 (o.statics e.1)))

def toRelays (o : Overlay) (app : AppMessage) (now : UInt64) (area : Area) (layer : UInt16) :
    List (UInt64 × Message) :=
  o.hop (fun host m => if host = o.matcher then o.handlePublish m else none)
    (o.net.posted o.publisher (o.statics o.publisher) (app.publish now area layer o.matcher))

def toClients (o : Overlay) (app : AppMessage) (now : UInt64) (area : Area) (layer : UInt16) :
    List (UInt64 × Message) :=
  o.hop (fun host m => forwardMessage (o.sub2client host) host m) (o.toRelays app now area layer)

def stored (o : Overlay) (app : AppMessage) (now : UInt64) (area : Area) (layer : UInt16)
    (host : UInt64) : List Message :=
  ((o.toClients app now area layer).filter (fun e => e.1 == host)).filterMap (fun e => clientMessage e.2)

def covered (o : Overlay) (area : Area) (layer : UInt16) : List Subscription :=
  o.subs.entries.filter (o.covers area layer)

def behind (o : Overlay) (area : Area) (layer : UInt16) (relay : UInt64) : List Subscription :=
  (o.covered area layer).filter (fun s => s.relay.hostId == relay)

/-- The targets that the publication takes along to the matcher's host: the matcher, and what
the application's message already had for that host. -/
def addressed (o : Overlay) (app : AppMessage) : List UInt64 :=
  o.net.targetsAt o.publisher (app.msg.addTarget o.matcher).targets o.matcher

/-- The publisher sends the message, and at each step between two hosts it fits its header. -/
structure Fits (o : Overlay) (app : AppMessage) (now : UInt64) (area : Area) (layer : UInt16)
    (s : Subscription) : Prop where
  sent : (o.net.queue o.publisher).Keeps (o.statics o.publisher) (app.publish now area layer o.matcher)
  published : o.matcher = o.publisher ∨ (o.addressed app).length ≤ 255 ∧
    18 + 8 * (o.addressed app).length + (app.msg.data.length + 26) < 2 ^ 22
  matched : s.relay.hostId = o.matcher ∨ (o.behind area layer s.relay.hostId).length ≤ 255 ∧
    18 + 8 * (o.behind area layer s.relay.hostId).length + (app.msg.data.length + 8) < 2 ^ 22
  forwarded : s.hostId = s.relay.hostId ∨ 18 + 8 * 1 + (app.msg.data.length + 8) < 2 ^ 22

end Overlay

section Handlers

variable {m r : Message} {t : UInt16}

theorem put_three (h : m.alloc = true) (x y z : List UInt8) : ∃ curr free capacity,
    ((m.put x).put y).put z = { m with data := m.data ++ x ++ y ++ z, curr, free, capacity } := by
  obtain ⟨f₁, c₁, h₁⟩ := put_eq h x
  obtain ⟨f₂, c₂, h₂⟩ := put_eq (alloc_put h x) y
  obtain ⟨f₃, c₃, h₃⟩ := put_eq (alloc_put (alloc_put h x) y) z
  rw [h₃, h₂, h₁]
  exact ⟨_, _, _, rfl⟩

theorem publish_fields (app : AppMessage) (now : UInt64) (area : Area) (layer : UInt16)
    (matcher : UInt64) :
      (app.publish now area layer matcher).targets = (app.msg.addTarget matcher).targets ∧
      (app.publish now area layer matcher).msgtype = packMsgtype app.msg.msgtype publishType ∧
      (app.publish now area layer matcher).msggroup = groupMatcher ∧
      (app.publish now area layer matcher).data = app.msg.data ++ FixedCodec.u64.encode now ++
        Area.codec.encode area ++ FixedCodec.u16.encode layer := by
  obtain ⟨curr, free, capacity, h⟩ := put_three (m := { app.msg with
    msgtype := packMsgtype app.msg.msgtype publishType
    capacity := app.msg.data.length + app.msg.free }) app.alloc (FixedCodec.u64.encode now)
    (Area.codec.encode area) (FixedCodec.u16.encode layer)
  simp only [AppMessage.publish, putAs]
  rw [h]
  by_cases hm : matcher ∈ app.msg.targets
  · simp [addTarget, hm]
  · simp [addTarget, hm]

theorem foldl_addTarget {p : Subscription → Bool} {l : List Subscription}
    (hl : (l.map Subscription.id).Nodup) (m : Message) (hd : ∀ s ∈ l, s.id ∉ m.targets) :
    l.foldl (fun m s => if p s then m.addTarget s.id else m) m =
      { m with targets := m.targets ++ (l.filter p).map Subscription.id } := by
  induction l generalizing m with
  | nil => simp
  | cons s l ih =>
    rw [List.map_cons, List.nodup_cons] at hl
    rw [List.foldl_cons]
    by_cases hp : p s = true
    · have hnew : m.addTarget s.id = { m with targets := m.targets ++ [s.id] } := by
        rw [addTarget, if_neg (hd s List.mem_cons_self)]
      rw [if_pos hp, hnew, ih hl.2]
      · simp [hp]
      · intro u hu hmem
        rcases List.mem_append.mp hmem with hmem | hmem
        · exact hd u (List.mem_cons_of_mem _ hu) hmem
        · exact hl.1 (List.mem_map.mpr ⟨u, hu, List.mem_singleton.mp hmem⟩)
    · rw [if_neg hp, ih hl.2 m (fun u hu => hd u (List.mem_cons_of_mem _ hu))]
      simp [hp]

theorem handlePublish_eq (o : Overlay) {body : List UInt8} {area : Area} {layer : UInt16} (ht : t < 256)
    (hg : m.msggroup = groupMatcher) (hty : m.msgtype = packMsgtype t publishType)
    (hd : m.data = body ++ Area.codec.encode area ++ FixedCodec.u16.encode layer) (hc : m.curr = 0) :
    o.handlePublish m = if o.covered area layer = [] then none
      else some { m with
        msgtype := packMsgtype t messageType, data := body, curr := 0, msggroup := groupRelay
        targets := (o.covered area layer).map Subscription.id } := by
  obtain ⟨happ, hvast⟩ := unpack_packMsgtype publishType ht (by decide)
  rw [← hty] at happ hvast
  have hlayer := extractAs_end (m := { m with msgtype := packMsgtype t messageType }) hd
    (by rw [hc]; exact Nat.zero_le _)
  have harea := extractAs_end (m := { m with
    msgtype := packMsgtype t messageType, data := body ++ Area.codec.encode area }) rfl
    (by rw [hc]; exact Nat.zero_le _)
  have hfold := foldl_addTarget (p := o.covers area layer) o.subs.nodup_ids { m with
    msgtype := packMsgtype t messageType, data := body, curr := 0, targets := [] } (by simp)
  rw [Overlay.handlePublish, if_pos ⟨hg, hvast⟩, happ]
  simp only [hlayer, Option.bind_eq_bind, Option.bind_some, harea, Option.getD_some, reset, hfold]
  by_cases hz : o.covered area layer = []
  · have hz' : o.subs.entries.filter (o.covers area layer) = [] := hz
    simp [hz, hz']
  · have hz' : o.subs.entries.filter (o.covers area layer) ≠ [] := hz
    simp [hz', Overlay.covered]

theorem extractAs_end_some {α : Type} {c : FixedCodec α} {a : α}
    (h : m.extractAs c true = some (a, r)) : r.curr = m.curr ∧ r.data.length + c.size ≤ m.data.length := by
  rw [extractAs, extract] at h
  split at h
  · cases h
  · rename_i hle
    rw [if_pos rfl, Option.map_some, Option.some.injEq, Prod.mk.injEq] at h
    refine ⟨by rw [← h.2], ?_⟩
    rw [← h.2, List.length_take]
    omega

theorem forwardMessage_some {sub2client : UInt64 → Option UInt64} {self : UInt64}
    (h : forwardMessage sub2client self m = some r) : r.targets = m.targets.filterMap
        (fun t => (sub2client t).or (if t = self then some t else none)) ∧ r.data = m.data := by
  rw [forwardMessage] at h
  split at h
  · dsimp only at h
    split at h
    · cases h
    · rw [← Option.some.inj h]
      exact ⟨rfl, rfl⟩
  · cases h

theorem extractAs_end_none {α : Type} {c : FixedCodec α} (hc : m.curr = 0)
    (h : m.extractAs c true = none) : m.data.length < c.size := by
  rw [extractAs, Option.map_eq_none_iff, extract, hc] at h
  split at h
  · omega
  · rw [if_pos rfl] at h
    cases h

theorem length_clientMessage (hc : m.curr = 0) (h : clientMessage m = some r) :
    r.data.length + 8 ≤ m.data.length ∨ r.data.length < 8 := by
  rw [clientMessage] at h
  split at h
  · have hr := Option.some.inj h
    subst hr
    cases he : Message.extractAs { m with msgtype := appMsgtype m.msgtype } FixedCodec.u64 true with
    | none => exact .inr (extractAs_end_none (m := { m with msgtype := appMsgtype m.msgtype }) hc he)
    | some e => exact .inl (extractAs_end_some he).2
  · cases h

theorem clientMessage_eq {body : List UInt8} {now : UInt64} (ht : t < 256)
    (hg : m.msggroup = groupClient) (hty : m.msgtype = packMsgtype t messageType)
    (hd : m.data = body ++ FixedCodec.u64.encode now) (hc : m.curr = 0) :
    clientMessage m = some { m with msgtype := t, data := body, curr := 0 } := by
  obtain ⟨happ, hvast⟩ := unpack_packMsgtype messageType ht (by decide)
  rw [← hty] at happ hvast
  have he := extractAs_end (m := { m with msgtype := t }) hd (by rw [hc]; exact Nat.zero_le _)
  rw [clientMessage, if_pos ⟨hg, hvast⟩, happ]
  simp only [he, Option.map_some, Option.getD_some, reset]

theorem length_handlePublish {o : Overlay} (hc : m.curr = 0) (h : o.handlePublish m = some r) :
    r.data.length + 18 ≤ m.data.length ∨ r.data.length < 16 := by
  rw [Overlay.handlePublish] at h
  split at h
  · obtain ⟨⟨layer, m₁⟩, h₁, h⟩ := Option.bind_eq_some_iff.mp h
    obtain ⟨hc₁, hl₁⟩ := extractAs_end_some h₁
    dsimp only at h
    split at h
    · cases h
    · have hr := Option.some.inj h
      rw [foldl_addTarget o.subs.nodup_ids _ (by simp)] at hr
      cases h₂ : m₁.extractAs Area.codec true with
      | none =>
        right
        rw [← hr, h₂]
        exact extractAs_end_none (hc₁.trans hc) h₂
      | some e =>
        have hl₂ := (extractAs_end_some h₂).2
        have hsum : e.2.data.length + 18 ≤ m.data.length :=
          Nat.le_trans (Nat.add_le_add_right hl₂ 2) hl₁
        left
        rw [← hr, h₂]
        exact hsum
  · cases h

end Handlers

namespace Overlay

variable {o : Overlay} {app : AppMessage} {now : UInt64} {area : Area} {layer : UInt16}

def relayed (o : Overlay) (host : UInt64) (e : UInt64 × Message) : Option Message :=
  ((forwardMessage (o.sub2client e.1) e.1 e.2).bind
    (fun m => o.net.postedTo e.1 (o.statics e.1) m host)).bind clientMessage

theorem stored_eq (o : Overlay) (app : AppMessage) (now : UInt64) (area : Area) (layer : UInt16)
    (host : UInt64) : o.stored app now area layer host =
      (o.toRelays app now area layer).flatMap (fun e => (o.relayed host e).toList) := by
  rw [stored, toClients, hop, List.filter_flatMap, List.filterMap_flatMap]
  congr 1
  funext e
  rw [relayed]
  cases forwardMessage (o.sub2client e.1) e.1 e.2 with
  | none => rfl
  | some m =>
    rw [Option.toList_some, List.flatMap_singleton, o.net.filter_posted, Option.bind_some]
    cases o.net.postedTo e.1 (o.statics e.1) m host with
    | none => rfl
    | some m' =>
      cases h : clientMessage m' <;> simp [h]

theorem targetsAt_publish (o : Overlay) (app : AppMessage) (now : UInt64) (area : Area) (layer : UInt16) :
    o.net.targetsAt o.publisher (app.publish now area layer o.matcher).targets o.matcher =
      o.addressed app := by
  rw [(publish_fields app now area layer o.matcher).1, addressed]

theorem mem_addressed (o : Overlay) (app : AppMessage) : o.matcher ∈ o.addressed app := by
  have hmem : o.matcher ∈ (app.msg.addTarget o.matcher).targets := by
    by_cases hm : o.matcher ∈ app.msg.targets
    · simp [addTarget, hm]
    · simp [addTarget, hm]
  exact List.mem_filter.mpr ⟨hmem, beq_iff_eq.mpr (MessageQueue.hostOf_of_some o.to_matcher)⟩

def matched (o : Overlay) (app : AppMessage) (now : UInt64) (area : Area) (layer : UInt16) :
    Option Message :=
  (o.net.postedTo o.publisher (o.statics o.publisher) (app.publish now area layer o.matcher)
    o.matcher).bind o.handlePublish

theorem flatMap_filter_key {α β γ : Type} [DecidableEq α] {l : List (α × β)} {f : α × β → List γ} {a : α}
    (h : ∀ e ∈ l, e.1 ≠ a → f e = []) : l.flatMap f = (l.filter (fun e => e.1 == a)).flatMap f := by
  induction l with
  | nil => rfl
  | cons e l ih =>
    have ih := ih (fun x hx => h x (List.mem_cons_of_mem _ hx))
    by_cases he : e.1 = a
    · rw [List.filter_cons, if_pos (beq_iff_eq.mpr he), List.flatMap_cons, List.flatMap_cons, ih]
    · rw [List.filter_cons, if_neg (by simpa using he), List.flatMap_cons, h e List.mem_cons_self he,
        List.nil_append, ih]

theorem toRelays_eq (o : Overlay) (app : AppMessage) (now : UInt64) (area : Area) (layer : UInt16) :
    o.toRelays app now area layer =
      (o.matched app now area layer).toList.flatMap (o.net.posted o.matcher (o.statics o.matcher)) := by
  rw [toRelays, hop, flatMap_filter_key (a := o.matcher) (fun e _ hne => by rw [if_neg hne]; rfl),
    o.net.filter_posted, matched]
  cases o.net.postedTo o.publisher (o.statics o.publisher) (app.publish now area layer o.matcher)
    o.matcher with
  | none => rfl
  | some m => simp

theorem mem_behind {relay : UInt64} {s : Subscription} : s ∈ o.behind area layer relay ↔
    s ∈ o.covered area layer ∧ s.relay.hostId = relay := by
  rw [behind, List.mem_filter, beq_iff_eq]

theorem entries_of_covered {s : Subscription} (h : s ∈ o.covered area layer) : s ∈ o.subs.entries :=
  (List.mem_filter.mp h).1

theorem targetsAt_covered (o : Overlay) (area : Area) (layer : UInt16) (relay : UInt64) :
    o.net.targetsAt o.matcher ((o.covered area layer).map Subscription.id) relay =
      (o.behind area layer relay).map Subscription.id := by
  rw [Network.targetsAt, List.filter_map, behind]
  congr 1
  apply List.filter_congr
  intro s hs
  rw [Function.comp_apply, MessageQueue.hostOf_of_some (o.to_relay s (entries_of_covered hs))]

theorem settled_behind {relay : UInt64} {s : Subscription} (h : s ∈ o.behind area layer relay) :
    o.net.Settled o.matcher relay s.id := by
  obtain ⟨hs, hr⟩ := mem_behind.mp h
  have he := entries_of_covered hs
  rw [← hr]
  exact .inr ⟨o.ids_ne s he, o.at_relay s he⟩

theorem map_prefix {α β : Type} {f : α → β} {l : List α} {p : List β} (h : p <+: l.map f) :
    ∃ q, q <+: l ∧ p = q.map f := by
  refine ⟨l.take p.length, List.take_prefix _ _, ?_⟩
  rw [List.map_take]
  exact List.prefix_iff_eq_take.mp h

theorem delivered_relay {relay : UInt64} {m r : Message}
    (ht : m.targets = (o.covered area layer).map Subscription.id)
    (h : o.net.postedTo o.matcher (o.statics o.matcher) m relay = some r) :
    ∃ us, us <+: o.behind area layer relay ∧ r.targets = us.map Subscription.id ∧
      (o.net.queue o.matcher).Bounded
        { m with targets := (o.behind area layer relay).map Subscription.id } relay r := by
  obtain ⟨-, m', hb, -, hr⟩ := Network.deliveredTo_some (Network.postedTo_some h).2
  rw [ht, targetsAt_covered] at hb
  obtain ⟨us, hus, he⟩ := map_prefix hb.targets
  have hfilter : m'.targets.filter ((o.net.queue relay).learn o.matcher m').isLocal = m'.targets := by
    rw [List.filter_eq_self, he]
    intro t hmem
    obtain ⟨s, hs, rfl⟩ := List.mem_map.mp hmem
    exact (settled_behind (hus.subset hs)).isLocal_learn m'
  rw [hfilter] at hr
  subst hr
  exact ⟨us, hus, he, hb.1, hb.2, hb.3, hb.4, hb.5⟩

theorem nodup_behind (o : Overlay) (area : Area) (layer : UInt16) (relay : UInt64) :
    ((o.behind area layer relay).map Subscription.hostId).Nodup :=
  o.clients.sublist ((List.filter_sublist.trans List.filter_sublist).map _)

theorem eq_of_hostId {s u : Subscription} (hs : s ∈ o.subs.entries) (hu : u ∈ o.subs.entries)
    (h : u.hostId = s.hostId) : u = s := List.inj_on_of_nodup_map o.clients hu hs h

theorem forward_behind {relay : UInt64} {us : List Subscription} {m r : Message}
    (hus : us <+: o.behind area layer relay) (ht : m.targets = us.map Subscription.id)
    (h : forwardMessage (o.sub2client relay) relay m = some r) :
    r.targets = us.map Subscription.hostId ∧ r.data = m.data := by
  obtain ⟨hr, hd⟩ := forwardMessage_some h
  refine ⟨?_, hd⟩
  rw [hr, ht, List.filterMap_map, List.filterMap_eq_map_iff_forall_eq_some]
  intro s hs
  obtain ⟨hc, hrelay⟩ := mem_behind.mp (hus.subset hs)
  rw [Function.comp_apply, ← hrelay, o.known s (entries_of_covered hc)]
  rfl

theorem targetsAt_clients {relay : UInt64} {us : List Subscription}
    (hus : us <+: o.behind area layer relay) (host : UInt64) :
    o.net.targetsAt relay (us.map Subscription.hostId) host =
      (us.filter (fun u => u.hostId == host)).map Subscription.hostId := by
  rw [Network.targetsAt, List.filter_map]
  congr 1
  apply List.filter_congr
  intro s hs
  obtain ⟨hc, hrelay⟩ := mem_behind.mp (hus.subset hs)
  rw [Function.comp_apply, ← hrelay,
    MessageQueue.hostOf_of_some (o.to_client s (entries_of_covered hc))]

theorem length_relayed {host relay : UInt64} {m x : Message}
    (h : o.relayed host (relay, m) = some x) :
    x.data.length + 8 ≤ m.data.length ∨ x.data.length < 8 := by
  obtain ⟨r, hr, hx⟩ := Option.bind_eq_some_iff.mp h
  obtain ⟨f, hf, hr⟩ := Option.bind_eq_some_iff.mp hr
  obtain ⟨hc, hle, -⟩ := Network.deliveredTo_bounds (Network.postedTo_some hr).2
  rw [(forwardMessage_some hf).2] at hle
  exact (length_clientMessage hc hx).imp_left (fun hlt => Nat.le_trans hlt hle)

theorem relayed_none {host relay : UInt64} {us : List Subscription} {m : Message}
    (hus : us <+: o.behind area layer relay) (ht : m.targets = us.map Subscription.id)
    (hnot : ∀ u ∈ us, u.hostId ≠ host) : o.relayed host (relay, m) = none := by
  have hfilter : us.filter (fun u => u.hostId == host) = [] := by
    rw [List.filter_eq_nil_iff]
    intro u hu he
    exact hnot u hu (beq_iff_eq.mp he)
  rw [relayed]
  cases hf : forwardMessage (o.sub2client relay) relay m with
  | none => rfl
  | some r =>
    have hz : o.net.targetsAt relay r.targets host = [] := by
      rw [(forward_behind hus ht hf).1, targetsAt_clients hus, hfilter, List.map_nil]
    rw [Option.bind_some, Network.postedTo, Network.deliveredTo, if_pos hz, ite_self]
    rfl

theorem stored_through {m : Message} {s : Subscription} (hs : s ∈ o.covered area layer)
    (hm : o.matched app now area layer = some m)
    (ht : m.targets = (o.covered area layer).map Subscription.id) :
    o.stored app now area layer s.hostId =
      ((o.net.postedTo o.matcher (o.statics o.matcher) m s.relay.hostId).bind
        (fun r => o.relayed s.hostId (s.relay.hostId, r))).toList := by
  have hother : ∀ e ∈ o.net.posted o.matcher (o.statics o.matcher) m, e.1 ≠ s.relay.hostId →
      (o.relayed s.hostId e).toList = [] := by
    rintro ⟨relay, r⟩ he hne
    obtain ⟨us, hus, hr, -⟩ := delivered_relay ht (Network.mem_posted.mp he)
    rw [relayed_none hus hr, Option.toList_none]
    intro u hu heq
    obtain ⟨hc, hrelay⟩ := mem_behind.mp (hus.subset hu)
    rw [eq_of_hostId (entries_of_covered hs) (entries_of_covered hc) heq] at hrelay
    exact hne hrelay.symm
  rw [stored_eq, toRelays_eq, hm, Option.toList_some, List.flatMap_singleton,
    flatMap_filter_key hother, o.net.filter_posted]
  cases o.net.postedTo o.matcher (o.statics o.matcher) m s.relay.hostId with
  | none => rfl
  | some r => simp

theorem length_publish (app : AppMessage) (now : UInt64) (area : Area) (layer : UInt16) (matcher : UInt64) :
    (app.publish now area layer matcher).data.length = app.msg.data.length + 26 := by
  rw [(publish_fields app now area layer matcher).2.2.2, List.length_append, List.length_append,
    List.length_append, FixedCodec.length_encode, FixedCodec.length_encode, FixedCodec.length_encode]
  rfl

theorem carries_publish (o : Overlay) (app : AppMessage) (now : UInt64) (area : Area) (layer : UInt16) :
    (o.net.queue o.publisher).Carries { app.publish now area layer o.matcher with
      targets := o.net.targetsAt o.publisher (app.publish now area layer o.matcher).targets o.matcher }
      o.matcher ↔
      o.matcher = o.publisher ∨ (o.addressed app).length ≤ 255 ∧
        18 + 8 * (o.addressed app).length + (app.msg.data.length + 26) < 2 ^ 22 := by
  rw [MessageQueue.carries_iff, targetsAt_publish, o.net.hostId, length_publish]

theorem matched_fits (app : AppMessage) (now : UInt64)
    (hk : (o.net.queue o.publisher).Keeps (o.statics o.publisher) (app.publish now area layer o.matcher))
    (hf : o.matcher = o.publisher ∨ (o.addressed app).length ≤ 255 ∧
      18 + 8 * (o.addressed app).length + (app.msg.data.length + 26) < 2 ^ 22)
    (hne : o.covered area layer ≠ []) : ∃ m, o.matched app now area layer = some m ∧
      m.targets = (o.covered area layer).map Subscription.id ∧ m.fromId ≠ 0 ∧
      m.msgtype = packMsgtype app.msg.msgtype messageType ∧ m.msggroup = groupRelay ∧
      m.data = app.msg.data ++ FixedCodec.u64.encode now := by
  obtain ⟨-, hpty, hpg, hpd⟩ := publish_fields app now area layer o.matcher
  have htype := packMsgtype_ne app.small (show publishType < 256 by decide) (by decide)
  have hmem := o.mem_addressed app
  rw [← o.targetsAt_publish app now area layer] at hmem
  obtain ⟨r, hr, ha, -⟩ := Network.deliveredTo_carries (Or.inr o.publisher_ne) (by rwa [hpty]) hmem
    (Or.inl rfl) ((o.carries_publish app now area layer).mpr hf)
  have hpublish := handlePublish_eq o app.small (ha.msggroup.trans hpg) (ha.msgtype.trans hpty)
    (ha.data.trans hpd) ha.curr
  rw [if_neg hne] at hpublish
  have hmatched : o.matched app now area layer = o.handlePublish r := by
    rw [matched, Network.postedTo, if_pos hk, hr, Option.bind_some]
  exact ⟨_, hmatched.trans hpublish, rfl, ha.fromId, rfl, rfl, rfl⟩

theorem carries_behind (o : Overlay) (area : Area) (layer : UInt16) {m : Message} {size : Nat}
    (hd : m.data.length = size + 8) (relay : UInt64) : (o.net.queue o.matcher).Carries
      { m with targets := (o.behind area layer relay).map Subscription.id } relay ↔
      relay = o.matcher ∨ (o.behind area layer relay).length ≤ 255 ∧
        18 + 8 * (o.behind area layer relay).length + (size + 8) < 2 ^ 22 := by
  rw [MessageQueue.carries_iff, List.length_map, o.net.hostId, hd]

theorem filter_client {us : List Subscription} {relay : UInt64} {s : Subscription}
    (hus : us <+: o.behind area layer relay) (hs : s ∈ us) :
    us.filter (fun u => u.hostId == s.hostId) = [s] := by
  have hnd : (us.map Subscription.hostId).Nodup :=
    (o.nodup_behind area layer relay).sublist (hus.sublist.map _)
  have hpairs : ((us.map (fun u => (u.hostId, u))).map Prod.fst).Nodup := by
    rw [List.map_map]
    exact hnd
  have hkey := Tables.filter_eq_singleton hpairs (List.mem_map.mpr ⟨s, hs, rfl⟩)
  rw [List.filter_map] at hkey
  have hsnd := congrArg (List.map Prod.snd) hkey
  rw [List.map_map] at hsnd
  simpa [Function.comp_def] using hsnd

theorem relayed_eq (app : AppMessage) {us : List Subscription} {relay : UInt64} {s : Subscription} {m : Message}
    (hus : us <+: o.behind area layer relay) (hs : s ∈ us) (ht : m.targets = us.map Subscription.id)
    (hg : m.msggroup = groupRelay) (hty : m.msgtype = packMsgtype app.msg.msgtype messageType) :
    ∃ f : Message, forwardMessage (o.sub2client relay) relay m = some f ∧
      o.net.targetsAt relay f.targets s.hostId = [s.hostId] ∧ f.fromId = m.fromId ∧ f.data = m.data ∧
      f.msgtype = packMsgtype app.msg.msgtype messageType ∧ f.msggroup = groupClient := by
  obtain ⟨happ, hvast⟩ := unpack_packMsgtype messageType app.small (by decide)
  rw [← hty] at happ hvast
  have hclients : m.targets.filterMap (fun t => (o.sub2client relay t).or
      (if t = relay then some t else none)) = us.map Subscription.hostId := by
    rw [ht, List.filterMap_map, List.filterMap_eq_map_iff_forall_eq_some]
    intro u hu
    obtain ⟨hc, hrelay⟩ := mem_behind.mp (hus.subset hu)
    rw [Function.comp_apply, ← hrelay, o.known u (entries_of_covered hc)]
    rfl
  have hne : us.map Subscription.hostId ≠ [] := by
    intro hz
    rw [List.map_eq_nil_iff] at hz
    rw [hz] at hs
    cases hs
  have hf : forwardMessage (o.sub2client relay) relay m = some { m with
      msgtype := packMsgtype app.msg.msgtype messageType, targets := us.map Subscription.hostId
      msggroup := groupClient } := by
    rw [forwardMessage, if_pos ⟨hg, hvast⟩, hclients, happ]
    exact if_neg hne
  refine ⟨_, hf, ?_, rfl, rfl, rfl, rfl⟩
  rw [targetsAt_clients hus, filter_client hus hs]
  rfl

/-- The publication as a subscriber's client is to store it. -/
structure Delivered (o : Overlay) (app : AppMessage) (now : UInt64) (area : Area) (layer : UInt16)
    (s : Subscription) : Prop where
  one : ∃ m, o.stored app now area layer s.hostId = [m] ∧ m.data = app.msg.data ∧
    m.msgtype = app.msg.msgtype ∧ m.curr = 0

theorem postedTo_covered {m : Message} (ht : m.targets = (o.covered area layer).map Subscription.id)
    (relay : UInt64) : o.net.postedTo o.matcher (o.statics o.matcher) m relay =
      o.net.deliveredTo o.matcher m relay := by
  refine if_pos (MessageQueue.keeps_of_hosts fun t hmem => ?_)
  rw [ht] at hmem
  obtain ⟨s, hs, rfl⟩ := List.mem_map.mp hmem
  exact ⟨s.relay.hostId, o.to_relay s (entries_of_covered hs)⟩

theorem postedTo_clients {relay : UInt64} {us : List Subscription} {m : Message}
    (hus : us <+: o.behind area layer relay) (ht : m.targets = us.map Subscription.hostId)
    (host : UInt64) : o.net.postedTo relay (o.statics relay) m host = o.net.deliveredTo relay m host := by
  refine if_pos (MessageQueue.keeps_of_hosts fun t hmem => ?_)
  rw [ht] at hmem
  obtain ⟨s, hs, rfl⟩ := List.mem_map.mp hmem
  obtain ⟨hc, hrelay⟩ := mem_behind.mp (hus.subset hs)
  exact ⟨s.hostId, by rw [← hrelay, o.to_client s (entries_of_covered hc)]⟩

theorem delivered_of_fits {s : Subscription} (hs : s ∈ o.covered area layer)
    (hf : o.Fits app now area layer s) : o.Delivered app now area layer s := by
  obtain ⟨m, hm, ht, hfrom, hty, hg, hd⟩ :=
    matched_fits app now hf.sent hf.published (List.ne_nil_of_mem hs)
  have hlen : m.data.length = app.msg.data.length + 8 := by
    rw [hd, List.length_append, FixedCodec.length_encode]
    rfl
  have hbehind : s ∈ o.behind area layer s.relay.hostId := mem_behind.mpr ⟨hs, rfl⟩
  have htype := packMsgtype_ne app.small (show messageType < 256 by decide) (by decide)
  -- From the matcher to the relay.
  have hat := o.targetsAt_covered area layer s.relay.hostId
  rw [← ht] at hat
  obtain ⟨r, hr, ha, hrt⟩ := Network.deliveredTo_carries (Or.inl hfrom) (by rwa [hty])
    (by rw [hat]; exact List.mem_map_of_mem hbehind) (settled_behind hbehind)
    (by rw [hat]; exact (o.carries_behind area layer hlen _).mpr hf.matched)
  rw [hat] at hrt
  replace hrt := hrt fun t hmem => by
    obtain ⟨u, hu, rfl⟩ := List.mem_map.mp hmem
    exact settled_behind hu
  -- From the relay to the client.
  obtain ⟨f, hforward, hft, hff, hfd, hfty, hfg⟩ := relayed_eq app
    (List.prefix_refl _) hbehind hrt (ha.msggroup.trans hg) (ha.msgtype.trans hty)
  have hflen : f.data.length = app.msg.data.length + 8 := by rw [hfd, ha.data, hlen]
  obtain ⟨x, hx, hax, -⟩ := Network.deliveredTo_carries (Or.inl (hff.trans_ne ha.fromId)) (by rwa [hfty])
    (by rw [hft]; exact List.mem_singleton_self _) (Or.inl rfl)
    (by
      rw [hft, MessageQueue.carries_iff, o.net.hostId, hflen, List.length_singleton]
      exact hf.forwarded.imp_right (fun hsize => ⟨by decide, hsize⟩))
  have hclient := clientMessage_eq app.small (hax.msggroup.trans hfg) (hax.msgtype.trans hfty)
    (hax.data.trans (hfd.trans (ha.data.trans hd))) hax.curr
  have hft' := (forward_behind (List.prefix_refl _) hrt hforward).1
  have hrelayed : o.relayed s.hostId (s.relay.hostId, r) =
      some { x with msgtype := app.msg.msgtype, data := app.msg.data, curr := 0 } := by
    rw [relayed, hforward, Option.bind_some, postedTo_clients (List.prefix_refl _) hft', hx,
      Option.bind_some, hclient]
  refine ⟨{ x with msgtype := app.msg.msgtype, data := app.msg.data, curr := 0 }, ?_, rfl, rfl, rfl⟩
  rw [stored_through hs hm ht, postedTo_covered ht, hr, Option.bind_some, hrelayed, Option.toList_some]

section Misses

/-! What goes wrong when a message does not fit. -/

/-- What a subscriber stores has passed the matcher. -/
theorem matched_of_stored {host : UInt64} {x : Message} (hx : x ∈ o.stored app now area layer host) :
    ∃ m relay r, o.matched app now area layer = some m ∧
      o.net.postedTo o.matcher (o.statics o.matcher) m relay = some r ∧
      o.relayed host (relay, r) = some x := by
  rw [stored_eq, toRelays_eq, List.mem_flatMap] at hx
  obtain ⟨⟨relay, r⟩, he, hr⟩ := hx
  obtain ⟨m, hm, hmem⟩ := List.mem_flatMap.mp he
  exact ⟨m, relay, r, Option.mem_toList.mp hm, Network.mem_posted.mp hmem, Option.mem_toList.mp hr⟩

theorem sent_of_delivered {s : Subscription} (hd : o.Delivered app now area layer s) :
    (o.net.queue o.publisher).Keeps (o.statics o.publisher) (app.publish now area layer o.matcher) := by
  obtain ⟨x, hx, -⟩ := hd.one
  obtain ⟨m, relay, r, hm, -⟩ := matched_of_stored (by rw [hx]; exact List.mem_singleton_self x)
  obtain ⟨p, hp, -⟩ := Option.bind_eq_some_iff.mp hm
  exact (Network.postedTo_some hp).1

theorem published_of_delivered {s : Subscription}
    (hcount : o.matcher = o.publisher ∨ (o.addressed app).length ≤ 255)
    (hd : o.Delivered app now area layer s) :
    o.matcher = o.publisher ∨ (o.addressed app).length ≤ 255 ∧
      18 + 8 * (o.addressed app).length + (app.msg.data.length + 26) < 2 ^ 22 := by
  by_contra hn
  have hle := hcount.resolve_left (fun he => hn (.inl he))
  obtain ⟨x, hx, hxd, -⟩ := hd.one
  obtain ⟨m, relay, r, hm, hmr, hr⟩ := matched_of_stored (by rw [hx]; exact List.mem_singleton_self x)
  obtain ⟨p, hp, hm⟩ := Option.bind_eq_some_iff.mp hm
  obtain ⟨hpc, -, hcut⟩ := Network.deliveredTo_bounds (Network.postedTo_some hp).2
  have hlt := hcut (mt (o.carries_publish app now area layer).mp hn) (by rwa [targetsAt_publish])
  rw [length_publish] at hlt
  have hlm := length_handlePublish hpc hm
  obtain ⟨-, hlr, -⟩ := Network.deliveredTo_bounds (Network.postedTo_some hmr).2
  have hlx := length_relayed hr
  rw [hxd] at hlx
  have hbig := fun h => (not_or.mp hn).2 ⟨hle, h⟩
  omega

/-- The last of more than 255 subscriptions behind a relay on another host gets nothing. -/
theorem stored_overflow {m : Message} {relay : UInt64} (hm : o.matched app now area layer = some m)
    (ht : m.targets = (o.covered area layer).map Subscription.id) (hr : relay ≠ o.matcher)
    (hcount : 255 < (o.behind area layer relay).length) :
    ∃ u ∈ o.covered area layer, o.stored app now area layer u.hostId = [] := by
  have hne : o.behind area layer relay ≠ [] := List.ne_nil_of_length_pos (by omega)
  obtain ⟨hlast, hrelay⟩ := mem_behind.mp (List.getLast_mem hne)
  refine ⟨(o.behind area layer relay).getLast hne, hlast, ?_⟩
  rw [stored_through hlast hm ht, hrelay, Option.toList_eq_nil_iff, Option.bind_eq_none_iff]
  intro r hdel
  obtain ⟨us, hus, hrt, hb⟩ := delivered_relay ht hdel
  have hlen : us.length ≤ 255 := by
    have hle := hb.length_targets (by rwa [o.net.hostId])
    rwa [hrt, List.length_map] at hle
  refine relayed_none hus hrt fun u hu he => ?_
  obtain ⟨rest, hrest⟩ := hus
  have hrest_ne : rest ≠ [] := by
    rintro rfl
    rw [List.append_nil] at hrest
    rw [← hrest] at hcount
    omega
  have hlast' : (o.behind area layer relay).getLast hne ∈ rest := by
    simp only [← hrest, List.getLast_append_of_ne_nil _ hrest_ne]
    exact List.getLast_mem hrest_ne
  have hnd := o.nodup_behind area layer relay
  rw [← hrest, List.map_append, List.nodup_append'] at hnd
  exact hnd.2.2 (List.mem_map_of_mem hu) (he ▸ List.mem_map_of_mem hlast')

theorem matched_of_delivered (h : ∀ s ∈ o.covered area layer, o.Delivered app now area layer s)
    (hcount : o.matcher = o.publisher ∨ (o.addressed app).length ≤ 255) {s : Subscription}
    (hs : s ∈ o.covered area layer) :
    s.relay.hostId = o.matcher ∨ (o.behind area layer s.relay.hostId).length ≤ 255 ∧
      18 + 8 * (o.behind area layer s.relay.hostId).length + (app.msg.data.length + 8) < 2 ^ 22 := by
  by_contra hn
  obtain ⟨m, hm, ht, -, -, -, hd⟩ := matched_fits app now (sent_of_delivered (h s hs))
    (published_of_delivered hcount (h s hs)) (List.ne_nil_of_mem hs)
  have hlen : m.data.length = app.msg.data.length + 8 := by
    rw [hd, List.length_append, FixedCodec.length_encode]
    rfl
  by_cases hcount : (o.behind area layer s.relay.hostId).length ≤ 255
  · obtain ⟨x, hx, hxd, -⟩ := (h s hs).one
    rw [stored_through hs hm ht, Option.toList_eq_singleton_iff, Option.bind_eq_some_iff] at hx
    obtain ⟨r, hr, hx⟩ := hx
    obtain ⟨us, -, -, hb⟩ := delivered_relay ht hr
    have hlt := hb.cut (mt (o.carries_behind area layer hlen _).mp hn) (by rwa [List.length_map])
    have hlx := length_relayed hx
    have hbig := (not_or.mp hn).2
    rw [hxd] at hlx
    change r.data.length < m.data.length at hlt
    omega
  · obtain ⟨u, hu, hz⟩ := stored_overflow hm ht (fun he => hn (Or.inl he)) (Nat.lt_of_not_le hcount)
    obtain ⟨x, hx, -⟩ := (h u hu).one
    rw [hz] at hx
    cases hx

theorem forwarded_of_delivered {s : Subscription} (hs : s ∈ o.covered area layer)
    (hcount : o.matcher = o.publisher ∨ (o.addressed app).length ≤ 255)
    (h : o.Delivered app now area layer s) :
    s.hostId = s.relay.hostId ∨ 18 + 8 * 1 + (app.msg.data.length + 8) < 2 ^ 22 := by
  by_contra hn
  obtain ⟨m, hm, ht, -, -, -, hd⟩ := matched_fits app now (sent_of_delivered h)
    (published_of_delivered hcount h) (List.ne_nil_of_mem hs)
  have hlen : m.data.length = app.msg.data.length + 8 := by
    rw [hd, List.length_append, FixedCodec.length_encode]
    rfl
  obtain ⟨x, hx, hxd, -⟩ := h.one
  rw [stored_through hs hm ht, Option.toList_eq_singleton_iff, Option.bind_eq_some_iff] at hx
  obtain ⟨r, hr, hx⟩ := hx
  obtain ⟨us, hus, hrt, hb⟩ := delivered_relay ht hr
  have hsus : s ∈ us := by
    by_contra hnot
    rw [relayed_none hus hrt] at hx
    · cases hx
    · rintro u hu he
      rw [eq_of_hostId (entries_of_covered hs)
        (entries_of_covered (mem_behind.mp (hus.subset hu)).1) he] at hu
      exact hnot hu
  obtain ⟨y, hy, hx⟩ := Option.bind_eq_some_iff.mp hx
  obtain ⟨f, hf, hy⟩ := Option.bind_eq_some_iff.mp hy
  obtain ⟨hft, hfd⟩ := forward_behind hus hrt hf
  have hat : o.net.targetsAt s.relay.hostId f.targets s.hostId = [s.hostId] := by
    rw [hft, targetsAt_clients hus, filter_client hus hsus]
    rfl
  obtain ⟨hyc, hyl, hcut⟩ := Network.deliveredTo_bounds (Network.postedTo_some hy).2
  simp only [hat, List.length_singleton] at hcut
  have hlr : r.data.length ≤ m.data.length := hb.length_data
  have hlx := length_clientMessage hyc hx
  have hbig := (not_or.mp hn).2
  rw [hxd] at hlx
  -- The last step cuts the message unless an earlier one has.
  have hlt : y.data.length < app.msg.data.length + 8 := by
    by_contra hge
    refine absurd (hcut ?_ (by decide)) (by rw [hfd]; omega)
    rw [MessageQueue.carries_iff, o.net.hostId, List.length_singleton]
    rintro (he | ⟨-, hsize⟩)
    · exact hn (Or.inl he)
    · change 18 + 8 * 1 + f.data.length < 2 ^ 22 at hsize
      omega
  omega

end Misses

/-- Every subscriber that a publication is for gets it when the publisher sends it and it fits
the headers of the messages that carry it; where at most 255 targets go along to the matcher,
only then. -/
theorem publication_delivered_iff (o : Overlay) (app : AppMessage) (now : UInt64) (area : Area)
    (layer : UInt16) :
    ((∀ s ∈ o.covered area layer, o.Fits app now area layer s) →
      ∀ s ∈ o.covered area layer, o.Delivered app now area layer s) ∧
    (o.matcher = o.publisher ∨ (o.addressed app).length ≤ 255 →
      ((∀ s ∈ o.covered area layer, o.Delivered app now area layer s) ↔
        ∀ s ∈ o.covered area layer, o.Fits app now area layer s)) := by
  have hfits (h : ∀ s ∈ o.covered area layer, o.Fits app now area layer s) (s : Subscription)
      (hs : s ∈ o.covered area layer) : o.Delivered app now area layer s := delivered_of_fits hs (h s hs)
  refine ⟨hfits, fun hcount => ⟨fun h s hs => ?_, hfits⟩⟩
  exact ⟨sent_of_delivered (h s hs), published_of_delivered hcount (h s hs),
    matched_of_delivered h hcount hs, forwarded_of_delivered hs hcount (h s hs)⟩

end Overlay

/-- Subscribers at the origin, with ids from 1000 on and clients on hosts from 2000 on, all
behind the relay on host 2; the matcher is on host 1. -/
def audience (n : Nat) : List Subscription :=
  (List.range n).map (fun i =>
    { id := 1000 + UInt64.ofNat i, hostId := 2000 + UInt64.ofNat i, relay := { hostId := 2 } })

section Audience

variable {n : Nat} (hn : n ≤ 256) {s : Subscription}

include hn

theorem audience_spec (h : s ∈ audience n) : 1000 ≤ s.id ∧ s.id < 1256 ∧
    s.hostId = s.id + 1000 ∧ s.relay.hostId = 2 ∧ s.layer = 0 ∧ s.aoi = {} := by
  obtain ⟨i, hi, rfl⟩ := List.mem_map.mp h
  have hlt : i < n := List.mem_range.mp hi
  have hid : (1000 + UInt64.ofNat i).toNat = 1000 + i := by
    rw [UInt64.toNat_add, UInt64.toNat_ofNat']
    simp
    omega
  refine ⟨?_, ?_, ?_, rfl, rfl, rfl⟩
  · rw [UInt64.le_iff_toNat_le, hid]
    simp
  · rw [UInt64.lt_iff_toNat_lt, hid]
    simp
    omega
  · change (1000 + 1000 : UInt64) + UInt64.ofNat i = 1000 + UInt64.ofNat i + 1000
    rw [UInt64.add_assoc, UInt64.add_assoc, UInt64.add_comm 1000 (UInt64.ofNat i)]

theorem nodup_audience : ((audience n).map Subscription.id).Nodup := by
  have hids : ((List.range n).map fun i => UInt64.ofNat (i + 0)).Nodup := nodup_ofNat_range 0 (by omega)
  have hnd := hids.map (add_right_injective (1000 : UInt64))
  rw [List.map_map] at hnd
  rw [audience, List.map_map]
  exact hnd

theorem audienceSubs_spec (h : s ∈ (Subscriptions.ofEntries (audience n)).entries) :
    1000 ≤ s.id ∧ s.id < 1256 ∧
      s.hostId = s.id + 1000 ∧ s.relay.hostId = 2 ∧ s.layer = 0 ∧ s.aoi = {} :=
  audience_spec hn ((Subscriptions.mem_entries_ofEntries (nodup_audience hn)).mp h)

theorem length_audienceSubs : (Subscriptions.ofEntries (audience n)).entries.length = n := by
  rw [Subscriptions.length_entries_ofEntries (nodup_audience hn), audience, List.length_map,
    List.length_range]

theorem nodup_audience_clients :
    ((Subscriptions.ofEntries (audience n)).entries.map Subscription.hostId).Nodup := by
  have hmap : (Subscriptions.ofEntries (audience n)).entries.map Subscription.hostId =
      ((Subscriptions.ofEntries (audience n)).entries.map Subscription.id).map (· + 1000) := by
    rw [List.map_map]
    exact List.map_congr_left (fun s hs => (audienceSubs_spec hn hs).2.2.1)
  rw [hmap]
  exact (Subscriptions.ofEntries (audience n)).nodup_ids.map (fun _ _ h => add_right_cancel h)

end Audience

/-- A host knows every other host; the matcher also knows the relay of the subscriptions. -/
def audienceQueue (host : UInt64) : MessageQueue where
  hostId := host
  id2host t := if 1000 ≤ t ∧ t < 1256 then (if host = 1 then some 2 else none) else some t
  defaultHost := host

section Tables

variable {n : Nat} (hn : n ≤ 256) {s : Subscription} (hs : s ∈ (Subscriptions.ofEntries (audience n)).entries)

include hn hs

theorem audience_relay : (audienceQueue 1).id2host s.id = some s.relay.hostId := by
  obtain ⟨hge, hlt, -, hr, -⟩ := audienceSubs_spec hn hs
  simp [audienceQueue, hge, hlt, hr]

theorem audience_local : (audienceQueue s.relay.hostId).isLocal s.id = true := by
  obtain ⟨hge, hlt, -, hr, -⟩ := audienceSubs_spec hn hs
  simp [MessageQueue.isLocal, audienceQueue, hge, hlt, hr]

theorem audience_known :
    (if s.relay.hostId = 2 ∧ 1000 ≤ s.id ∧ s.id < 1256 then some (s.id + 1000) else none) =
      some s.hostId := by
  obtain ⟨hge, hlt, hh, hr, -⟩ := audienceSubs_spec hn hs
  simp [hge, hlt, hr, hh]

theorem audience_client : (audienceQueue s.relay.hostId).id2host s.hostId = some s.hostId := by
  obtain ⟨hge, hlt, hh, hr, -⟩ := audienceSubs_spec hn hs
  have hnot : ¬ (1000 ≤ s.hostId ∧ s.hostId < 1256) := by
    rw [hh]
    rintro ⟨-, h⟩
    rw [UInt64.lt_iff_toNat_lt, UInt64.toNat_add] at h
    rw [UInt64.le_iff_toNat_le] at hge
    rw [UInt64.lt_iff_toNat_lt] at hlt
    simp at h hge hlt
    omega
  simp [audienceQueue, hnot]

theorem audience_id_ne : s.id ≠ 1 := by
  obtain ⟨hge, -⟩ := audienceSubs_spec hn hs
  intro he
  rw [he] at hge
  exact absurd hge (by decide)

end Tables

/-- The publisher is on host 3. An area of radius 0 overlaps only its centre. -/
def audienceOverlay (n : Nat) (hn : n ≤ 256) : Overlay where
  net := ⟨audienceQueue, fun _ => rfl⟩
  statics _ := {}
  overlaps aoi pos := aoi.center.equals pos
  publisher := 3
  matcher := 1
  subs := .ofEntries (audience n)
  sub2client host t := if host = 2 ∧ 1000 ≤ t ∧ t < 1256 then some (t + 1000) else none
  publisher_ne := by decide
  to_matcher := rfl
  to_relay _ hs := audience_relay hn hs
  at_relay _ hs := audience_local hn hs
  known _ hs := audience_known hn hs
  to_client _ hs := audience_client hn hs
  ids_ne _ hs := audience_id_ne hn hs
  clients := nodup_audience_clients hn

theorem covered_audience {n : Nat} (hn : n ≤ 256) :
    (audienceOverlay n hn).covered {} 0 = (Subscriptions.ofEntries (audience n)).entries := by
  have hself : Position.equals {} {} = true := by decide
  have hall : ∀ s ∈ (Subscriptions.ofEntries (audience n)).entries,
      (audienceOverlay n hn).covers {} 0 s = true := by
    intro s hs
    obtain ⟨-, -, -, -, hl, ha⟩ := audienceSubs_spec hn hs
    rw [Overlay.covers, hl, ha]
    exact hself
  have hsubs : (audienceOverlay n hn).subs = .ofEntries (audience n) := by simp only [audienceOverlay]
  rw [Overlay.covered, hsubs, List.filter_eq_self]
  exact hall

theorem behind_audience {n : Nat} (hn : n ≤ 256) :
    (audienceOverlay n hn).behind {} 0 2 = (Subscriptions.ofEntries (audience n)).entries := by
  rw [Overlay.behind, covered_audience]
  apply List.filter_eq_self.mpr
  intro s hs
  rw [(audienceSubs_spec hn hs).2.2.2.1]
  rfl

/-- An unreliable note that the application has addressed already: to a host, to a subscription
that the publisher's queue does not know, and to the matcher. -/
def addressedNote : AppMessage :=
  ⟨{ msgtype := 7, reliable := false, targets := [9, 1005, 1], data := [1, 2, 3] }, rfl, by decide⟩

theorem publication_delivered_three :
    ((audienceOverlay 3 (by decide)).covered {} 0).length = 3 ∧
      ∀ s ∈ (audienceOverlay 3 (by decide)).covered {} 0,
        (audienceOverlay 3 (by decide)).Delivered addressedNote 0 {} 0 s := by
  have hlen := length_audienceSubs (n := 3) (by decide)
  refine ⟨by rw [covered_audience, hlen], ?_⟩
  refine (Overlay.publication_delivered_iff (audienceOverlay 3 (by decide)) addressedNote 0 {} 0).1
    fun s hs => ?_
  rw [covered_audience] at hs
  have hrelay := (audienceSubs_spec (by decide) hs).2.2.2.1
  refine ⟨by decide, .inr (by decide), .inr ?_, .inr (by decide)⟩
  rw [hrelay, behind_audience, hlen]
  decide

def emptyNote : AppMessage := ⟨{ msgtype := 7 }, rfl, by decide⟩

/-- One of 256 subscribers behind a relay gets nothing. -/
theorem audience_not_reached : ∃ s ∈ (audienceOverlay 256 le_rfl).covered {} 0,
    (audienceOverlay 256 le_rfl).stored emptyNote 0 {} 0 s.hostId = [] := by
  have hlen := length_audienceSubs (n := 256) le_rfl
  have hne : (audienceOverlay 256 le_rfl).covered {} 0 ≠ [] := by
    rw [covered_audience]
    exact List.ne_nil_of_length_pos (by omega)
  obtain ⟨m, hm, ht, -⟩ := Overlay.matched_fits (o := audienceOverlay 256 le_rfl) emptyNote 0
    (by decide) (Or.inr (by decide)) hne
  have hrelay : (2 : UInt64) ≠ (audienceOverlay 256 le_rfl).matcher := by
    change (2 : UInt64) ≠ 1
    decide
  refine Overlay.stored_overflow hm ht hrelay ?_
  rw [behind_audience, hlen]
  decide

end VastNC
