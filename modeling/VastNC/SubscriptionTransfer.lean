import VastNC.MatcherTables
import VastNC.NeighborNotice
import VastNC.TransferAnnouncement

/-! Subscriptions that a matcher sends to a neighbour, in full or only their areas, and what the
neighbour has once it has read them. The count stands behind the records, in one byte. -/

namespace VastNC

def subscribeTransferType : UInt16 := vonMaxMsg + 11

def subscribeUpdateType : UInt16 := vonMaxMsg + 12

def vsoRequestType : UInt16 := 18

structure SubscriptionRecord where
  hostId : UInt64 := 0
  id : UInt64 := 0
  layer : UInt16 := 0
  aoi : Area := {}
  relay : Addr := {}
  deriving DecidableEq

namespace SubscriptionRecord

def codec : FixedCodec SubscriptionRecord :=
  (FixedCodec.u64.prod (FixedCodec.u64.prod (FixedCodec.u16.prod (Area.codec.prod Addr.codec)))).via
    (fun r => (r.hostId, r.id, r.layer, r.aoi, r.relay))
    (fun t => ⟨t.1, t.2.1, t.2.2.1, t.2.2.2.1, t.2.2.2.2⟩) (fun _ => rfl)

/-- What `deserialize` makes of it: the flags and the time are cleared. -/
def received (r : SubscriptionRecord) : Subscription :=
  { hostId := r.hostId, id := r.id, layer := r.layer, aoi := r.aoi, relay := r.relay }

end SubscriptionRecord

def Subscription.record (s : Subscription) : SubscriptionRecord :=
  ⟨s.hostId, s.id, s.layer, s.aoi, s.relay⟩

namespace Message

variable {α : Type}

/-- A loop that extracts into one variable, which keeps its value when there is nothing left. -/
def extractItems (c : FixedCodec α) : Nat → α → Message → List α
  | 0, _, _ => []
  | n + 1, last, m =>
    let (a, m) := (m.extractAs c).getD (last, m)
    a :: extractItems c n a m

theorem At.extractItems {c : FixedCodec α} {m : Message} {pre post : List UInt8} {l : List α}
    (h : m.At pre (l.flatMap c.encode ++ post)) (last : α) : Message.extractItems c l.length last m = l := by
  induction l generalizing m pre last with
  | nil => rfl
  | cons a l ih =>
    rw [List.flatMap_cons, List.append_assoc] at h
    obtain ⟨m', hr, ha⟩ := h.extractAs
    rw [List.length_cons, Message.extractItems, hr, Option.getD_some]
    exact congrArg (a :: ·) (ih ha a)

def delivered (m : Message) (sender : UInt64) : Message := { m with curr := 0, fromId := sender }

end Message

namespace Matcher

open Message

/-- One turn of the loop of `transferSubscription`, with the number of records so far. -/
def storeSubscription (updateOnly : Bool) (m : Subscriptions) (r : Message × UInt8) (id : UInt64) :
    Message × UInt8 :=
  match m.find id with
  | some s =>
    (if updateOnly then (r.1.putAs FixedCodec.u64 id).putAs Area.codec s.aoi
      else r.1.putAs SubscriptionRecord.codec s.record, r.2 + 1)
  | none => r

/-- The message that goes out, if one does. -/
def transferSubscription (m : Matcher) (neighbors : List UInt64) (target : UInt64) (list : List UInt64)
    (updateOnly : Bool) : Option Message :=
  if target ∉ neighbors then none
  else
    let msg : Message := { msgtype := subscribeTransferType, priority := 1 }
    let r := list.foldl (storeSubscription updateOnly m.subs) (msg.addTarget target, 0)
    if r.2 > 0 then
      let msg := if updateOnly then { r.1 with msgtype := subscribeUpdateType } else r.1
      some (msg.putAs FixedCodec.u8 r.2)
    else none

def subscriptionsIn (msg : Message) : List Subscription :=
  match msg.extractAs FixedCodec.u8 true with
  | none => []
  | some (n, m) => (extractItems SubscriptionRecord.codec n.toNat {} m).map SubscriptionRecord.received

/-- `SUBSCRIBE_TRANSFER`. -/
def handleTransfer (now : Nat) (m : Matcher) (msg : Message) : Matcher :=
  (subscriptionsIn msg).foldl (transferOne now) m

def readUpdates : Nat → UInt64 × Area → Message → List (UInt64 × Area)
  | 0, _, _ => []
  | n + 1, last, m =>
    let (id, m) := (m.extractAs FixedCodec.u64).getD (last.1, m)
    let (aoi, m) := (m.extractAs Area.codec).getD (last.2, m)
    (id, aoi) :: readUpdates n (id, aoi) m

def updatesIn (msg : Message) : List (UInt64 × Area) :=
  match msg.extractAs FixedCodec.u8 true with
  | none => []
  | some (n, m) => readUpdates n.toNat (0, {}) m

def updateRequests (now : Nat) (m : Matcher) (sender : UInt64) (updates : List (UInt64 × Area)) :
    List VSOOutput :=
  let r := updates.foldl (updateOne now) (m, [])
  if r.2 = [] then [] else (r.1.vso.requestObjects sender r.2).2

/-- `SUBSCRIBE_UPDATE`. -/
def handleUpdate (now : Nat) (m : Matcher) (msg : Message) : Matcher × List VSOOutput :=
  (m.subscribeUpdate now msg.fromId (updatesIn msg), m.updateRequests now msg.fromId (updatesIn msg))

end Matcher

namespace VSOPeer

open Message

/-- `VSO_REQUEST`. -/
def requestMessage (target : UInt64) (objIds : List UInt64) : Message :=
  let msg : Message := { msgtype := vsoRequestType, priority := 1 }
  (objIds.foldl (fun m id => m.putAs FixedCodec.u64 id)
    (msg.putAs FixedCodec.u8 (UInt8.ofNat objIds.length))).addTarget target

def requestedIn (msg : Message) : List UInt64 :=
  match msg.extractAs FixedCodec.u8 with
  | none => []
  | some (n, m) => extractItems FixedCodec.u64 n.toNat 0 m

def Requests (outs : List VSOOutput) (target id : UInt64) : Prop :=
  ∃ objIds, .request target objIds ∈ outs ∧ id ∈ requestedIn (requestMessage target objIds).reset

theorem requestedIn_requestMessage (target : UInt64) {objIds : List UInt64} (h : objIds.length ≤ 255) :
    requestedIn (requestMessage target objIds).reset = objIds := by
  have halloc : ({ msgtype := vsoRequestType, priority := 1 } : Message).alloc = true := rfl
  have hdata : (requestMessage target objIds).data =
      FixedCodec.u8.encode (UInt8.ofNat objIds.length) ++ (objIds.flatMap FixedCodec.u64.encode ++ []) := by
    rw [requestMessage, addTarget, List.append_nil]
    have hfold := foldl_putAs FixedCodec.u64
      (alloc_put halloc (FixedCodec.u8.encode (UInt8.ofNat objIds.length))) objIds
    rw [data_put halloc] at hfold
    split <;> exact hfold
  have hat : (requestMessage target objIds).reset.At []
      (FixedCodec.u8.encode (UInt8.ofNat objIds.length) ++ (objIds.flatMap FixedCodec.u64.encode ++ [])) :=
    ⟨hdata, rfl⟩
  obtain ⟨m', hr, ha⟩ := hat.extractAs
  have hlen : (UInt8.ofNat objIds.length).toNat = objIds.length :=
    UInt8.toNat_ofNat'.trans (Nat.mod_eq_of_lt (Nat.lt_succ_of_le h))
  rw [requestedIn, hr]
  dsimp only
  rw [hlen]
  exact ha.extractItems 0

theorem mem_requestObjects {p : VSOPeer} {target : UInt64} {objIds : List UInt64} (h : objIds.length ≤ 255)
    (id : UInt64) : Requests (p.requestObjects target objIds).2 target id ↔
      id ∈ objIds ∧ p.objRequested[id]? = none := by
  have hmem : id ∈ objIds.filter (fun id => p.objRequested[id]? == none) ↔
      id ∈ objIds ∧ p.objRequested[id]? = none := by
    rw [List.mem_filter, beq_iff_eq]
  rw [← hmem, Requests, requestObjects]
  split
  · rename_i hnil
    rw [hnil]
    refine iff_of_false ?_ List.not_mem_nil
    rintro ⟨_, hout, _⟩
    exact List.not_mem_nil hout
  · have hle : (objIds.filter (fun id => p.objRequested[id]? == none)).length ≤ 255 :=
      (List.length_filter_le _ objIds).trans h
    constructor
    · rintro ⟨ids, hout, hin⟩
      obtain ⟨-, rfl⟩ := VSOOutput.request.inj (List.mem_singleton.mp hout)
      rwa [requestedIn_requestMessage target hle] at hin
    · intro hin
      refine ⟨_, List.mem_singleton_self _, ?_⟩
      rwa [requestedIn_requestMessage target hle]

end VSOPeer

namespace Subscription

def stored (updateOnly : Bool) (s : Subscription) : List UInt8 :=
  if updateOnly then FixedCodec.u64.encode s.id ++ Area.codec.encode s.aoi
  else SubscriptionRecord.codec.encode s.record

end Subscription

namespace Matcher

open Message

/-- The records of the listed ids that exist. -/
def listed (m : Matcher) (list : List UInt64) : List Subscription := list.filterMap m.subs.find

/-- Those of them that the count byte covers. -/
def counted (m : Matcher) (list : List UInt64) : List Subscription :=
  (m.listed list).take ((m.listed list).length % 256)

section Write

variable {m : Matcher} {neighbors : List UInt64} {target : UInt64} {updateOnly : Bool} {list : List UInt64}

theorem foldl_storeSubscription (updateOnly : Bool) (m : Matcher) (list : List UInt64) (r : Message × UInt8)
    (h : r.1.alloc = true) :
    (list.foldl (storeSubscription updateOnly m.subs) r).1.alloc = true ∧
      (list.foldl (storeSubscription updateOnly m.subs) r).1.data =
        r.1.data ++ (m.listed list).flatMap (Subscription.stored updateOnly) ∧
      (list.foldl (storeSubscription updateOnly m.subs) r).2 = r.2 + UInt8.ofNat (m.listed list).length := by
  induction list generalizing r with
  | nil => exact ⟨h, (List.append_nil _).symm, (UInt8.add_zero r.2).symm⟩
  | cons id list ih =>
    rw [List.foldl_cons]
    cases hf : m.subs.find id with
    | none =>
      have hstep : storeSubscription updateOnly m.subs r id = r := by rw [storeSubscription, hf]
      have hlist : m.listed (id :: list) = m.listed list := List.filterMap_cons_none hf
      rw [hstep, hlist]
      exact ih r h
    | some s =>
      have hlist : m.listed (id :: list) = s :: m.listed list := List.filterMap_cons_some hf
      have hid : s.id = id := Subscriptions.find_id hf
      have hstep : (storeSubscription updateOnly m.subs r id).1.alloc = true ∧
          (storeSubscription updateOnly m.subs r id).1.data = r.1.data ++ s.stored updateOnly ∧
          (storeSubscription updateOnly m.subs r id).2 = r.2 + 1 := by
        rw [storeSubscription, hf, Subscription.stored, hid]
        cases updateOnly with
        | true => exact ⟨alloc_put (alloc_put h _) _, put_put h _ _, rfl⟩
        | false => exact ⟨alloc_put h _, data_put h _, rfl⟩
      obtain ⟨ha, hd, hn⟩ := hstep
      obtain ⟨ha', hd', hn'⟩ := ih (storeSubscription updateOnly m.subs r id) ha
      refine ⟨ha', ?_, ?_⟩
      · rw [hd', hd, hlist, List.flatMap_cons, List.append_assoc]
      · rw [hn', hn, hlist, List.length_cons, UInt8.add_assoc, UInt8.ofNat_add, UInt8.add_comm 1]
        rfl

theorem transferSubscription_cases (m : Matcher) (list : List UInt64) (updateOnly : Bool)
    (h : target ∈ neighbors) :
    (m.transferSubscription neighbors target list updateOnly = none ∧ (m.listed list).length % 256 = 0) ∨
      ∃ msg, m.transferSubscription neighbors target list updateOnly = some msg ∧
        msg.data = (m.listed list).flatMap (Subscription.stored updateOnly) ++
          FixedCodec.u8.encode (UInt8.ofNat (m.listed list).length) := by
  have hmsg : (({ msgtype := subscribeTransferType, priority := 1 } : Message).addTarget target).alloc = true ∧
      (({ msgtype := subscribeTransferType, priority := 1 } : Message).addTarget target).data = [] := by
    rw [addTarget]
    split <;> exact ⟨rfl, rfl⟩
  obtain ⟨ha, hd, hn⟩ := foldl_storeSubscription updateOnly m list
    (({ msgtype := subscribeTransferType, priority := 1 } : Message).addTarget target, 0) hmsg.1
  rw [hmsg.2, List.nil_append] at hd
  rw [UInt8.zero_add] at hn
  rw [transferSubscription, if_neg (not_not.mpr h)]
  dsimp only
  generalize list.foldl (storeSubscription updateOnly m.subs) _ = r at ha hd hn ⊢
  by_cases hpos : r.2 > 0
  · right
    rw [if_pos hpos, ← hd, ← hn]
    refine ⟨_, rfl, ?_⟩
    cases updateOnly with
    | true => exact data_put (m := { r.1 with msgtype := subscribeUpdateType }) ha _
    | false => exact data_put ha _
  · left
    rw [if_neg hpos]
    refine ⟨rfl, ?_⟩
    have hzero : r.2.toNat = 0 := Nat.le_zero.mp (not_lt.mp (fun hlt => hpos (UInt8.lt_iff_toNat_lt.mpr hlt)))
    rwa [hn, UInt8.toNat_ofNat'] at hzero

end Write

section Read

variable {m : Matcher} {msg : Message} {list : List UInt64}

theorem extract_count {body : List UInt8} {n : UInt8} (hd : msg.data = body ++ FixedCodec.u8.encode n)
    (hc : msg.curr = 0) : msg.extractAs FixedCodec.u8 true = some (n, { msg with data := body }) :=
  extractAs_end hd (hc ▸ Nat.zero_le _)

theorem at_counted (updateOnly : Bool) (m : Matcher) (list : List UInt64) (hc : msg.curr = 0) :
    ({ msg with data := (m.listed list).flatMap (Subscription.stored updateOnly) } : Message).At []
      ((m.counted list).flatMap (Subscription.stored updateOnly) ++
        ((m.listed list).drop ((m.listed list).length % 256)).flatMap (Subscription.stored updateOnly)) := by
  refine ⟨?_, hc⟩
  rw [counted, ← List.flatMap_append, List.take_append_drop]
  rfl

theorem length_counted (m : Matcher) (list : List UInt64) :
    (m.counted list).length = (m.listed list).length % 256 := by
  rw [counted, List.length_take, Nat.min_eq_left (Nat.mod_le _ _)]

theorem toNat_count (m : Matcher) (list : List UInt64) :
    (UInt8.ofNat (m.listed list).length).toNat = (m.counted list).length := by
  rw [length_counted]
  exact UInt8.toNat_ofNat'

theorem subscriptionsIn_eq (hd : msg.data = (m.listed list).flatMap (Subscription.stored false) ++
    FixedCodec.u8.encode (UInt8.ofNat (m.listed list).length)) (hc : msg.curr = 0) :
    subscriptionsIn msg = (m.counted list).map (fun s => s.record.received) := by
  have hat := at_counted false m list hc
  have hrecords : (m.counted list).flatMap (Subscription.stored false) =
      ((m.counted list).map Subscription.record).flatMap SubscriptionRecord.codec.encode := by
    rw [List.flatMap_map]
    rfl
  rw [hrecords] at hat
  have hread := hat.extractItems {}
  rw [List.length_map] at hread
  rw [subscriptionsIn, extract_count hd hc]
  dsimp only
  rw [toNat_count, hread, List.map_map]
  rfl

theorem readUpdates_flatMap {pre post : List UInt8} {l : List Subscription}
    (h : msg.At pre (l.flatMap (Subscription.stored true) ++ post)) (last : UInt64 × Area) :
    readUpdates l.length last msg = l.map (fun s => (s.id, s.aoi)) := by
  induction l generalizing msg pre last with
  | nil => rfl
  | cons s l ih =>
    rw [List.flatMap_cons, List.append_assoc, Subscription.stored, if_pos rfl, List.append_assoc] at h
    obtain ⟨m₁, h₁, ha₁⟩ := h.extractAs
    obtain ⟨m₂, h₂, ha₂⟩ := ha₁.extractAs
    rw [List.length_cons, readUpdates, h₁, Option.getD_some]
    dsimp only
    rw [h₂, Option.getD_some]
    exact congrArg ((s.id, s.aoi) :: ·) (ih ha₂ _)

theorem updatesIn_eq (hd : msg.data = (m.listed list).flatMap (Subscription.stored true) ++
    FixedCodec.u8.encode (UInt8.ofNat (m.listed list).length)) (hc : msg.curr = 0) :
    updatesIn msg = (m.counted list).map (fun s => (s.id, s.aoi)) := by
  rw [updatesIn, extract_count hd hc]
  dsimp only
  rw [toNat_count, readUpdates_flatMap (at_counted true m list hc)]

end Read

section Transferred

variable {now : Nat} {q : Matcher} {k : UInt64}

theorem find_transferOne (now : Nat) (q : Matcher) (sub : Subscription) (k : UInt64) :
    (q.transferOne now sub).subs.find k = if sub.id = k then
      match q.subs.find k with
      | none => some { sub with dirty := true }
      | some t => some (if t.accepts sub.time then (t.moved sub.aoi sub.time).rerouted (some sub.relay) else t)
    else q.subs.find k := by
  rw [transferOne]
  cases hf : q.subs.find sub.id with
  | none =>
    dsimp only
    rw [addSubscription, Subscriptions.addSubscription, hf]
    dsimp only
    rw [Subscriptions.find_insert]
    by_cases hk : sub.id = k
    · rw [if_pos hk, if_pos hk, ← hk, hf]
    · rw [if_neg hk, if_neg hk]
  | some t =>
    dsimp only
    rw [find_updateD]
    by_cases hk : sub.id = k
    · rw [if_pos hk, if_pos hk, ← hk, hf]
      rfl
    · rw [if_neg hk, if_neg hk]

theorem isSome_transferAll (now : Nat) (subs : List Subscription) (q : Matcher) (k : UInt64) :
    ((subs.foldl (transferOne now) q).subs.find k).isSome = true ↔
      (q.subs.find k).isSome = true ∨ k ∈ subs.map Subscription.id := by
  induction subs generalizing q with
  | nil => simp
  | cons sub subs ih =>
    rw [List.foldl_cons, ih, find_transferOne, List.map_cons, List.mem_cons]
    by_cases hk : sub.id = k
    · rw [if_pos hk]
      cases q.subs.find k <;> simp [hk]
    · simp [hk, Ne.symm hk]

theorem record_transferOne {sub : Subscription} {r : SubscriptionRecord} (hsub : sub.id = k → sub.record = r)
    (h : ∀ t, q.subs.find k = some t → t.record = r) {t : Subscription}
    (ht : (q.transferOne now sub).subs.find k = some t) : t.record = r := by
  rw [find_transferOne] at ht
  by_cases hk : sub.id = k
  · have hrec := hsub hk
    rw [if_pos hk] at ht
    cases hf : q.subs.find k with
    | none =>
      rw [hf] at ht
      rw [← Option.some.inj ht]
      exact hrec
    | some u =>
      have hu : u.record = sub.record := (h u hf).trans hrec.symm
      rw [hf] at ht
      rw [← Option.some.inj ht]
      split
      · obtain ⟨-, -, -, haoi, hrelay⟩ := SubscriptionRecord.mk.inj hu
        have hmoved : (u.moved sub.aoi sub.time).record = u.record := by
          simp [Subscription.record, Subscription.moved, haoi]
        have hroute : (u.moved sub.aoi sub.time).rerouted (some sub.relay) = u.moved sub.aoi sub.time :=
          if_neg (fun hne => hne (congrArg Addr.hostId hrelay))
        rw [hroute, hmoved]
        exact h u hf
      · exact h u hf
  · rw [if_neg hk] at ht
    exact h t ht

theorem record_transferAll {subs : List Subscription} {r : SubscriptionRecord}
    (hsubs : ∀ sub ∈ subs, sub.id = k → sub.record = r) (h : ∀ t, q.subs.find k = some t → t.record = r)
    {t : Subscription} (ht : (subs.foldl (transferOne now) q).subs.find k = some t) : t.record = r := by
  induction subs generalizing q with
  | nil => exact h t ht
  | cons sub subs ih =>
    refine ih (fun u hu => hsubs u (List.mem_cons_of_mem _ hu)) (fun u hu => ?_) ht
    exact record_transferOne (hsubs sub List.mem_cons_self) h hu

end Transferred

section Updated

variable {now : Nat} {q : Matcher} {k : UInt64}

theorem updateOne_eq (now : Nat) (r : Matcher × List UInt64) (u : UInt64 × Area) :
    (updateOne now r u).1 = (r.1.updateSubscription now u.1 u.2 0).getD r.1 ∧
      (updateOne now r u).2 = r.2 ++ if r.1.subs.find u.1 = none then [u.1] else [] := by
  have hnone : r.1.updateSubscription now u.1 u.2 0 = none ↔ r.1.subs.find u.1 = none := by
    rw [updateSubscription, Subscriptions.updateSubscription]
    cases r.1.subs.find u.1 with
    | none => simp
    | some t => simp [Subscription.accepts]
  rw [updateOne]
  cases hu : r.1.updateSubscription now u.1 u.2 0 with
  | none => exact ⟨rfl, by rw [if_pos (hnone.mp hu)]⟩
  | some m =>
    have hne : ¬ r.1.subs.find u.1 = none := fun h0 => by simp [hnone.mpr h0] at hu
    exact ⟨rfl, by rw [if_neg hne, List.append_nil]⟩

theorem find_updateOne (now : Nat) (r : Matcher × List UInt64) (u : UInt64 × Area) (k : UInt64) :
    (updateOne now r u).1.subs.find k =
      if u.1 = k then (r.1.subs.find k).map (fun t => t.moved u.2 0) else r.1.subs.find k := by
  rw [(updateOne_eq now r u).1, find_updateD]
  rfl

theorem objRequested_updateOne (now : Nat) (r : Matcher × List UInt64) (u : UInt64 × Area) :
    (updateOne now r u).1.vso.objRequested = r.1.vso.objRequested := by
  rw [updateOne]
  cases hu : r.1.updateSubscription now u.1 u.2 0 with
  | none => rfl
  | some m =>
    obtain ⟨sub, s, -, -, rfl⟩ := updateSubscription_eq hu
    rfl

/-- What a run of updates leaves: nothing is inserted, and what is missing is missing all along. -/
theorem updateAll_eq (now : Nat) (updates : List (UInt64 × Area)) (r : Matcher × List UInt64) :
    (updates.foldl (updateOne now) r).2 =
        r.2 ++ (updates.map Prod.fst).filter (fun id => (r.1.subs.find id).isNone) ∧
      (updates.foldl (updateOne now) r).1.vso.objRequested = r.1.vso.objRequested := by
  induction updates generalizing r with
  | nil => exact ⟨(List.append_nil _).symm, rfl⟩
  | cons u updates ih =>
    obtain ⟨hmissing, hreq⟩ := ih (updateOne now r u)
    refine ⟨?_, hreq.trans (objRequested_updateOne now r u)⟩
    have hsame : (fun id => ((updateOne now r u).1.subs.find id).isNone) =
        fun id => (r.1.subs.find id).isNone := by
      funext id
      rw [find_updateOne]
      split
      · exact Option.isNone_map
      · rfl
    rw [List.foldl_cons, hmissing, hsame, (updateOne_eq now r u).2, List.map_cons, List.append_assoc]
    cases hf : r.1.subs.find u.1 with
    | none => simp [hf]
    | some t => simp [hf]

theorem moved_moved (t : Subscription) (aoi : Area) : (t.moved aoi 0).moved aoi 0 = t.moved aoi 0 := by
  have hkept (new old : UInt16) : (if new ≠ 0 then new else if new ≠ 0 then new else old) =
      if new ≠ 0 then new else old := by
    split <;> rfl
  rw [Subscription.moved, Subscription.moved]
  simp only [hkept]
  rfl

theorem find_updateAll {updates : List (UInt64 × Area)} (aoi : Area)
    (h : ∀ u ∈ updates, u.1 = k → u.2 = aoi) (r : Matcher × List UInt64) :
    (updates.foldl (updateOne now) r).1.subs.find k =
      if k ∈ updates.map Prod.fst then (r.1.subs.find k).map (fun t => t.moved aoi 0)
      else r.1.subs.find k := by
  induction updates generalizing r with
  | nil => simp
  | cons u updates ih =>
    rw [List.foldl_cons, ih (fun v hv => h v (List.mem_cons_of_mem _ hv)), find_updateOne, List.map_cons]
    by_cases hk : u.1 = k
    · have haoi := h u List.mem_cons_self hk
      rw [if_pos hk, if_pos (List.mem_cons.mpr (.inl hk.symm)), haoi]
      cases r.1.subs.find k with
      | none => simp
      | some t => simp [moved_moved]
    · have hmem : k ∈ u.1 :: updates.map Prod.fst ↔ k ∈ updates.map Prod.fst :=
        List.mem_cons.trans (or_iff_right (Ne.symm hk))
      simp only [if_neg hk, hmem]

theorem subs_subscribeUpdate (now : Nat) (q : Matcher) (sender : UInt64) (updates : List (UInt64 × Area)) :
    (q.subscribeUpdate now sender updates).subs = (updates.foldl (updateOne now) (q, [])).1.subs := by
  rw [subscribeUpdate]
  split <;> rfl

theorem requests_updateRequests {sender : UInt64} {updates : List (UInt64 × Area)}
    (h : updates.length ≤ 255) (id : UInt64) :
    VSOPeer.Requests (q.updateRequests now sender updates) sender id ↔
      id ∈ updates.map Prod.fst ∧ q.subs.find id = none ∧ q.vso.objRequested[id]? = none := by
  obtain ⟨hmissing, hreq⟩ := updateAll_eq now updates (q, [])
  have hle : (updates.foldl (updateOne now) (q, [])).2.length ≤ 255 := by
    rw [hmissing, List.nil_append]
    exact (List.length_filter_le _ _).trans ((List.length_map _).le.trans h)
  have hout : q.updateRequests now sender updates =
      ((updates.foldl (updateOne now) (q, [])).1.vso.requestObjects sender
        (updates.foldl (updateOne now) (q, [])).2).2 := by
    rw [updateRequests]
    split
    · rename_i hnil
      rw [hnil]
      rfl
    · rfl
  rw [hout, VSOPeer.mem_requestObjects hle, hmissing, hreq, List.nil_append, List.mem_filter,
    Option.isNone_iff_eq_none, and_assoc]

end Updated

def transferred (now : Nat) (m : Matcher) (neighbors : List UInt64) (q : Matcher) (list : List UInt64) :
    Matcher :=
  match m.transferSubscription neighbors q.vso.self list false with
  | none => q
  | some msg => q.handleTransfer now (msg.delivered m.vso.self)

def updated (now : Nat) (m : Matcher) (neighbors : List UInt64) (q : Matcher) (list : List UInt64) :
    Matcher × List VSOOutput :=
  match m.transferSubscription neighbors q.vso.self list true with
  | none => (q, [])
  | some msg => q.handleUpdate now (msg.delivered m.vso.self)

/-- The target `q` gets every listed subscription, or the areas of those it has. -/
structure TransfersAll (now : Nat) (neighbors : List UInt64) (m q : Matcher) (list : List UInt64) :
    Prop where
  full : ∀ id ∈ list, ∀ s, m.subs.find id = some s → ∃ t,
    (m.transferred now neighbors q list).subs.find id = some t ∧ (q.subs.find id = none → t.record = s.record)
  /-- The area is the sender's then, or the subscription has been requested before or is requested now. -/
  updated : ∀ id ∈ list, ∀ s, m.subs.find id = some s →
    (∃ t, (m.updated now neighbors q list).1.subs.find id = some t ∧ t.aoi = s.aoi) ∨
      q.vso.objRequested[id]? ≠ none ∨
        VSOPeer.Requests (m.updated now neighbors q list).2 m.vso.self id

def countedIds (m : Matcher) (list : List UInt64) : List UInt64 := (m.counted list).map Subscription.id

/-- What an update with the area `new` makes of the area `old` is `new`. -/
def Replaces (new old : Area) : Prop :=
  (new.radius = 0 → old.radius = 0) ∧ (new.height = 0 → old.height = 0)

/-- What the count does not cover, the target has already, or does not need. -/
structure CountSuffices (m q : Matcher) (list : List UInt64) : Prop where
  full : ∀ s ∈ (m.listed list).drop ((m.listed list).length % 256),
    (q.subs.find s.id).isSome = true ∨ s.id ∈ m.countedIds list
  updated : ∀ s ∈ m.listed list, q.vso.objRequested[s.id]? = none →
    match q.subs.find s.id with
    | none => s.id ∈ m.countedIds list
    | some t => if s.id ∈ m.countedIds list then Replaces s.aoi t.aoi else t.aoi = s.aoi

section Complete

variable {now : Nat} {neighbors : List UInt64} {m q : Matcher} {list : List UInt64} {s : Subscription}

theorem mem_listed : s ∈ m.listed list ↔ s.id ∈ list ∧ m.subs.find s.id = some s := by
  rw [listed, List.mem_filterMap]
  constructor
  · rintro ⟨id, hid, hf⟩
    rw [Subscriptions.find_id hf]
    exact ⟨hid, hf⟩
  · exact fun h => ⟨s.id, h⟩

theorem transferred_eq (h : q.vso.self ∈ neighbors) : m.transferred now neighbors q list =
    ((m.counted list).map (fun s => s.record.received)).foldl (transferOne now) q := by
  rw [transferred]
  rcases transferSubscription_cases m list false h with ⟨hn, hz⟩ | ⟨msg, hs, hd⟩
  · rw [hn, counted, hz]
    rfl
  · rw [hs]
    have hread : subscriptionsIn (msg.delivered m.vso.self) = _ := subscriptionsIn_eq hd rfl
    dsimp only
    rw [handleTransfer, hread]

theorem updated_eq (h : q.vso.self ∈ neighbors) : m.updated now neighbors q list =
    (q.subscribeUpdate now m.vso.self ((m.counted list).map (fun s => (s.id, s.aoi))),
      q.updateRequests now m.vso.self ((m.counted list).map (fun s => (s.id, s.aoi)))) := by
  rw [updated]
  rcases transferSubscription_cases m list true h with ⟨hn, hz⟩ | ⟨msg, hs, hd⟩
  · rw [hn, counted, hz]
    rfl
  · rw [hs]
    have hread : updatesIn (msg.delivered m.vso.self) = _ := updatesIn_eq hd rfl
    dsimp only
    rw [handleUpdate, hread]
    rfl

theorem isSome_transferred (h : q.vso.self ∈ neighbors) (id : UInt64) :
    ((m.transferred now neighbors q list).subs.find id).isSome = true ↔
      (q.subs.find id).isSome = true ∨ id ∈ m.countedIds list := by
  rw [transferred_eq h, isSome_transferAll, List.map_map]
  rfl

theorem mem_of_counted (h : s ∈ m.counted list) : s ∈ m.listed list := List.mem_of_mem_take h

theorem record_transferred (h : q.vso.self ∈ neighbors) {id : UInt64} (hs : m.subs.find id = some s)
    (hq : q.subs.find id = none) {t : Subscription}
    (ht : (m.transferred now neighbors q list).subs.find id = some t) : t.record = s.record := by
  rw [transferred_eq h] at ht
  refine record_transferAll (fun sub hsub hid => ?_) (fun u hu => ?_) ht
  · obtain ⟨u, hu, rfl⟩ := List.mem_map.mp hsub
    have huid : u.id = id := hid
    have hfind := (mem_listed.mp (mem_of_counted hu)).2
    rw [huid, hs] at hfind
    rw [Option.some.inj hfind]
    rfl
  · rw [hq] at hu
    cases hu

theorem find_updated (h : q.vso.self ∈ neighbors) {id : UInt64} (hs : m.subs.find id = some s) :
    (m.updated now neighbors q list).1.subs.find id =
      if id ∈ m.countedIds list then (q.subs.find id).map (fun t => t.moved s.aoi 0) else q.subs.find id := by
  rw [updated_eq h]
  dsimp only
  rw [subs_subscribeUpdate, find_updateAll s.aoi, List.map_map]
  · rfl
  · intro u hu hid
    obtain ⟨v, hv, rfl⟩ := List.mem_map.mp hu
    have hvid : v.id = id := hid
    have hfind := (mem_listed.mp (mem_of_counted hv)).2
    rw [hvid, hs] at hfind
    rw [Option.some.inj hfind]

theorem requests_updated (h : q.vso.self ∈ neighbors) (id : UInt64) :
    VSOPeer.Requests (m.updated now neighbors q list).2 m.vso.self id ↔
      id ∈ m.countedIds list ∧ q.subs.find id = none ∧ q.vso.objRequested[id]? = none := by
  have hle : ((m.counted list).map (fun s => (s.id, s.aoi))).length ≤ 255 := by
    rw [List.length_map, length_counted]
    omega
  rw [updated_eq h]
  dsimp only
  rw [requests_updateRequests hle, List.map_map]
  rfl

theorem aoi_moved {t : Subscription} {aoi : Area} : (t.moved aoi 0).aoi = aoi ↔ Replaces aoi t.aoi := by
  have hkept (new old : UInt16) : (if new ≠ 0 then new else old) = new ↔ (new = 0 → old = 0) := by
    by_cases hn : new = 0
    · simp [hn]
    · simp [hn]
  rw [Replaces, ← hkept aoi.radius, ← hkept aoi.height, Subscription.moved]
  constructor
  · intro he
    exact ⟨congrArg Area.radius he, congrArg Area.height he⟩
  · rintro ⟨hr, hh⟩
    rw [hr, hh]

theorem arrived_iff (h : q.vso.self ∈ neighbors) {id : UInt64} (hs : m.subs.find id = some s) :
    (∃ t, (m.transferred now neighbors q list).subs.find id = some t ∧
      (q.subs.find id = none → t.record = s.record)) ↔
        (q.subs.find id).isSome = true ∨ id ∈ m.countedIds list := by
  have hknown : ((m.transferred now neighbors q list).subs.find id).isSome = true ↔ _ := isSome_transferred h id
  rw [← hknown]
  constructor
  · rintro ⟨t, ht, -⟩
    exact Option.isSome_iff_exists.mpr ⟨t, ht⟩
  · intro hin
    obtain ⟨t, ht⟩ := Option.isSome_iff_exists.mp hin
    exact ⟨t, ht, fun hq => record_transferred h hs hq ht⟩

theorem updated_iff (h : q.vso.self ∈ neighbors) {id : UInt64} (hs : m.subs.find id = some s) :
    ((∃ t, (m.updated now neighbors q list).1.subs.find id = some t ∧ t.aoi = s.aoi) ∨
      q.vso.objRequested[id]? ≠ none ∨ VSOPeer.Requests (m.updated now neighbors q list).2 m.vso.self id) ↔
        (q.vso.objRequested[id]? = none → match q.subs.find id with
          | none => id ∈ m.countedIds list
          | some t => if id ∈ m.countedIds list then Replaces s.aoi t.aoi else t.aoi = s.aoi) := by
  by_cases hreq : q.vso.objRequested[id]? = none
  · rw [find_updated h hs, requests_updated h, forall_prop_of_true hreq]
    cases hq : q.subs.find id with
    | none => simp [hreq]
    | some t =>
      by_cases hin : id ∈ m.countedIds list
      · simp [hreq, hin, aoi_moved]
      · simp [hreq, hin]
  · exact iff_of_true (.inr (.inl hreq)) (fun h0 => absurd h0 hreq)

/-- A transfer is complete exactly when what lies beyond the count is not needed, and no update
carries a zero in the place of something else. -/
theorem transfers_all_iff (now : Nat) (neighbors : List UInt64) (m q : Matcher)
    (h : q.vso.self ∈ neighbors) (list : List UInt64) :
    TransfersAll now neighbors m q list ↔ CountSuffices m q list := by
  constructor
  · rintro ⟨hfull, hupdated⟩
    refine ⟨fun s hs => ?_, fun s hs => ?_⟩
    · obtain ⟨hid, hf⟩ := mem_listed.mp (List.mem_of_mem_drop hs)
      exact (arrived_iff h hf).mp (hfull s.id hid s hf)
    · obtain ⟨hid, hf⟩ := mem_listed.mp hs
      exact (updated_iff h hf).mp (hupdated s.id hid s hf)
  · rintro ⟨hfull, hupdated⟩
    refine ⟨fun id hid s hf => ?_, fun id hid s hf => ?_⟩
    · obtain rfl := Subscriptions.find_id hf
      have hmem : s ∈ m.listed list := mem_listed.mpr ⟨hid, hf⟩
      rw [← List.take_append_drop ((m.listed list).length % 256) (m.listed list)] at hmem
      refine (arrived_iff h hf).mpr ?_
      rcases List.mem_append.mp hmem with hin | hout
      · exact .inr (List.mem_map_of_mem hin)
      · exact hfull s hout
    · obtain rfl := Subscriptions.find_id hf
      exact (updated_iff h hf).mpr (hupdated s (mem_listed.mpr ⟨hid, hf⟩))

def matcherOf (l : List Subscription) : Matcher where
  subs := .ofEntries l
  vso := { self := 1 }

def newcomer : Matcher where
  vso := { self := 2 }

def lone : Subscription := { hostId := 3, id := 5, layer := 1, aoi := { radius := 10 } }

theorem transfers_all_lone : TransfersAll 0 [2] (matcherOf [lone]) newcomer [5, 6, 5] := by
  have hlisted : (matcherOf [lone]).listed [5, 6, 5] = [lone, lone] := rfl
  refine (transfers_all_iff 0 [2] (matcherOf [lone]) newcomer (by decide) [5, 6, 5]).mpr
    ⟨fun s hs => ?_, fun s hs _ => ?_⟩
  · rw [hlisted] at hs
    cases hs
  · rw [hlisted] at hs
    obtain rfl : s = lone := by simpa using hs
    exact List.mem_cons_self

section Crowd

variable {l : List Subscription} (hl : (l.map Subscription.id).Nodup)

include hl

theorem find_matcherOf {s : Subscription} (h : s ∈ l) : (matcherOf l).subs.find s.id = some s :=
  Subscriptions.find_ofEntries hl h

theorem listed_matcherOf : (matcherOf l).listed (l.map Subscription.id) = l := by
  have hsome : l.filterMap ((matcherOf l).subs.find ∘ Subscription.id) = l.filterMap some :=
    List.filterMap_congr (fun _ => find_matcherOf hl)
  rw [listed, List.filterMap_map, hsome, List.filterMap_some]

theorem nothing_transferred (h : q.vso.self ∈ neighbors) (hcount : l.length % 256 = 0) {id : UInt64}
    (hq : q.subs.find id = none) :
    ((matcherOf l).transferred now neighbors q (l.map Subscription.id)).subs.find id = none := by
  have hnone : (matcherOf l).countedIds (l.map Subscription.id) = [] := by
    rw [countedIds, counted, listed_matcherOf hl, hcount]
    rfl
  rw [← Option.not_isSome_iff_eq_none, isSome_transferred h, hnone, hq]
  simp

end Crowd

/-- Of 256 subscriptions the target gets none: their count is 0, and nothing is sent. -/
theorem crowd_not_transferred :
    ¬ TransfersAll 0 [2] (matcherOf crowd) newcomer (crowd.map Subscription.id) := by
  intro h
  have hin : ({ id := 1 } : Subscription) ∈ crowd := by
    rw [crowd, List.mem_map]
    exact ⟨0, List.mem_range.mpr (Nat.succ_pos 255), rfl⟩
  have hcount : crowd.length % 256 = 0 := by rw [crowd, List.length_map, List.length_range]
  have hself : newcomer.vso.self ∈ [2] := List.mem_singleton_self 2
  have hf := find_matcherOf nodup_crowd hin
  obtain ⟨t, ht, -⟩ := h.full _ (List.mem_map_of_mem hin) _ hf
  rw [nothing_transferred nodup_crowd hself hcount rfl] at ht
  cases ht

end Complete

end Matcher

end VastNC
