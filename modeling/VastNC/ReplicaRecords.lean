import VastNC.Lib.EventLog
import VastNC.SubscriptionTransfer

/-! Which neighbours a matcher takes to have a full copy of a subscription, and what it has sent them. -/

namespace VastNC

open Std (ExtTreeMap)
open EventLog (Since since_append)

/-- What is sent, and from where on a copy is needed again: the id is added, or its relay has changed. -/
inductive CopyEvent where
  | sent (msg : Message)
  | renewed (id : UInt64)

abbrev Replicas := ExtTreeMap UInt64 (ExtTreeMap UInt64 Bool)

/-- A matcher with the neighbours it knows and its records of who has a copy of what. The code has no log. -/
structure Replicator where
  matcher : Matcher
  neighbors : List UInt64 := []
  replicas : Replicas := ∅
  log : List CopyEvent := []

/-- The calls that change the tables of a matcher; `vso` is what the `VSOPeer` does by itself. -/
inductive MatcherCall where
  | addSubscription (sub : Subscription) (isOwner : Bool)
  | removeSubscription (id : UInt64)
  | updateSubscription (id : UInt64) (aoi : Area) (sendtime : UInt64) (relay : Option Addr) (isOwner : Option Bool)
  | copyObject (target : UInt64) (list : List UInt64) (updateOnly : Bool)
  | refreshMatcherList (neighbors : List UInt64)
  | vso (vso : VSOPeer)

def Subscription.changesRelay (s : Subscription) : Option Addr → Bool
  | some relay => s.relay.hostId != relay.hostId
  | none => false

def Replicas.recorded (m : Replicas) (id target : UInt64) : Bool := m[id]?.any (fun hosts => hosts.contains target)

/-- One id of `copyObject`: the records, the ids to be copied in full, and those to be updated. -/
def Replicas.recordOne (target : UInt64) (r : Replicas × List UInt64 × List UInt64) (id : UInt64) :
    Replicas × List UInt64 × List UInt64 :=
  let hosts := r.1[id]?.getD ∅
  if hosts.contains target then (r.1, r.2.1, r.2.2 ++ [id])
  else (r.1.insert id (hosts.insert target true), r.2.1 ++ [id], r.2.2)

namespace Replicator

def addSubscription (now : Nat) (r : Replicator) (sub : Subscription) (isOwner : Bool) : Replicator :=
  { r with
    matcher := r.matcher.addSubscription now sub isOwner
    log := if r.matcher.subs.find sub.id = none then r.log ++ [.renewed sub.id] else r.log }

def removeSubscription (r : Replicator) (id : UInt64) : Replicator :=
  match r.matcher.subs.find id with
  | none => r
  | some _ => { r with matcher := r.matcher.removeSubscription id, replicas := r.replicas.erase id }

def updateSubscription (now : Nat) (r : Replicator) (id : UInt64) (aoi : Area) (sendtime : UInt64)
    (relay : Option Addr) (isOwner : Option Bool) : Replicator :=
  match r.matcher.updateSubscription now id aoi sendtime relay isOwner with
  | none => r
  | some m =>
    if (r.matcher.subs.find id).any (fun s => s.changesRelay relay) then
      { r with
        matcher := m
        replicas := if m.vso.isOwner id then r.replicas.erase id else r.replicas
        log := r.log ++ [.renewed id] }
    else { r with matcher := m }

def copyObject (r : Replicator) (target : UInt64) (list : List UInt64) (updateOnly : Bool) : Replicator :=
  let s := if updateOnly then list.foldl (Replicas.recordOne target) (r.replicas, [], []) else (r.replicas, list, [])
  let transfer (list : List UInt64) (updateOnly : Bool) : Option Message :=
    if list = [] then none else r.matcher.transferSubscription r.neighbors target list updateOnly
  { r with
    replicas := s.1
    log := r.log ++ ((transfer s.2.1 false).toList ++ (transfer s.2.2 true).toList).map .sent }

def call (now : Nat) (r : Replicator) : MatcherCall → Replicator
  | .addSubscription sub isOwner => r.addSubscription now sub isOwner
  | .removeSubscription id => r.removeSubscription id
  | .updateSubscription id aoi sendtime relay isOwner => r.updateSubscription now id aoi sendtime relay isOwner
  | .copyObject target list updateOnly => r.copyObject target list updateOnly
  | .refreshMatcherList neighbors => { r with neighbors }
  | .vso vso => { r with matcher := { r.matcher with vso } }

def step (r : Replicator) (c : Nat × MatcherCall) : Replicator := r.call c.1 c.2

end Replicator

/-- The target reads the full subscription from the message. -/
def CopyEvent.Carries (id target : UInt64) : CopyEvent → Prop
  | .sent msg => msg.msgtype = subscribeTransferType ∧ target ∈ msg.targets ∧
      ∃ sub ∈ Matcher.subscriptionsIn msg.reset, sub.id = id
  | .renewed _ => False

namespace Replicator

/-- Whoever is recorded has been sent the subscription in full since it was added or changed its relay. -/
def Truthful (r : Replicator) : Prop :=
  ∀ id target, r.replicas.recorded id target = true → Since (· = .renewed id) (CopyEvent.Carries id target) r.log

/-- First copies go to a neighbour, of subscriptions that exist and as many as a byte counts, and a relay
changes only where the matcher owns the subscription or has no record of it. -/
def KeepsRecords (r : Replicator) (c : Nat × MatcherCall) : Prop :=
  match c.2 with
  | .copyObject target list true =>
    let new := list.filter (fun id => !r.replicas.recorded id target)
    new ≠ [] → target ∈ r.neighbors ∧ (∀ id ∈ new, (r.matcher.subs.find id).isSome = true) ∧ new.dedup.length ≤ 255
  | .updateSubscription id _ sendtime relay isOwner => ∀ s, r.matcher.subs.find id = some s →
      s.accepts sendtime = true → s.changesRelay relay = true →
        r.matcher.vso.objects[id]?.any (fun so => isOwner.getD so.isOwner) = true ∨
          ∀ target, r.replicas.recorded id target = false
  | _ => True

end Replicator

theorem Subscriptions.eq_of_table {m n : Subscriptions} (h : m.table = n.table) : m = n := by
  cases m
  cases n
  cases h
  rfl

namespace Replicas

variable {m : Replicas} {id target j u : UInt64}

theorem recorded_empty : recorded ∅ j u = false := by
  rw [recorded, ExtTreeMap.getElem?_empty]
  rfl

theorem recorded_erase : recorded (m.erase id) j u = (id != j && m.recorded j u) := by
  rw [recorded, ExtTreeMap.getElem?_erase]
  by_cases h : id = j
  · simp [h]
  · simp [h, recorded]

theorem recorded_getD : ((m[id]?.getD ∅).contains u) = m.recorded id u := by
  rw [recorded]
  cases m[id]? with
  | none => simp
  | some hosts => rfl

theorem recorded_insert : recorded (m.insert id ((m[id]?.getD ∅).insert target true)) j u =
    (m.recorded j u || (id == j && target == u)) := by
  rw [recorded, ExtTreeMap.getElem?_insert]
  by_cases h : id = j
  · subst h
    have hold : ((m[id]?.getD ∅).contains u) = m.recorded id u := recorded_getD
    by_cases hu : target = u
    · simp [hu]
    · have hne : compare target u ≠ .eq := fun hc => hu (Std.compare_eq_iff_eq.mp hc)
      simp [ExtTreeMap.contains_insert, hold, hne, beq_false_of_ne hu]
  · simp [h, recorded]

theorem recordOne_eq (r : Replicas × List UInt64 × List UInt64) : recordOne target r id =
    if r.1.recorded id target then (r.1, r.2.1, r.2.2 ++ [id])
    else (r.1.insert id ((r.1[id]?.getD ∅).insert target true), r.2.1 ++ [id], r.2.2) := by
  rw [recordOne, ← recorded_getD]

/-- The records after a list of ids, and those of the list that had none, each once. -/
theorem foldl_recordOne (target : UInt64) (list : List UInt64) (r : Replicas × List UInt64 × List UInt64)
    (hfull : ∀ k ∈ r.2.1, r.1.recorded k target = true) (hnd : r.2.1.Nodup) :
    (∀ j u, (list.foldl (recordOne target) r).1.recorded j u =
      (r.1.recorded j u || (list.contains j && target == u))) ∧
    (∀ j, j ∈ (list.foldl (recordOne target) r).2.1 ↔ j ∈ r.2.1 ∨ j ∈ list ∧ r.1.recorded j target = false) ∧
    (list.foldl (recordOne target) r).2.1.Nodup := by
  induction list generalizing r with
  | nil => exact ⟨by simp, by simp, hnd⟩
  | cons id list ih =>
    rw [List.foldl_cons, recordOne_eq]
    by_cases hid : r.1.recorded id target = true
    · rw [if_pos hid]
      obtain ⟨h₁, h₂, h₃⟩ := ih (r.1, r.2.1, r.2.2 ++ [id]) hfull hnd
      refine ⟨fun j u => ?_, fun j => ?_, h₃⟩
      · rw [h₁]
        by_cases hj : j = id
        · subst hj
          by_cases hu : target = u
          · simp [hu ▸ hid]
          · simp [beq_false_of_ne hu]
        · simp [hj]
      · rw [h₂, List.mem_cons]
        by_cases hj : j = id
        · subst hj
          simp [hid]
        · simp [hj]
    · rw [if_neg hid]
      have hnew : id ∉ r.2.1 := fun hk => hid (hfull id hk)
      have hnd' : (r.2.1 ++ [id]).Nodup := by
        rw [← List.concat_eq_append]
        exact hnd.concat hnew
      have hfull' : ∀ k ∈ r.2.1 ++ [id],
          recorded (r.1.insert id ((r.1[id]?.getD ∅).insert target true)) k target = true := by
        intro k hk
        rw [recorded_insert]
        rcases List.mem_append.mp hk with hk | hk
        · simp [hfull k hk]
        · simp [List.mem_singleton.mp hk]
      obtain ⟨h₁, h₂, h₃⟩ :=
        ih (r.1.insert id ((r.1[id]?.getD ∅).insert target true), r.2.1 ++ [id], r.2.2) hfull' hnd'
      refine ⟨fun j u => ?_, fun j => ?_, h₃⟩
      · rw [h₁, recorded_insert, List.contains_cons, Bool.or_assoc]
        by_cases hj : j = id
        · subst hj
          cases target == u <;> simp
        · simp [beq_false_of_ne hj, beq_false_of_ne (Ne.symm hj)]
      · rw [h₂, recorded_insert, List.mem_cons]
        by_cases hj : j = id
        · subst hj
          simp [Bool.not_eq_true _ ▸ hid]
        · simp [hj, beq_false_of_ne (Ne.symm hj)]

end Replicas

namespace Matcher

open Message

variable {m : Matcher} {neighbors list : List UInt64} {target id : UInt64} {msg : Message}

theorem storeSubscriptions_head (updateOnly : Bool) (subs : Subscriptions) (list : List UInt64) (r : Message × UInt8)
    (h : r.1.alloc = true) :
    (list.foldl (storeSubscription updateOnly subs) r).1.msgtype = r.1.msgtype ∧
      (list.foldl (storeSubscription updateOnly subs) r).1.targets = r.1.targets ∧
      (list.foldl (storeSubscription updateOnly subs) r).1.alloc = true := by
  refine List.foldlRecOn (motive := fun q : Message × UInt8 => q.1.msgtype = r.1.msgtype ∧
    q.1.targets = r.1.targets ∧ q.1.alloc = true) list _ ⟨rfl, rfl, h⟩ fun q hq id _ => ?_
  obtain ⟨htype, htargets, halloc⟩ := hq
  rw [storeSubscription]
  split
  · rename_i s hs
    cases updateOnly with
    | false =>
      obtain ⟨free, capacity, hput⟩ := put_eq halloc (SubscriptionRecord.codec.encode s.record)
      show (q.1.put (SubscriptionRecord.codec.encode s.record)).msgtype = _ ∧
        (q.1.put (SubscriptionRecord.codec.encode s.record)).targets = _ ∧ _
      exact ⟨by rw [hput, htype], by rw [hput, htargets], alloc_put halloc _⟩
    | true =>
      obtain ⟨free, capacity, hput⟩ := put_eq halloc (FixedCodec.u64.encode id)
      obtain ⟨free', capacity', hput'⟩ := put_eq (alloc_put halloc (FixedCodec.u64.encode id)) (Area.codec.encode s.aoi)
      show ((q.1.put (FixedCodec.u64.encode id)).put (Area.codec.encode s.aoi)).msgtype = _ ∧
        ((q.1.put (FixedCodec.u64.encode id)).put (Area.codec.encode s.aoi)).targets = _ ∧ _
      exact ⟨by rw [hput', hput, htype], by rw [hput', hput, htargets], alloc_put (alloc_put halloc _) _⟩
  · exact ⟨htype, htargets, halloc⟩

theorem transferSubscription_head {updateOnly : Bool}
    (h : m.transferSubscription neighbors target list updateOnly = some msg) :
    msg.msgtype = (if updateOnly then subscribeUpdateType else subscribeTransferType) ∧ target ∈ msg.targets := by
  have halloc : (({ msgtype := subscribeTransferType, priority := 1 } : Message).addTarget target).alloc = true := rfl
  have htarget : target ∈ (({ msgtype := subscribeTransferType, priority := 1 } : Message).addTarget target).targets :=
    List.mem_singleton_self target
  obtain ⟨htype, htargets, hput⟩ := storeSubscriptions_head updateOnly m.subs list
    (({ msgtype := subscribeTransferType, priority := 1 } : Message).addTarget target, 0) halloc
  rw [transferSubscription] at h
  dsimp only at h
  generalize list.foldl (storeSubscription updateOnly m.subs) _ = r at htype htargets hput h
  split at h
  · cases h
  · split at h
    · cases updateOnly with
      | false =>
        obtain ⟨free, capacity, hcount⟩ := put_eq hput (FixedCodec.u8.encode r.2)
        obtain rfl : r.1.put (FixedCodec.u8.encode r.2) = msg := Option.some.inj h
        rw [hcount]
        exact ⟨htype, htargets ▸ htarget⟩
      | true =>
        obtain ⟨free, capacity, hcount⟩ :=
          put_eq (m := { r.1 with msgtype := subscribeUpdateType }) hput (FixedCodec.u8.encode r.2)
        obtain rfl : Message.put { r.1 with msgtype := subscribeUpdateType } (FixedCodec.u8.encode r.2) = msg :=
          Option.some.inj h
        rw [hcount]
        exact ⟨rfl, htargets ▸ htarget⟩
    · cases h

theorem transferSubscription_none {updateOnly : Bool} (hcount : (m.listed list).length % 256 = 0) :
    m.transferSubscription neighbors target list updateOnly = none := by
  have halloc : (({ msgtype := subscribeTransferType, priority := 1 } : Message).addTarget target).alloc = true := rfl
  obtain ⟨-, -, hn⟩ := foldl_storeSubscription updateOnly m list
    (({ msgtype := subscribeTransferType, priority := 1 } : Message).addTarget target, 0) halloc
  rw [transferSubscription]
  dsimp only
  generalize list.foldl (storeSubscription updateOnly m.subs) _ = r at hn ⊢
  have hzero : ¬ r.2 > 0 := by
    rw [hn, UInt8.zero_add, gt_iff_lt, UInt8.lt_iff_toNat_lt, UInt8.toNat_ofNat', hcount]
    exact Nat.lt_irrefl 0
  rw [if_neg hzero, ite_self]

theorem length_listed (hknown : ∀ k ∈ list, (m.subs.find k).isSome = true) : (m.listed list).length = list.length := by
  rw [listed, List.length_filterMap_eq_countP, List.countP_eq_length]
  exact hknown

theorem transferSubscription_carries (htarget : target ∈ neighbors)
    (hknown : ∀ k ∈ list, (m.subs.find k).isSome = true) (hlen : list.length ≤ 255) (hid : id ∈ list) :
    ∃ msg, m.transferSubscription neighbors target list false = some msg ∧
      CopyEvent.Carries id target (.sent msg) := by
  have hlength := length_listed hknown
  have hpos : 0 < list.length := List.length_pos_of_mem hid
  have hmod : (m.listed list).length % 256 = (m.listed list).length := Nat.mod_eq_of_lt (by omega)
  obtain ⟨s, hs⟩ := Option.isSome_iff_exists.mp (hknown id hid)
  rcases transferSubscription_cases m list false htarget with ⟨-, hz⟩ | ⟨msg, hmsg, hdata⟩
  · omega
  · obtain ⟨htype, htargets⟩ := transferSubscription_head hmsg
    have hread : subscriptionsIn msg.reset = _ := subscriptionsIn_eq hdata rfl
    have hcounted : m.counted list = m.listed list := by rw [counted, hmod, List.take_length]
    refine ⟨msg, hmsg, htype, htargets, s.record.received, ?_, (Subscriptions.find_id hs : s.id = id)⟩
    rw [hread, hcounted]
    exact List.mem_map_of_mem (List.mem_filterMap.mpr ⟨id, hid, hs⟩)

theorem find_isSome_addSubscription (m : Matcher) (now : Nat) (sub : Subscription) (isOwner : Bool) (k : UInt64) :
    ((m.addSubscription now sub isOwner).subs.find k).isSome = (sub.id == k || (m.subs.find k).isSome) := by
  rw [addSubscription, Subscriptions.addSubscription]
  cases hf : m.subs.find sub.id with
  | none => exact Subscriptions.isSome_insert m.subs _ k
  | some s =>
    by_cases hk : sub.id = k
    · simp [← hk, hf]
    · simp [hk]

theorem find_isSome_updateSubscription {now : Nat} {aoi : Area} {sendtime : UInt64} {relay : Option Addr}
    {isOwner : Option Bool} {m' : Matcher} (h : m.updateSubscription now id aoi sendtime relay isOwner = some m')
    (k : UInt64) : (m'.subs.find k).isSome = (m.subs.find k).isSome := by
  obtain ⟨sub, s, hf, hid, rfl⟩ := updateSubscription_eq h
  rw [Subscriptions.isSome_insert, hid]
  by_cases hk : id = k
  · simp [← hk, hf]
  · simp [hk]

theorem updateSubscription_accepts {now : Nat} {aoi : Area} {sendtime : UInt64} {relay : Option Addr}
    {isOwner : Option Bool} {m' : Matcher} (h : m.updateSubscription now id aoi sendtime relay isOwner = some m')
    {s : Subscription} (hs : m.subs.find id = some s) : s.accepts sendtime = true := by
  rw [updateSubscription, Subscriptions.updateSubscription, hs] at h
  simp only [Option.bind_eq_bind, Option.bind_some] at h
  split at h
  · assumption
  · cases h

theorem isOwner_updateSubscription {now : Nat} {aoi : Area} {sendtime : UInt64} {relay : Option Addr}
    {isOwner : Option Bool} {m' : Matcher} (h : m.updateSubscription now id aoi sendtime relay isOwner = some m') :
    m'.vso.isOwner id = m.vso.objects[id]?.any (fun so => isOwner.getD so.isOwner) := by
  obtain ⟨sub, s, hf, hid, rfl⟩ := updateSubscription_eq h
  rw [VSOPeer.isOwner, VSOPeer.objects_eq_slot, VSOPeer.slot_updateSharedObject, if_pos rfl, Option.any_map]

end Matcher

namespace Replicator

open Matcher (find_isSome_addSubscription find_isSome_updateSubscription)

variable {r : Replicator} {now : Nat} {id target : UInt64}

structure Faithful (r : Replicator) : Prop where
  truthful : r.Truthful
  known : ∀ id target, r.replicas.recorded id target = true → (r.matcher.subs.find id).isSome = true

theorem Faithful.addSubscription (h : r.Faithful) (sub : Subscription) (isOwner : Bool) :
    (r.addSubscription now sub isOwner).Faithful := by
  refine ⟨fun id target hr => ?_, fun id target hr => ?_⟩
  · have hold := h.truthful id target hr
    show Since _ _ (if r.matcher.subs.find sub.id = none then r.log ++ [.renewed sub.id] else r.log)
    split
    · rename_i hnew
      refine hold.append fun x hx hc => ?_
      -- a subscription that is added has been unknown, so that nobody is recorded for it
      obtain rfl : sub.id = id := CopyEvent.renewed.inj ((List.mem_singleton.mp hx).symm.trans hc)
      have hknown := h.known _ target hr
      rw [hnew] at hknown
      cases hknown
    · exact hold
  · show ((r.matcher.addSubscription now sub isOwner).subs.find id).isSome = true
    rw [find_isSome_addSubscription, h.known id target hr, Bool.or_true]

theorem Faithful.removeSubscription (h : r.Faithful) (id : UInt64) : (r.removeSubscription id).Faithful := by
  rw [Replicator.removeSubscription]
  cases hf : r.matcher.subs.find id with
  | none => exact h
  | some s =>
    have hbefore {j u : UInt64} (hr : Replicas.recorded (r.replicas.erase id) j u = true) :
        id ≠ j ∧ r.replicas.recorded j u = true := by
      rw [Replicas.recorded_erase, Bool.and_eq_true, bne_iff_ne] at hr
      exact hr
    refine ⟨fun j u hr => h.truthful j u (hbefore hr).2, fun j u hr => ?_⟩
    obtain ⟨hne, hr⟩ := hbefore hr
    have hknown := h.known j u hr
    show ((r.matcher.removeSubscription id).subs.find j).isSome = true
    rw [Matcher.removeSubscription, hf]
    dsimp only
    rw [Subscriptions.find_erase, if_neg hne]
    exact hknown

theorem Faithful.updateSubscription (h : r.Faithful) {id : UInt64} {aoi : Area} {sendtime : UInt64}
    {relay : Option Addr} {isOwner : Option Bool}
    (hk : r.KeepsRecords (now, .updateSubscription id aoi sendtime relay isOwner)) :
    (r.updateSubscription now id aoi sendtime relay isOwner).Faithful := by
  rw [Replicator.updateSubscription]
  cases hu : r.matcher.updateSubscription now id aoi sendtime relay isOwner with
  | none => exact h
  | some m =>
    have hsome (k : UInt64) := find_isSome_updateSubscription hu k
    dsimp only
    split
    · rename_i hchange
      obtain ⟨s, hs, hrelay⟩ := (Option.any_eq_true _ _).mp hchange
      -- the records of `id` go, or there are none
      have hgone (u : UInt64) : Replicas.recorded (if m.vso.isOwner id then r.replicas.erase id else r.replicas)
          id u = false := by
        rcases hk s hs (Matcher.updateSubscription_accepts hu hs) hrelay with howner | hnone
        · rw [Matcher.isOwner_updateSubscription hu, if_pos howner, Replicas.recorded_erase, bne_self_eq_false,
            Bool.false_and]
        · split
          · rw [Replicas.recorded_erase, bne_self_eq_false, Bool.false_and]
          · exact hnone u
      have hbefore {j u : UInt64} (hr : Replicas.recorded (if m.vso.isOwner id then r.replicas.erase id
          else r.replicas) j u = true) : id ≠ j ∧ r.replicas.recorded j u = true := by
        refine ⟨?_, ?_⟩
        · rintro rfl
          rw [hgone] at hr
          cases hr
        · split at hr
          · rw [Replicas.recorded_erase, Bool.and_eq_true] at hr
            exact hr.2
          · exact hr
      refine ⟨fun j u hr => ?_, fun j u hr => (hsome j).trans (h.known j u (hbefore hr).2)⟩
      obtain ⟨hne, hr⟩ := hbefore hr
      refine (h.truthful j u hr).append fun x hx hc => ?_
      exact hne (CopyEvent.renewed.inj ((List.mem_singleton.mp hx).symm.trans hc))
    · exact ⟨h.truthful, fun j u hr => (hsome j).trans (h.known j u hr)⟩

theorem recorded_copyObject (list : List UInt64) (j u : UInt64) :
    (r.copyObject target list true).replicas.recorded j u =
      (r.replicas.recorded j u || (list.contains j && target == u)) :=
  (Replicas.foldl_recordOne target list (r.replicas, [], []) (by simp) List.nodup_nil).1 j u

/-- What `copyObject` copies for the first time, and what it sends. -/
theorem copyObject_first (r : Replicator) (target : UInt64) (list : List UInt64) : ∃ full update,
    (r.copyObject target list true).log = r.log ++
      ((if full = [] then none else r.matcher.transferSubscription r.neighbors target full false).toList ++
        (if update = [] then none
          else r.matcher.transferSubscription r.neighbors target update true).toList).map .sent ∧
    (∀ k, k ∈ full ↔ k ∈ list ∧ r.replicas.recorded k target = false) ∧ full.Nodup := by
  obtain ⟨-, hfull, hnd⟩ := Replicas.foldl_recordOne target list (r.replicas, [], []) (by simp) List.nodup_nil
  refine ⟨_, _, rfl, fun k => ?_, hnd⟩
  simpa using hfull k

theorem sent_copyObject {list : List UInt64} (hid : id ∈ list) (hnew : r.replicas.recorded id target = false)
    (hk : r.KeepsRecords (now, .copyObject target list true)) :
    ∃ l, (r.copyObject target list true).log = r.log ++ l ∧ (∃ e ∈ l, CopyEvent.Carries id target e) ∧
      ∀ x ∈ l, x ≠ .renewed id := by
  obtain ⟨full, update, hlog, hfull, hnd⟩ := r.copyObject_first target list
  have hfilter (k : UInt64) : k ∈ full ↔ k ∈ list.filter (fun id => !r.replicas.recorded id target) := by
    rw [hfull, List.mem_filter, Bool.not_eq_true']
  have hin : id ∈ full := (hfull id).mpr ⟨hid, hnew⟩
  obtain ⟨htarget, hknown, hlen⟩ := hk (List.ne_nil_of_mem ((hfilter id).mp hin))
  have hlength : full.length = (list.filter (fun id => !r.replicas.recorded id target)).dedup.length := by
    refine ((List.perm_ext_iff_of_nodup hnd (List.nodup_dedup _)).mpr fun k => ?_).length_eq
    rw [hfilter, List.mem_dedup]
  obtain ⟨msg, hmsg, hcarries⟩ := Matcher.transferSubscription_carries htarget
    (fun k hk => hknown k ((hfilter k).mp hk)) (hlength.trans_le hlen) hin
  rw [if_neg (List.ne_nil_of_mem hin), hmsg] at hlog
  refine ⟨_, hlog, ⟨.sent msg, List.mem_map_of_mem (List.mem_append_left _ ?_), hcarries⟩, fun x hx => ?_⟩
  · exact List.mem_singleton_self msg
  · obtain ⟨m, -, rfl⟩ := List.mem_map.mp hx
    exact CopyEvent.noConfusion

theorem log_copyObject (r : Replicator) (target : UInt64) (list : List UInt64) (updateOnly : Bool) (id : UInt64) :
    ∃ l, (r.copyObject target list updateOnly).log = r.log ++ l ∧ ∀ x ∈ l, x ≠ .renewed id := by
  refine ⟨_, rfl, fun x hx => ?_⟩
  obtain ⟨m, -, rfl⟩ := List.mem_map.mp hx
  exact CopyEvent.noConfusion

theorem Faithful.copyObject (h : r.Faithful) {list : List UInt64} {updateOnly : Bool}
    (hk : r.KeepsRecords (now, .copyObject target list updateOnly)) :
    (r.copyObject target list updateOnly).Faithful := by
  have hstands {j u : UInt64} (hr : r.replicas.recorded j u = true) :
      Since (· = .renewed j) (CopyEvent.Carries j u) (r.copyObject target list updateOnly).log := by
    obtain ⟨l, hlog, hl⟩ := log_copyObject r target list updateOnly j
    rw [hlog]
    exact (h.truthful j u hr).append hl
  cases updateOnly with
  | false => exact ⟨fun j u hr => hstands hr, h.known⟩
  | true =>
    have hnew {j u : UInt64} (hr : (r.copyObject target list true).replicas.recorded j u = true)
        (hno : r.replicas.recorded j u = false) : j ∈ list ∧ target = u := by
      rw [recorded_copyObject, hno, Bool.false_or, Bool.and_eq_true, List.contains_iff_mem, beq_iff_eq] at hr
      exact hr
    refine ⟨fun j u hr => ?_, fun j u hr => ?_⟩
    · cases hno : r.replicas.recorded j u with
      | true => exact hstands hno
      | false =>
        obtain ⟨hj, rfl⟩ := hnew hr hno
        obtain ⟨l, hlog, ⟨e, he, hcarries⟩, hl⟩ := sent_copyObject hj hno hk
        rw [hlog]
        exact since_append he hcarries hl
    · cases hno : r.replicas.recorded j u with
      | true => exact h.known j u hno
      | false =>
        obtain ⟨hj, rfl⟩ := hnew hr hno
        have hin : j ∈ list.filter (fun id => !r.replicas.recorded id target) :=
          List.mem_filter.mpr ⟨hj, by rw [hno]; rfl⟩
        exact (hk (List.ne_nil_of_mem hin)).2.1 j hin

theorem Faithful.step (h : r.Faithful) (c : Nat × MatcherCall) (hk : r.KeepsRecords c) : (r.step c).Faithful := by
  obtain ⟨now, c⟩ := c
  cases c with
  | addSubscription sub isOwner => exact h.addSubscription sub isOwner
  | removeSubscription id => exact h.removeSubscription id
  | updateSubscription id aoi sendtime relay isOwner => exact h.updateSubscription hk
  | copyObject target list updateOnly => exact h.copyObject hk
  | refreshMatcherList neighbors => exact ⟨h.truthful, h.known⟩
  | vso vso => exact ⟨h.truthful, h.known⟩

/-- The tables come to be those of `n` by calls alone. -/
def Calls (m n : Matcher) : Prop :=
  ∃ cs : List (Nat × MatcherCall), ∀ r : Replicator, r.matcher.subs = m.subs → r.matcher.vso = m.vso →
    (cs.foldl Replicator.step r).matcher.subs = n.subs ∧ (cs.foldl Replicator.step r).matcher.vso = n.vso

namespace Calls

variable {m n k : Matcher}

theorem of_eq (hs : n.subs = m.subs) (hv : n.vso = m.vso) : Calls m n :=
  ⟨[], fun _ hr hr' => ⟨hr.trans hs.symm, hr'.trans hv.symm⟩⟩

theorem trans (h : Calls m n) (h' : Calls n k) : Calls m k := by
  obtain ⟨cs, hcs⟩ := h
  obtain ⟨cs', hcs'⟩ := h'
  refine ⟨cs ++ cs', fun r hs hv => ?_⟩
  obtain ⟨hs, hv⟩ := hcs r hs hv
  rw [List.foldl_append]
  exact hcs' _ hs hv

theorem foldl {α : Type} {f : Matcher → α → Matcher} (hf : ∀ n x, Calls n (f n x)) (l : List α) (m : Matcher) :
    Calls m (l.foldl f m) :=
  List.foldlRecOn l f (of_eq rfl rfl) fun _ hq x _ => hq.trans (hf _ x)

theorem vso (hs : n.subs = m.subs) : Calls m n :=
  ⟨[(0, .vso n.vso)], fun _ hr _ => ⟨hr.trans hs.symm, rfl⟩⟩

theorem addSubscription (now : Nat) (m : Matcher) (sub : Subscription) (isOwner : Bool) :
    Calls m (m.addSubscription now sub isOwner) := by
  refine ⟨[(now, .addSubscription sub isOwner)], fun r hs hv => ?_⟩
  show (r.matcher.addSubscription now sub isOwner).subs = _ ∧ (r.matcher.addSubscription now sub isOwner).vso = _
  rw [Matcher.addSubscription, Matcher.addSubscription, hs, hv]
  cases m.subs.addSubscription sub with
  | none => exact ⟨hs, hv⟩
  | some subs => exact ⟨rfl, rfl⟩

theorem removeSubscription (m : Matcher) (id : UInt64) : Calls m (m.removeSubscription id) := by
  refine ⟨[(0, .removeSubscription id)], fun r hs hv => ?_⟩
  show (r.removeSubscription id).matcher.subs = _ ∧ (r.removeSubscription id).matcher.vso = _
  rw [Replicator.removeSubscription, Matcher.removeSubscription.eq_def m, hs]
  cases hf : m.subs.find id with
  | none => exact ⟨hs, hv⟩
  | some s =>
    dsimp only
    rw [Matcher.removeSubscription, hs, hf, hv]
    exact ⟨rfl, rfl⟩

theorem updateSubscription (now : Nat) (m : Matcher) (id : UInt64) (aoi : Area) (sendtime : UInt64)
    (relay : Option Addr) (isOwner : Option Bool) :
    Calls m ((m.updateSubscription now id aoi sendtime relay isOwner).getD m) := by
  refine ⟨[(now, .updateSubscription id aoi sendtime relay isOwner)], fun r hs hv => ?_⟩
  show (r.updateSubscription now id aoi sendtime relay isOwner).matcher.subs = _ ∧
    (r.updateSubscription now id aoi sendtime relay isOwner).matcher.vso = _
  rw [Replicator.updateSubscription, Matcher.updateSubscription, Matcher.updateSubscription, hs, hv]
  cases hf : m.subs.find id with
  | none => exact ⟨hs, hv⟩
  | some s =>
    cases hu : m.subs.updateSubscription id aoi sendtime relay with
    | none => exact ⟨hs, hv⟩
    | some subs =>
      simp only [Option.bind_eq_bind, Option.bind_some, Option.getD_some]
      split <;> exact ⟨rfl, rfl⟩

theorem foldl_fst {α β : Type} {f : Matcher × β → α → Matcher × β} (hf : ∀ r x, Calls r.1 (f r x).1)
    (l : List α) (r : Matcher × β) : Calls r.1 (l.foldl f r).1 :=
  List.foldlRecOn (motive := fun q => Calls r.1 q.1) l f (of_eq rfl rfl) fun q hq x _ => hq.trans (hf q x)

theorem subs_removeSubscription (m : Matcher) (id : UInt64) : (m.removeSubscription id).subs = m.subs.erase id := by
  rw [Matcher.removeSubscription]
  cases hf : m.subs.find id with
  | some s => rfl
  | none =>
    apply Subscriptions.eq_of_table
    apply ExtTreeMap.ext_getElem?
    intro k
    show m.subs.table[k]? = (m.subs.table.erase id)[k]?
    rw [ExtTreeMap.getElem?_erase]
    split
    · rename_i hk
      rw [← Std.compare_eq_iff_eq.mp hk]
      exact hf
    · rfl

theorem tickVSO (t : VSOTiming) (v : VSOView) (now : Nat) (m : Matcher) : Calls m (m.tickVSO t v now) := by
  refine (foldl removeSubscription (if now ≥ m.vso.nextPeriodic then m.vso.obsolete t now else []) m).trans (vso ?_)
  exact List.foldl_hom Matcher.subs fun n id => (subs_removeSubscription n id).symm

theorem transferOne (now : Nat) (m : Matcher) (sub : Subscription) : Calls m (m.transferOne now sub) := by
  rw [Matcher.transferOne]
  split
  · exact addSubscription now m sub false
  · exact updateSubscription now m _ _ _ _ _

theorem subscribe (now : Nat) (m : Matcher) (v : VSOView) (sub : Subscription) (fresh : UInt64) :
    Calls m (m.subscribe now v sub fresh).1 := by
  rw [Matcher.subscribe]
  split
  · dsimp only
    rw [Matcher.acceptSubscription]
    split
    · exact addSubscription now m _ true
    · exact updateSubscription now m _ _ _ _ _
  · exact of_eq rfl rfl

theorem updateOne (now : Nat) (r : Matcher × List UInt64) (u : UInt64 × Area) :
    Calls r.1 (Matcher.updateOne now r u).1 := by
  have hcalls := updateSubscription now r.1 u.1 u.2 0 none none
  rw [Matcher.updateOne]
  cases hu : r.1.updateSubscription now u.1 u.2 0 with
  | none => exact of_eq rfl rfl
  | some m =>
    rw [hu] at hcalls
    exact hcalls

theorem subscribeUpdate (now : Nat) (m : Matcher) (sender : UInt64) (updates : List (UInt64 × Area)) :
    Calls m (m.subscribeUpdate now sender updates) := by
  have hcalls := foldl_fst (updateOne now) updates (m, [])
  rw [Matcher.subscribeUpdate]
  dsimp only
  split
  · exact hcalls
  · exact hcalls.trans (vso rfl)

theorem refreshOwned (now : Nat) (m : Matcher) : Calls m (m.refreshOwned now) := by
  refine foldl (fun n s => ?_) m.subs.entries m
  split
  · exact updateSubscription now n _ _ _ _ _
  · exact of_eq rfl rfl

theorem postHandling (t : VSOTiming) (v : VSOView) (now : Nat) (m : Matcher) (failed : List UInt64) :
    Calls m (m.postHandling t v now failed) := by
  rw [Matcher.postHandling]
  refine trans ?_ (tickVSO t v now _)
  split
  · have hfailed : Calls m (m.removeFailedSubscribers failed) := foldl removeSubscription failed m
    dsimp only
    split
    · have hdue : Calls (m.removeFailedSubscribers failed)
          { m.removeFailedSubscribers failed with nextPeriodic := now + t.second } := of_eq rfl rfl
      exact (hfailed.trans hdue).trans (refreshOwned now _)
    · exact hfailed
  · exact of_eq rfl rfl

theorem matcherInit (t : VSOTiming) (v : VSOView) (now : Nat) (m : Matcher) (origin : UInt64) :
    Calls m (m.matcherInit t v now origin) := by
  have hinit (n : Matcher) : Calls n { n with originId := origin, vso := { n.vso with joined := true } } := vso rfl
  have hleft : Calls m { m with vso := { m.vso with joined := false } } := vso rfl
  have hjoin : Calls (m.leave t v now) (m.leave t v now).join := vso rfl
  rw [Matcher.matcherInit]
  dsimp only
  split
  · exact ((hleft.trans (tickVSO t v now _)).trans hjoin).trans (hinit _)
  · exact hinit m

end Calls

theorem calls_handle (t : VSOTiming) (now : Nat) (m : Matcher) (e : MatcherEvent) :
    Calls m (m.handle t now e).1 := by
  have hactive (r : Matcher × Option UInt64) (h : Calls m r.1) : Calls m (m.ifActive r).1 := by
    rw [Matcher.ifActive]
    split
    · exact h
    · exact .of_eq rfl rfl
  cases e with
  | subscribe v sub fresh => exact hactive _ (.subscribe now m v sub fresh)
  | subscribeTransfer subs => exact hactive _ (.foldl (.transferOne now) subs m)
  | subscribeUpdate sender updates => exact hactive _ (.subscribeUpdate now m sender updates)
  | move id aoi sendtime => exact hactive _ (.updateSubscription now m id aoi sendtime none none)
  | leave host => exact hactive _ (.foldl .removeSubscription _ m)
  | disconnect host => exact (Calls.foldl .removeSubscription _ m).trans (.vso rfl)
  | matcherInit v origin => exact .matcherInit t v now m origin
  | transfer msg => exact .vso rfl
  | transferAck id => exact .vso rfl
  | vsoJoined joined => exact .vso rfl
  | postHandling v failed => exact .postHandling t v now m failed

def newReplicator (self : UInt64) : Replicator where
  matcher := { vso := { self, joined := false } }

theorem newReplicator_faithful (self : UInt64) : (newReplicator self).Faithful := by
  have hempty (j u : UInt64) : (newReplicator self).replicas.recorded j u = false := Replicas.recorded_empty
  constructor
  all_goals
    intro j u hr
    rw [hempty] at hr
    cases hr

/-- Along a run whose calls keep the records, a record of a copy always means that one has been sent. -/
theorem replicas_truthful (self : UInt64) (cs : List (Nat × MatcherCall))
    (h : StepRun.Along Replicator.step KeepsRecords (newReplicator self) cs) :
    StepRun.Always Replicator.step Truthful (newReplicator self) cs := by
  intro pre hpre
  exact (StepRun.always_of_along (fun r c hr hk => hr.step c hk) (newReplicator_faithful self) h pre hpre).truthful

def firstCopies : List (Nat × MatcherCall) :=
  [(0, .refreshMatcherList [2]), (0, .addSubscription { hostId := 3, id := 5, relay := { hostId := 4 } } true),
    (0, .copyObject 2 [5] true), (1, .updateSubscription 5 {} 0 (some { hostId := 6 }) (some true)),
    (1, .copyObject 2 [5] true)]

/-- The relay changes at the owner, and the second copy is a full one again. -/
theorem replicas_truthful_firstCopies :
    StepRun.Always Replicator.step Truthful (newReplicator 1) firstCopies := by
  refine replicas_truthful 1 firstCopies ⟨trivial, trivial, fun _ => ?_, fun s _ _ _ => .inl ?_, fun _ => ?_, trivial⟩
  · refine ⟨by decide, fun id hid => ?_, by decide⟩
    obtain rfl : id = 5 := List.mem_singleton.mp (List.mem_of_mem_filter hid)
    decide
  · decide
  · refine ⟨by decide, fun id hid => ?_, by decide⟩
    obtain rfl : id = 5 := List.mem_singleton.mp (List.mem_of_mem_filter hid)
    decide

/-- First copies of a multiple of 256 subscriptions: their count is 0, and nothing is sent in full. -/
theorem nothing_copied {list : List UInt64} (hnd : list.Nodup)
    (hnew : ∀ id ∈ list, r.replicas.recorded id target = false)
    (hknown : ∀ id ∈ list, (r.matcher.subs.find id).isSome = true) (hcount : list.length % 256 = 0) {e : CopyEvent}
    (he : e ∈ (r.copyObject target list true).log) (hcarries : e.Carries id target) : e ∈ r.log := by
  obtain ⟨full, update, hlog, hfull, hfullnd⟩ := r.copyObject_first target list
  have hperm : full.Perm list := by
    refine (List.perm_ext_iff_of_nodup hfullnd hnd).mpr fun k => ?_
    rw [hfull]
    exact and_iff_left_of_imp (hnew k)
  have hnone : r.matcher.transferSubscription r.neighbors target full false = none := by
    apply Matcher.transferSubscription_none
    rw [Matcher.length_listed fun k hk => hknown k (hperm.mem_iff.mp hk), hperm.length_eq, hcount]
  rw [hlog, hnone, ite_self] at he
  refine (List.mem_append.mp he).resolve_right fun he => ?_
  obtain ⟨msg, hmsg, rfl⟩ := List.mem_map.mp he
  have hupdate : r.matcher.transferSubscription r.neighbors target update true = some msg := by
    rw [Option.toList_none, List.nil_append] at hmsg
    split at hmsg
    · cases hmsg
    · exact Option.mem_toList.mp hmsg
  have htype := (Matcher.transferSubscription_head hupdate).1
  rw [hcarries.1] at htype
  exact absurd htype (by decide)

theorem step_addSubscriptions (l : List Subscription) (r : Replicator) :
    ∃ q, (l.map fun s => (0, MatcherCall.addSubscription s true)).foldl Replicator.step r = q ∧
      q.replicas = r.replicas ∧ (∀ e ∈ q.log, e ∈ r.log ∨ ∃ id, e = .renewed id) ∧
      ∀ k, (q.matcher.subs.find k).isSome = (l.any (fun s => s.id == k) || (r.matcher.subs.find k).isSome) := by
  induction l generalizing r with
  | nil => exact ⟨r, rfl, rfl, fun e he => .inl he, fun k => rfl⟩
  | cons s l ih =>
    obtain ⟨q, hq, hreplicas, hlog, hfind⟩ := ih (r.addSubscription 0 s true)
    refine ⟨q, hq, hreplicas, fun e he => ?_, fun k => ?_⟩
    · refine (hlog e he).elim (fun he => ?_) .inr
      change e ∈ (if r.matcher.subs.find s.id = none then r.log ++ [.renewed s.id] else r.log) at he
      split at he
      · exact (List.mem_append.mp he).imp_right fun he => ⟨s.id, List.mem_singleton.mp he⟩
      · exact .inl he
    · rw [hfind, List.any_cons, Bool.or_assoc, Bool.or_left_comm]
      exact congrArg _ (find_isSome_addSubscription r.matcher 0 s true k)

/-- A matcher with subscriptions of its own and one neighbour, which all of them are copied to. -/
def crowdedRun (ids : List UInt64) : List (Nat × MatcherCall) :=
  (0, .refreshMatcherList [2]) :: ((ids.map fun id => { id := id }).map fun s => (0, .addSubscription s true)) ++
    [(0, .copyObject 2 ids true)]

theorem crowded_not_truthful {ids : List UInt64} (hnd : ids.Nodup) (hcount : ids.length % 256 = 0) (hid : id ∈ ids) :
    ¬ Truthful ((crowdedRun ids).foldl Replicator.step (newReplicator 1)) := by
  obtain ⟨q, hq, hreplicas, hlog, hfind⟩ := step_addSubscriptions (ids.map fun id => { id := id })
    ((newReplicator 1).step (0, .refreshMatcherList [2]))
  have hrun : (crowdedRun ids).foldl Replicator.step (newReplicator 1) = q.copyObject 2 ids true := by
    rw [crowdedRun, List.cons_append, List.foldl_cons, List.foldl_append, hq]
    rfl
  rw [hrun]
  intro h
  have hnew (k : UInt64) (_ : k ∈ ids) : q.replicas.recorded k 2 = false := by
    rw [hreplicas]
    exact Replicas.recorded_empty
  have hknown (k : UInt64) (hk : k ∈ ids) : (q.matcher.subs.find k).isSome = true := by
    rw [hfind, Bool.or_eq_true]
    exact .inl (List.any_eq_true.mpr ⟨_, List.mem_map_of_mem hk, beq_self_eq_true k⟩)
  have hrecorded : (q.copyObject 2 ids true).replicas.recorded id 2 = true := by
    rw [recorded_copyObject, List.contains_iff_mem.mpr hid]
    simp
  obtain ⟨e, he, hcarries⟩ := (h id 2 hrecorded).mem
  have hold := nothing_copied hnd hnew hknown hcount he hcarries
  rcases hlog e hold with hnil | ⟨k, rfl⟩
  · cases hnil
  · exact hcarries

def newIds : List UInt64 := (List.range 256).map fun i => UInt64.ofNat (i + 1)

theorem nodup_newIds : newIds.Nodup := nodup_ofNat_range 1 (by decide)

/-- Of 256 subscriptions all are recorded, and none has been sent. -/
theorem newIds_not_truthful : ¬ StepRun.Always Replicator.step Truthful (newReplicator 1) (crowdedRun newIds) := by
  have hcount : newIds.length % 256 = 0 := by rw [newIds, List.length_map, List.length_range]
  have hin : (1 : UInt64) ∈ newIds := List.mem_map.mpr ⟨0, List.mem_range.mpr (Nat.succ_pos 255), rfl⟩
  exact fun h => crowded_not_truthful nodup_newIds hcount hin (h (crowdedRun newIds) List.prefix_rfl)

end Replicator

end VastNC
