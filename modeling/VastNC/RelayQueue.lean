import VastNC.Relay
import VastNC.Lib.StepRun
import VastNC.Lib.Tables

/-! The messages that a relay keeps for clients it does not know yet: what becomes of each. -/

namespace VastNC

def RelayCall.delivery : RelayCall → Option (UInt64 × Message)
  | .deliver subId msg => some (subId, msg)
  | _ => none

def RelayMessage.servesQueue : RelayMessage → Bool
  | .subscribeNotify _ _ => true
  | .other _ => true
  | _ => false

inductive Fate where
  | sent (host : UInt64)
  | dropped
  | expired
  deriving DecidableEq

def Fate.delivery (msg : Message) : Fate → Option Message
  | .sent host => some { msg with targets := [host], msggroup := groupClient }
  | _ => none

namespace VASTRelay

variable {K : Type} {p q r : VASTRelay K} {id target : UInt64}

def deliveries (p : VASTRelay K) : List (UInt64 × Message) := p.net.filterMap RelayCall.delivery

def delivered (p : VASTRelay K) (target : UInt64) : List Message :=
  (p.deliveries.filter (fun e => e.1 == target)).map Prod.snd

def waiting (p : VASTRelay K) (target : UInt64) : List Message :=
  (p.queue.filter (fun e => e.1 == target)).map Prod.snd

def expiring (now : UInt64) (p : VASTRelay K) : List UInt64 :=
  let asked := { p with timeoutPing := now + p.timing.keepalive }.useEntries now
  if now ≥ p.timeoutPing ∧ asked.relays.isEmpty = false then p.expired now else []

/-- What an event makes of the messages that wait for the target. -/
def settles (target : UInt64) (p : VASTRelay K) : Event → Option Fate
  | .message _ _ (.subscribeNotify subId host) =>
    if subId = target then some (if host = 0 then .dropped else .sent host) else none
  | .postHandling now => if target ∈ p.expiring now then some .expired else none
  | _ => none

/-- The messages that an event brings for the target while no host of it is known. -/
def arrivals (target : UInt64) (p : VASTRelay K) : Event → List Message
  | .message _ _ (.other msg) =>
    (msg.targets.filter (fun t => t == target && (p.translate t).isNone)).map fun t =>
      { msg with msgtype := forwardedType msg.msgtype, targets := [t], msggroup := groupClient }
  | _ => []

/-- The first of the following events that settles the target decides. -/
def fate (target : UInt64) (p : VASTRelay K) : List Event → Option Fate
  | [] => none
  | e :: es =>
    match settles target p e with
    | some f => some f
    | none => fate target (p.step e) es

def arrived (target : UInt64) (p : VASTRelay K) : List Event → List (Message × Option Fate)
  | [] => []
  | e :: es => (arrivals target p e).map (fun msg => (msg, fate target (p.step e) es)) ++
      arrived target (p.step e) es

structure SameQueue (p q : VASTRelay K) : Prop where
  queue : q.queue = p.queue
  queueTime : q.queueTime = p.queueTime
  deliveries : q.deliveries = p.deliveries

theorem SameQueue.refl (p : VASTRelay K) : SameQueue p p := ⟨rfl, rfl, rfl⟩

theorem SameQueue.trans (hpq : SameQueue p q) (hqr : SameQueue q r) : SameQueue p r :=
  ⟨hqr.queue.trans hpq.queue, hqr.queueTime.trans hpq.queueTime, hqr.deliveries.trans hpq.deliveries⟩

theorem SameQueue.foldl {α : Type} {f : VASTRelay K → α → VASTRelay K} (hf : ∀ q x, SameQueue q (f q x))
    (p : VASTRelay K) (l : List α) : SameQueue p (l.foldl f p) :=
  List.foldlRecOn (motive := SameQueue p) l f (.refl p) fun q hq x _ => hq.trans (hf q x)

theorem deliveries_send (p : VASTRelay K) (call : RelayCall) :
    (p.send call).deliveries = p.deliveries ++ call.delivery.toList := by
  rw [deliveries, send, List.filterMap_append]
  cases h : call.delivery <;> simp [deliveries, h]

theorem sameQueue_send {call : RelayCall} (h : call.delivery = none) : SameQueue p (p.send call) := by
  refine ⟨rfl, rfl, ?_⟩
  rw [deliveries_send, h, Option.toList_none, List.append_nil]

theorem sameQueue_addRelay (now : UInt64) (p : VASTRelay K) (relay : Node) : SameQueue p (p.addRelay now relay) := by
  rw [addRelay]
  split <;> exact ⟨rfl, rfl, rfl⟩

theorem sameQueue_forget (p : VASTRelay K) (id : UInt64) : SameQueue p (p.forget id) := by
  rw [forget]
  split
  · exact ⟨rfl, rfl, rfl⟩
  · split <;> exact ⟨rfl, rfl, rfl⟩

theorem sameQueue_removeRelay (p : VASTRelay K) (id : UInt64) : SameQueue p (p.removeRelay id) := by
  have h := sameQueue_forget p id
  rw [removeRelay]
  split
  · dsimp only
    split <;> split <;> exact ⟨h.queue, h.queueTime, h.deliveries⟩
  · exact .refl p

theorem sameQueue_sendRelay {call : RelayCall} (h : call.delivery = none) (targets : List UInt64) :
    SameQueue p (p.sendRelay targets call).1 := by
  rw [sendRelay]
  split
  · exact .refl p
  · exact (sameQueue_send h).trans (.foldl sameQueue_removeRelay _ _)

theorem sameQueue_nextRelay (p : VASTRelay K) : SameQueue p p.nextRelay.1 := by
  rw [nextRelay]
  split
  · split <;> exact ⟨rfl, rfl, rfl⟩
  · exact ⟨rfl, rfl, rfl⟩

theorem sameQueue_joinRelay (now : UInt64) (p : VASTRelay K) : SameQueue p (p.joinRelay now) := by
  have h := sameQueue_nextRelay p
  rw [joinRelay]
  split
  · exact .refl p
  · dsimp only
    split
    · exact h
    · rename_i id _
      have hs : SameQueue p (p.nextRelay.1.sendRelay [id] (.join id p.nextRelay.1.self p.nextRelay.1.isRelay)).1 :=
        h.trans (sameQueue_sendRelay rfl [id])
      exact ⟨hs.queue, hs.queueTime, hs.deliveries⟩

theorem sameQueue_pong (p : VASTRelay K) (target : UInt64) (first : Bool) : SameQueue p (p.pong target first) := by
  rw [pong]
  split
  · exact sameQueue_sendRelay rfl _
  · refine SameQueue.trans ?_ (sameQueue_sendRelay rfl _)
    exact ⟨rfl, rfl, rfl⟩

theorem sameQueue_ping (now : UInt64) (p : VASTRelay K) (currRelayOnly : Bool) :
    SameQueue p (p.ping now currRelayOnly) := by
  rw [ping]
  refine SameQueue.trans ?_ (sameQueue_sendRelay rfl _)
  exact ⟨rfl, rfl, rfl⟩

theorem sameQueue_sendRelayList (p : VASTRelay K) (target : UInt64) : SameQueue p (p.sendRelayList target) := by
  rw [sendRelayList]
  split
  · exact .refl p
  · exact sameQueue_send rfl

theorem sameQueue_setJoined (p : VASTRelay K) (relayId : UInt64) : SameQueue p (p.setJoined relayId) := by
  rw [setJoined]
  split
  · exact ⟨rfl, rfl, rfl⟩
  · split
    · exact ⟨rfl, rfl, rfl⟩
    · exact .refl p

theorem sameQueue_handleQuery (joiner : Node) (forwarder : Addr) (fuel : Nat) (p : VASTRelay K) :
    SameQueue p (handleQuery joiner forwarder fuel p) := by
  induction fuel generalizing p with
  | zero => exact ⟨rfl, rfl, rfl⟩
  | succ fuel ih =>
    rw [handleQuery]
    dsimp only
    split
    · exact sameQueue_sendRelay rfl _
    · split
      · exact sameQueue_sendRelay rfl _
      · exact SameQueue.trans (sameQueue_sendRelay rfl _) (ih _)

theorem sameQueue_queryRelay (now : UInt64) (p : VASTRelay K) : SameQueue p (p.queryRelay now) := by
  rw [queryRelay]
  split
  · dsimp only
    generalize hr : ({ p with timeoutQuery := now + p.timing.query } : VASTRelay K).nextRelay = r
    have h : SameQueue p r.1 := by
      rw [← hr]
      refine SameQueue.trans ?_ (sameQueue_nextRelay _)
      exact ⟨rfl, rfl, rfl⟩
    split
    · exact ⟨h.queue, h.queueTime, h.deliveries⟩
    · rename_i id _
      have hs : SameQueue p (r.1.sendRelay [id] (.query id r.1.self (r.1.nodeOf id).addr)).1 :=
        h.trans (sameQueue_sendRelay rfl _)
      split
      · exact ⟨hs.queue, hs.queueTime, hs.deliveries⟩
      · exact hs
  · exact .refl p

theorem sameQueue_advance (now : UInt64) (p : VASTRelay K) : SameQueue p (p.advance now) := by
  rw [advance]
  split
  · split
    · refine SameQueue.trans ?_ (sameQueue_setJoined _ 0)
      exact ⟨rfl, rfl, rfl⟩
    · split
      · exact ⟨rfl, rfl, rfl⟩
      · exact .refl p
  · split
    · exact ⟨rfl, rfl, rfl⟩
    · exact sameQueue_queryRelay now p
  · split
    · exact sameQueue_joinRelay now p
    · exact .refl p
  · exact .refl p

theorem sameQueue_cleanupRelays (p : VASTRelay K) : SameQueue p p.cleanupRelays := by
  rw [cleanupRelays]
  split
  · exact .refl p
  · split
    · split
      · exact ⟨rfl, rfl, rfl⟩
      · exact .foldl sameQueue_removeRelay p _
    · exact .refl p

theorem sameQueue_useEntries (now : UInt64) (p : VASTRelay K) : SameQueue p (p.useEntries now) := by
  rw [useEntries]
  split
  · exact .foldl (sameQueue_addRelay now) p _
  · exact .refl p

theorem SameQueue.waiting (h : SameQueue p q) (target : UInt64) : q.waiting target = p.waiting target := by
  rw [VASTRelay.waiting, VASTRelay.waiting, h.queue]

theorem SameQueue.delivered (h : SameQueue p q) (target : UInt64) : q.delivered target = p.delivered target := by
  rw [VASTRelay.delivered, VASTRelay.delivered, h.deliveries]

def sentOf (e : Message × Option Fate) : Option Message := e.2.bind (Fate.delivery e.1)

def keptOf (e : Message × Option Fate) : Option Message := if e.2.isNone then some e.1 else none

/-- What happens to the messages of one target: those that wait are settled, if at all, before
others come. -/
structure Serves (target : UInt64) (settled : Option Fate) (come : List Message) (p q : VASTRelay K) : Prop where
  waiting : q.waiting target = ((p.waiting target).map (fun msg => (msg, settled))).filterMap keptOf ++ come
  delivered : q.delivered target =
    p.delivered target ++ ((p.waiting target).map (fun msg => (msg, settled))).filterMap sentOf

theorem filterMap_keptOf (l : List Message) (o : Option Fate) :
    (l.map (fun msg => (msg, o))).filterMap keptOf = if o.isNone then l else [] := by
  cases o with
  | none => simp [keptOf, Function.comp_def]
  | some f => simp [keptOf, Function.comp_def]

theorem SameQueue.serves (h : SameQueue p q) (target : UInt64) : Serves target none [] p q where
  waiting := by
    rw [h.waiting, filterMap_keptOf, List.append_nil]
    rfl
  delivered := by
    rw [h.delivered]
    simp [sentOf, Function.comp_def]

theorem SameQueue.then_serves {settled : Option Fate} {come : List Message} (h : SameQueue p q)
    (hs : Serves target settled come q r) : Serves target settled come p r := by
  refine ⟨?_, ?_⟩
  · rw [hs.waiting, h.waiting]
  · rw [hs.delivered, h.delivered, h.waiting]

theorem Serves.then_sameQueue {settled : Option Fate} {come : List Message} (hs : Serves target settled come p q)
    (h : SameQueue q r) : Serves target settled come p r := by
  refine ⟨?_, ?_⟩
  · rw [h.waiting, hs.waiting]
  · rw [h.delivered, hs.delivered]

theorem filter_key_filter_ne (l : List (UInt64 × Message)) (subId target : UInt64) :
    (l.filter (fun e => e.1 != subId)).filter (fun e => e.1 == target) =
      if subId = target then [] else l.filter (fun e => e.1 == target) := by
  rw [List.filter_filter]
  split
  · rename_i he
    subst he
    exact List.filter_eq_nil_iff.mpr fun e _ => by simp
  · rename_i he
    refine List.filter_congr fun e _ => ?_
    by_cases ht : e.1 = target
    · simp [ht, Ne.symm he]
    · simp [ht]

theorem waiting_forwardMessage (p : VASTRelay K) (subId hostId target : UInt64) :
    (p.forwardMessage subId hostId).waiting target = if subId = target then [] else p.waiting target := by
  rw [waiting, forwardMessage, filter_key_filter_ne]
  split <;> rfl

theorem delivered_forwardMessage (p : VASTRelay K) (subId hostId target : UInt64) :
    (p.forwardMessage subId hostId).delivered target = p.delivered target ++
      if subId = target ∧ hostId ≠ 0 then (p.waiting target).map (fun msg =>
        { msg with targets := [hostId], msggroup := groupClient }) else [] := by
  rw [delivered, deliveries, forwardMessage, List.filterMap_append, List.filter_append, List.map_append]
  refine congrArg (p.delivered target ++ ·) ?_
  by_cases hh : hostId = 0
  · simp [hh]
  · rw [if_neg hh, List.filterMap_map]
    have hsome : RelayCall.delivery ∘ (fun msg : Message => RelayCall.deliver subId
        { msg with targets := [hostId], msggroup := groupClient }) = fun msg =>
        some (subId, { msg with targets := [hostId], msggroup := groupClient }) := rfl
    rw [hsome, List.filterMap_eq_map', List.filter_map, List.map_map]
    by_cases hs : subId = target
    · subst hs
      rw [if_pos ⟨rfl, hh⟩, List.filter_eq_self.mpr]
      · rfl
      · simp
    · rw [if_neg fun hc => hs hc.1]
      simp [hs]

theorem serves_subscribeNotify (p : VASTRelay K) (subId host target : UInt64) :
    Serves target (if subId = target then some (if host = 0 then .dropped else .sent host) else none) []
      p ({ p with sub2client := p.sub2client.insert subId host }.forwardMessage subId host) := by
  refine ⟨?_, ?_⟩
  · rw [waiting_forwardMessage, filterMap_keptOf, List.append_nil]
    split <;> rfl
  · rw [delivered_forwardMessage]
    refine congrArg (p.delivered target ++ ·) ?_
    by_cases hs : subId = target
    · by_cases hh : host = 0
      · simp [hs, hh, sentOf, Fate.delivery, Function.comp_def]
      · rw [if_pos ⟨hs, hh⟩, if_pos hs, if_neg hh, List.filterMap_map]
        exact congrFun List.filterMap_eq_map'.symm _
    · rw [if_neg fun hc => hs hc.1, if_neg hs]
      simp [sentOf, Function.comp_def]

theorem serves_expire (p : VASTRelay K) (l : List UInt64) (target : UInt64) :
    Serves target (if target ∈ l then some .expired else none) [] p
      (l.foldl (fun p subId => p.forwardMessage subId 0) p) := by
  have h : (l.foldl (fun p subId => p.forwardMessage subId 0) p).waiting target =
        (if target ∈ l then [] else p.waiting target) ∧
      (l.foldl (fun p subId => p.forwardMessage subId 0) p).delivered target = p.delivered target := by
    induction l generalizing p with
    | nil => exact ⟨rfl, rfl⟩
    | cons subId l ih =>
      obtain ⟨hw, hd⟩ := ih (p.forwardMessage subId 0)
      rw [List.foldl_cons, hw, hd, waiting_forwardMessage, delivered_forwardMessage]
      refine ⟨?_, ?_⟩
      · by_cases hs : subId = target
        · simp [hs]
        · simp [hs, Ne.symm hs]
      · rw [if_neg fun hc => hc.2 rfl, List.append_nil]
  refine ⟨?_, ?_⟩
  · rw [h.1, filterMap_keptOf, List.append_nil]
    split <;> rfl
  · rw [h.2]
    split
    · simp [sentOf, Fate.delivery, Function.comp_def]
    · simp [sentOf, Function.comp_def]

theorem SameQueue.expired (h : SameQueue p q) (now : UInt64) : q.expired now = p.expired now := by
  rw [VASTRelay.expired, VASTRelay.expired, h.queueTime]

theorem maintain_eq (now : UInt64) (p : VASTRelay K) : ∃ q, SameQueue p q ∧
    p.maintain now = (p.expiring now).foldl (fun p subId => p.forwardMessage subId 0) q := by
  have hq : SameQueue p ({ p with timeoutPing := now + p.timing.keepalive }.useEntries now) := by
    refine SameQueue.trans ?_ (sameQueue_useEntries now _)
    exact ⟨rfl, rfl, rfl⟩
  rw [maintain, expiring]
  dsimp only
  generalize ({ p with timeoutPing := now + p.timing.keepalive } : VASTRelay K).useEntries now = q at *
  by_cases hc : now ≥ p.timeoutPing ∧ q.relays.isEmpty = false
  · have hp := hq.trans (sameQueue_ping now q q.isJoined)
    rw [if_pos hc, if_pos hc.1, if_neg (Bool.eq_false_iff.mp hc.2), hp.expired]
    exact ⟨_, hp, rfl⟩
  · rw [if_neg hc]
    split
    · rename_i hnow
      rw [if_pos (Bool.not_eq_false _ ▸ fun he => hc ⟨hnow, he⟩)]
      exact ⟨q, hq, rfl⟩
    · exact ⟨p, .refl p, rfl⟩

theorem serves_maintain (now : UInt64) (p : VASTRelay K) (target : UInt64) :
    Serves target (if target ∈ p.expiring now then some .expired else none) [] p (p.maintain now) := by
  obtain ⟨q, hq, he⟩ := maintain_eq now p
  rw [he]
  exact hq.then_serves (serves_expire q _ target)

theorem serves_enqueue (now : UInt64) (msg : Message) (p : VASTRelay K) (l : List UInt64) (target : UInt64) :
    Serves target none ((l.filter (fun t => t == target)).map fun t =>
      { msg with targets := [t], msggroup := groupClient }) p (l.foldl (enqueue now msg) p) := by
  have h : (l.foldl (enqueue now msg) p).waiting target = p.waiting target ++
        ((l.filter (fun t => t == target)).map fun t =>
          { msg with targets := [t], msggroup := groupClient }) ∧
      (l.foldl (enqueue now msg) p).deliveries = p.deliveries := by
    induction l generalizing p with
    | nil => exact ⟨(List.append_nil _).symm, rfl⟩
    | cons t l ih =>
      obtain ⟨hw, hd⟩ := ih (enqueue now msg p t)
      have hone : (enqueue now msg p t).waiting target = p.waiting target ++
          ([t].filter (fun t => t == target)).map fun t =>
            { msg with targets := [t], msggroup := groupClient } := by
        rw [waiting, enqueue, List.filter_append, List.map_append]
        refine congrArg (p.waiting target ++ ·) ?_
        by_cases ht : t = target
        · simp [ht]
        · simp [ht]
      rw [List.foldl_cons, hw, hd, hone, List.append_assoc, ← List.map_append, ← List.filter_append]
      exact ⟨rfl, rfl⟩
  refine ⟨?_, ?_⟩
  · rw [h.1, filterMap_keptOf]
    rfl
  · rw [delivered, h.2]
    simp [delivered, sentOf, Function.comp_def]

theorem serves_forward (now : UInt64) (p : VASTRelay K) (msg : Message) (target : UInt64) :
    Serves target none ((msg.targets.filter (fun t => t == target && (p.translate t).isNone)).map fun t =>
      { msg with targets := [t], msggroup := groupClient }) p (p.forward now msg) := by
  have h := serves_enqueue now msg p (msg.targets.filter (fun t => (p.translate t).isNone)) target
  rw [List.filter_filter] at h
  rw [forward]
  split
  · exact h
  · exact h.then_sameQueue (sameQueue_send rfl)

theorem sameQueue_handleMessage (now sender : UInt64) (p : VASTRelay K) {msg : RelayMessage}
    (h : msg.servesQueue = false) :
    SameQueue p (p.handleMessage now sender msg) := by
  cases msg with
  | ping => exact (sameQueue_pong p sender true).trans (sameQueue_sendRelayList _ sender)
  | pong initial querytime coord =>
    rw [handleMessage]
    split
    · exact sameQueue_removeRelay p sender
    · dsimp only
      split
      · refine SameQueue.trans ?_ (sameQueue_pong _ sender false)
        exact ⟨rfl, rfl, rfl⟩
      · exact ⟨rfl, rfl, rfl⟩
  | relay relays => exact .foldl (sameQueue_addRelay now) p relays
  | query joiner forwarder => exact sameQueue_handleQuery joiner forwarder _ p
  | queryR requester relay =>
    rw [handleMessage]
    split
    · have h := sameQueue_addRelay now p relay
      dsimp only
      split
      · exact (h.trans (sameQueue_addRelay now _ _)).trans (sameQueue_joinRelay now _)
      · exact h.trans (sameQueue_joinRelay now _)
    · split
      · exact sameQueue_sendRelay rfl _
      · exact .refl p
  | join joiner isRelay =>
    rw [handleMessage, handleJoin]
    refine SameQueue.trans ?_ ((sameQueue_send rfl).trans (sameQueue_sendRelayList _ joiner.id))
    split
    · exact ⟨rfl, rfl, rfl⟩
    · exact .refl p
  | joinR success =>
    rw [handleMessage]
    split
    · exact .refl p
    · split
      · exact sameQueue_joinRelay now p
      · split
        · exact (sameQueue_sendRelay rfl _).trans (sameQueue_setJoined _ 0)
        · exact sameQueue_setJoined p sender
  | subscribeNotify subId host => cases h
  | disconnect =>
    rw [handleMessage]
    split
    · exact sameQueue_removeRelay p sender
    · exact ⟨rfl, rfl, rfl⟩
  | other m => cases h

theorem serves_handleMessage (now sender : UInt64) (p : VASTRelay K) (msg : RelayMessage) (target : UInt64) :
    Serves target (settles target p (.message now sender msg)) (arrivals target p (.message now sender msg)) p
      (p.handleMessage now sender msg) := by
  cases msg with
  | subscribeNotify subId host => exact serves_subscribeNotify p subId host target
  | other m => exact serves_forward now p { m with msgtype := forwardedType m.msgtype } target
  | _ => exact (sameQueue_handleMessage now sender p rfl).serves target

theorem serves_step (p : VASTRelay K) (e : Event) (target : UInt64) :
    Serves target (settles target p e) (arrivals target p e) p (p.step e) := by
  cases e with
  | message now sender msg => exact serves_handleMessage now sender p msg target
  | postHandling now =>
    have h := sameQueue_advance now (p.maintain now)
    exact (serves_maintain now p target).then_sameQueue (h.trans (sameQueue_cleanupRelays _))

theorem serves_run (p : VASTRelay K) (es : List Event) (target : UInt64) :
    (es.foldl step p).delivered target = p.delivered target ++
        ((p.waiting target).map (fun msg => (msg, fate target p es)) ++ arrived target p es).filterMap sentOf ∧
      (es.foldl step p).waiting target =
        ((p.waiting target).map (fun msg => (msg, fate target p es)) ++ arrived target p es).filterMap keptOf := by
  induction es generalizing p with
  | nil =>
    refine ⟨?_, ?_⟩
    · simp [fate, arrived, sentOf, Function.comp_def]
    · rw [arrived, List.append_nil, filterMap_keptOf]
      rfl
  | cons e es ih =>
    obtain ⟨hd, hw⟩ := ih (p.step e)
    have h := serves_step p e target
    have hall : ((p.step e).waiting target).map (fun msg => (msg, fate target (p.step e) es)) ++
        arrived target (p.step e) es =
      (((p.waiting target).map (fun msg => (msg, settles target p e))).filterMap keptOf).map
        (fun msg => (msg, fate target (p.step e) es)) ++ arrived target p (e :: es) := by
      rw [h.waiting, List.map_append, List.append_assoc, arrived]
    rw [List.foldl_cons, hd, hw, hall, h.delivered, filterMap_keptOf]
    cases hs : settles target p e with
    | none =>
      have hf : fate target p (e :: es) = fate target (p.step e) es := by rw [fate, hs]
      have hnone : ((p.waiting target).map (fun msg => (msg, (none : Option Fate)))).filterMap sentOf = [] := by
        simp [sentOf, Function.comp_def]
      rw [hnone, List.append_nil, hf]
      exact ⟨rfl, rfl⟩
    | some f =>
      have hf : fate target p (e :: es) = some f := by rw [fate, hs]
      have hkept : ((p.waiting target).map (fun msg => (msg, some f))).filterMap keptOf = [] := filterMap_keptOf _ _
      rw [hf]
      refine ⟨?_, ?_⟩
      · rw [List.filterMap_append, List.filterMap_append, List.append_assoc]
        rfl
      · rw [List.filterMap_append, List.filterMap_append, hkept]
        rfl

def SameKeys (p : VASTRelay K) : Prop := ∀ id, id ∈ p.queueTime ↔ id ∈ p.queue.map Prod.fst

theorem SameKeys.of_sameQueue (h : SameKeys p) (hq : SameQueue p q) : SameKeys q := by
  intro id
  rw [hq.queue, hq.queueTime]
  exact h id

theorem mem_keys_filter {l : List (UInt64 × Message)} {subId : UInt64} :
    id ∈ (l.filter (fun e => e.1 != subId)).map Prod.fst ↔ id ≠ subId ∧ id ∈ l.map Prod.fst := by
  simp only [List.mem_map, List.mem_filter, bne_iff_ne]
  constructor
  · rintro ⟨e, ⟨he, hne⟩, rfl⟩
    exact ⟨hne, e, he, rfl⟩
  · rintro ⟨hne, e, he, rfl⟩
    exact ⟨e, ⟨he, hne⟩, rfl⟩

theorem waiting_eq_nil : p.waiting target = [] ↔ target ∉ p.queue.map Prod.fst := by
  rw [waiting, List.map_eq_nil_iff, List.filter_eq_nil_iff, List.mem_map]
  constructor
  · rintro h ⟨e, he, hk⟩
    exact h e he (beq_iff_eq.mpr hk)
  · exact fun h e he hk => h ⟨e, he, beq_iff_eq.mp hk⟩

theorem SameKeys.forwardMessage (h : SameKeys p) (subId hostId : UInt64) : SameKeys (p.forwardMessage subId hostId) := by
  intro id
  rw [VASTRelay.forwardMessage, mem_keys_filter, ← waiting]
  dsimp only
  split
  · rename_i hw
    rw [h]
    refine (and_iff_right_of_imp fun hm he => ?_).symm
    subst he
    exact waiting_eq_nil.mp hw hm
  · rw [Tables.mem_erase_iff, h]

theorem SameKeys.enqueue (h : SameKeys p) (now : UInt64) (msg : Message) (target : UInt64) :
    SameKeys (enqueue now msg p target) := by
  intro id
  rw [VASTRelay.enqueue, Tables.mem_insert_iff, List.map_append, List.mem_append, h, or_comm]
  exact or_congr_right List.mem_singleton.symm

theorem SameKeys.forward (h : SameKeys p) (now : UInt64) (msg : Message) : SameKeys (p.forward now msg) := by
  have hq (l : List UInt64) : SameKeys (l.foldl (VASTRelay.enqueue now msg) p) :=
    List.foldlRecOn l _ h fun q hq t _ => hq.enqueue now msg t
  rw [VASTRelay.forward]
  split
  · exact hq _
  · exact (hq _).of_sameQueue (sameQueue_send rfl)

theorem SameKeys.handleMessage (h : SameKeys p) (now sender : UInt64) (msg : RelayMessage) :
    SameKeys (p.handleMessage now sender msg) := by
  cases msg with
  | subscribeNotify subId host =>
    refine SameKeys.forwardMessage ?_ subId host
    exact h
  | other m => exact h.forward now _
  | _ => exact h.of_sameQueue (sameQueue_handleMessage now sender p rfl)

theorem SameKeys.step (h : SameKeys p) (e : Event) : SameKeys (p.step e) := by
  cases e with
  | message now sender msg => exact h.handleMessage now sender msg
  | postHandling now =>
    obtain ⟨q, hq, he⟩ := maintain_eq now p
    have hm : SameKeys (p.maintain now) := by
      rw [he]
      exact List.foldlRecOn _ _ (h.of_sameQueue hq) fun r hr subId _ => hr.forwardMessage subId 0
    exact hm.of_sameQueue ((sameQueue_advance now _).trans (sameQueue_cleanupRelays _))

theorem SameKeys.run (h : SameKeys p) (es : List Event) : SameKeys (es.foldl VASTRelay.step p) := by
  induction es generalizing p with
  | nil => exact h
  | cons e es ih => exact ih (h.step e)

theorem relay_queue_settled (c : VASTRelay K) (es : List Event) (target : UInt64) :
    (es.foldl step c.constructed).SameKeys ∧
      (es.foldl step c.constructed).delivered target = (arrived target c.constructed es).filterMap sentOf ∧
      (es.foldl step c.constructed).waiting target = (arrived target c.constructed es).filterMap keptOf := by
  have hkeys : c.constructed.SameKeys := fun _ => iff_of_false Std.ExtTreeMap.not_mem_empty List.not_mem_nil
  obtain ⟨hd, hw⟩ := serves_run c.constructed es target
  exact ⟨hkeys.run es, hd, hw⟩

def idleRelay : VASTRelay Unit where
  metric := ⟨fun _ _ => (), fun _ _ => false, fun _ _ => false⟩
  self := { id := 1 }
  asRelay := true
  isPublic := true
  clientLimit := 0
  relayLimit := 0
  timing := ⟨500, 500, 500, 50⟩
  entries := []
  fails _ _ := false
  selected _ _ := true
  tempCoord := {}

/-- A message for subscription 7, and a notification that names `NET_ID_UNASSIGNED`. -/
def unassignedRun : List Event :=
  [.message 0 9 (.other { msgtype := 49, targets := [7] }), .message 0 9 (.subscribeNotify 7 0)]

theorem unassigned_host_drops :
    (arrived 7 idleRelay.constructed unassignedRun).map Prod.snd = [some .dropped] ∧
      (unassignedRun.foldl step idleRelay.constructed).delivered 7 = [] ∧
      (unassignedRun.foldl step idleRelay.constructed).waiting 7 = [] := by
  decide

end VASTRelay

end VastNC
