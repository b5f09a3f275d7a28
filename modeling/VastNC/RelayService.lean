import VastNC.Lib.EventLog
import VastNC.Lib.Tables
import VastNC.Relay

/-! What a relay does for its clients: whom it takes on, to whom it forwards. The rest of the relay
leaves this alone, so that it is a machine of its own. -/

namespace VastNC

open Std (ExtTreeMap)
open EventLog

def RelayCall.forwarded : RelayCall → Option Message
  | .forward msg => some msg
  | _ => none

structure RelayService where
  selfId : UInt64
  asRelay : Bool
  clientLimit : Nat
  clients : ExtTreeMap UInt64 Node := ∅
  sub2client : ExtTreeMap UInt64 UInt64 := ∅
  forwards : List Message := []

/-- What concerns the clients: requests to be taken on, hosts of subscriptions, hosts that are gone (and
whether they are known as relays then) and messages to forward. -/
inductive ServiceEvent where
  | join (joiner : Node) (isRelay : Bool)
  | notify (subId host : UInt64)
  | gone (host : UInt64) (isRelay : Bool)
  | forward (msg : Message)
  | other

namespace RelayService

def accepts (s : RelayService) (joiner : Node) (isRelay : Bool) : Bool :=
  joiner.id == s.selfId ||
    s.asRelay && !isRelay && (s.clientLimit == 0 || decide (s.clients.size < s.clientLimit))

def translate (s : RelayService) (target : UInt64) : Option UInt64 :=
  match s.sub2client[target]? with
  | some host => some host
  | none => if target = s.selfId then some target else none

def forward (s : RelayService) (msg : Message) : RelayService :=
  let hosts := msg.targets.filterMap s.translate
  if hosts = [] then s
  else { s with forwards := s.forwards ++ [{ msg with targets := hosts, msggroup := groupClient }] }

def step (s : RelayService) : ServiceEvent → RelayService
  | .join joiner isRelay =>
    if s.accepts joiner isRelay then { s with clients := s.clients.insert joiner.id joiner } else s
  | .notify subId host => { s with sub2client := s.sub2client.insert subId host }
  -- of a host that is known as a relay only the relay is removed
  | .gone _ true => s
  | .gone host false =>
    { s with clients := s.clients.erase host, sub2client := s.sub2client.filter fun _ h => h != host }
  | .forward msg => s.forward msg
  | .other => s

variable {s : RelayService} {log : List ServiceEvent} {host target id : UInt64}

/-- What stays as it was constructed. -/
theorem fixed_step (s : RelayService) (e : ServiceEvent) : (s.step e).selfId = s.selfId ∧
    (s.step e).asRelay = s.asRelay ∧ (s.step e).clientLimit = s.clientLimit := by
  cases e with
  | join joiner isRelay =>
    rw [step]
    split <;> exact ⟨rfl, rfl, rfl⟩
  | forward msg =>
    rw [step, forward]
    split <;> exact ⟨rfl, rfl, rfl⟩
  | gone host isRelay => cases isRelay <;> exact ⟨rfl, rfl, rfl⟩
  | _ => exact ⟨rfl, rfl, rfl⟩

theorem fixed_run (s : RelayService) (log : List ServiceEvent) : (log.foldl step s).selfId = s.selfId ∧
    (log.foldl step s).asRelay = s.asRelay ∧ (log.foldl step s).clientLimit = s.clientLimit := by
  induction log generalizing s with
  | nil => exact ⟨rfl, rfl, rfl⟩
  | cons e log ih =>
    obtain ⟨hself, hrelay, hlimit⟩ := fixed_step s e
    rw [List.foldl_cons, ← hself, ← hrelay, ← hlimit]
    exact ih (s.step e)

/-- The host asked to be served, not as a relay, and has not gone since but as a relay. -/
def Asked (id : UInt64) (log : List ServiceEvent) : Prop :=
  Since (· = .gone id false) (fun e => ∃ joiner, e = .join joiner false ∧ joiner.id = id) log

/-- The host was the last named for the subscription, and has not gone since but as a relay. -/
def Routes (subId host : UInt64) (log : List ServiceEvent) : Prop :=
  Since (fun e => e = .gone host false ∨ ∃ h, e = .notify subId h) (· = .notify subId host) log

structure Serves (s : RelayService) (log : List ServiceEvent) : Prop where
  capacity : s.clientLimit ≠ 0 → (s.clients.erase s.selfId).size ≤ s.clientLimit
  asked : ∀ id ∈ s.clients, id = s.selfId ∨ s.asRelay = true ∧ Asked id log

theorem Serves.asked_concat (h : s.Serves log) {e : ServiceEvent} (he : ∀ host, e ≠ .gone host false) :
    ∀ id ∈ s.clients, id = s.selfId ∨ s.asRelay = true ∧ Asked id (log ++ [e]) := by
  intro id hid
  refine (h.asked id hid).imp_right fun hasked => ⟨hasked.1, since_concat.mpr (.inr ⟨hasked.2, he id⟩)⟩

theorem Serves.step (h : s.Serves log) (e : ServiceEvent) : (s.step e).Serves (log ++ [e]) := by
  cases e with
  | join joiner isRelay =>
    have hasked := h.asked_concat (e := .join joiner isRelay) fun _ => ServiceEvent.noConfusion
    rw [RelayService.step]
    split
    · rename_i haccepts
      rw [accepts, Bool.or_eq_true, beq_iff_eq] at haccepts
      constructor
      · intro hlimit
        by_cases hself : joiner.id = s.selfId
        · have hsame : (s.clients.insert joiner.id joiner).erase s.selfId = s.clients.erase s.selfId := by
            refine ExtTreeMap.ext_getElem? fun k => ?_
            rw [ExtTreeMap.getElem?_erase, ExtTreeMap.getElem?_erase, ExtTreeMap.getElem?_insert, hself]
            split <;> rfl
          exact hsame ▸ h.capacity hlimit
        · obtain ⟨-, hspace⟩ := Bool.and_eq_true_iff.mp (haccepts.resolve_left hself)
          have hsize : s.clients.size < s.clientLimit := by simpa [hlimit] using hspace
          exact (ExtTreeMap.size_erase_le.trans ExtTreeMap.size_insert_le).trans hsize
      · intro id hid
        rcases Tables.mem_insert_iff.mp hid with rfl | hid
        · refine haccepts.imp_right fun hnew => ?_
          have hclient : s.asRelay = true ∧ isRelay = false := by
            obtain ⟨hnew, -⟩ := Bool.and_eq_true_iff.mp hnew
            simpa using hnew
          exact ⟨hclient.1, since_concat.mpr (.inl ⟨joiner, by rw [hclient.2], rfl⟩)⟩
        · exact hasked id hid
    · exact ⟨h.capacity, hasked⟩
  | notify subId host => exact ⟨h.capacity, h.asked_concat fun _ => ServiceEvent.noConfusion⟩
  | gone host isRelay =>
    cases isRelay with
    | true => exact ⟨h.capacity, h.asked_concat fun _ => by simp⟩
    | false =>
      constructor
      · intro hlimit
        have hsub : (s.clients.erase host).erase s.selfId = (s.clients.erase s.selfId).erase host := by
          refine ExtTreeMap.ext_getElem? fun k => ?_
          rw [ExtTreeMap.getElem?_erase, ExtTreeMap.getElem?_erase, ExtTreeMap.getElem?_erase,
            ExtTreeMap.getElem?_erase]
          split <;> split <;> rfl
        change ((s.clients.erase host).erase s.selfId).size ≤ s.clientLimit
        rw [hsub]
        exact ExtTreeMap.size_erase_le.trans (h.capacity hlimit)
      · intro id hid
        obtain ⟨hne, hid⟩ := Tables.mem_erase_iff.mp hid
        refine (h.asked id hid).imp_right fun hasked => ⟨hasked.1, since_concat.mpr (.inr ⟨hasked.2, ?_⟩)⟩
        rintro ⟨⟩
        exact hne rfl
  | forward msg =>
    have hasked := h.asked_concat (e := .forward msg) fun _ => ServiceEvent.noConfusion
    rw [RelayService.step, forward]
    split
    · exact ⟨h.capacity, hasked⟩
    · exact ⟨h.capacity, hasked⟩
  | other => exact ⟨h.capacity, h.asked_concat fun _ => ServiceEvent.noConfusion⟩

theorem Serves.run (hs : s.clients = ∅) (log : List ServiceEvent) :
    (log.foldl RelayService.step s).Serves log := by
  induction log using List.reverseRecOn with
  | nil =>
    constructor
    · intro _
      rw [List.foldl_nil, hs, ExtTreeMap.erase_empty, ExtTreeMap.size_empty]
      exact Nat.zero_le _
    · intro id hid
      rw [List.foldl_nil, hs] at hid
      exact absurd hid ExtTreeMap.not_mem_empty
  | append_singleton log e ih =>
    rw [List.foldl_append]
    exact ih.step e

/-- Where messages for the target go: to its host, or to the relay itself if it is meant. -/
def Reaches (self target host : UInt64) (log : List ServiceEvent) : Prop :=
  Routes target host log ∨ target = self ∧ host = self ∧ ∀ h, ¬ Routes target h log

/-- Each message that is forwarded goes to the hosts that its targets have at that time. -/
def Forwarded (self : UInt64) (log : List ServiceEvent) (f : Message) : Prop :=
  ∃ before after m, log = before ++ .forward m :: after ∧
    f = { m with targets := f.targets, msggroup := groupClient } ∧
    ∀ host, host ∈ f.targets ↔ ∃ target ∈ m.targets, Reaches self target host before

end RelayService

namespace VASTRelay

variable {K : Type} {p q : VASTRelay K}

def service (p : VASTRelay K) : RelayService where
  selfId := p.self.id
  asRelay := p.asRelay
  clientLimit := p.clientLimit
  clients := p.clients
  sub2client := p.sub2client
  forwards := p.net.filterMap RelayCall.forwarded

def serviceEvent (p : VASTRelay K) : Event → ServiceEvent
  | .message _ _ (.join joiner isRelay) => .join joiner isRelay
  | .message _ _ (.subscribeNotify subId host) => .notify subId host
  | .message _ sender .disconnect => .gone sender (decide (sender ∈ p.relays))
  | .message _ _ (.other msg) => .forward { msg with msgtype := forwardedType msg.msgtype }
  | _ => .other

def serviceLog : VASTRelay K → List Event → List ServiceEvent
  | _, [] => []
  | p, e :: es => p.serviceEvent e :: serviceLog (p.step e) es

theorem service_calls (p : VASTRelay K) {calls : List RelayCall}
    (h : ∀ call ∈ calls, call.forwarded = none) : ({ p with net := p.net ++ calls } : VASTRelay K).service =
      p.service := by
  have hnone : calls.filterMap RelayCall.forwarded = [] := List.filterMap_eq_nil_iff.mpr h
  rw [service, List.filterMap_append, hnone, List.append_nil, service]

theorem service_send (p : VASTRelay K) {call : RelayCall} (h : call.forwarded = none) :
    (p.send call).service = p.service :=
  service_calls p fun _ hc => List.mem_singleton.mp hc ▸ h

theorem service_foldl {α : Type} {f : VASTRelay K → α → VASTRelay K}
    (hf : ∀ q x, (f q x).service = q.service) (l : List α) (p : VASTRelay K) :
    (l.foldl f p).service = p.service := by
  induction l generalizing p with
  | nil => rfl
  | cons x l ih => rw [List.foldl_cons, ih, hf]

@[simp] theorem service_addRelay (now : UInt64) (p : VASTRelay K) (relay : Node) :
    (p.addRelay now relay).service = p.service := by
  rw [addRelay]
  split <;> rfl

@[simp] theorem service_removeRelay (p : VASTRelay K) (id : UInt64) :
    (p.removeRelay id).service = p.service := by
  have hforget : (p.forget id).service = p.service := by
    rw [forget]
    split
    · rfl
    · split <;> rfl
  rw [removeRelay]
  split
  · dsimp only
    split <;> split <;> exact hforget
  · rfl

theorem service_sendRelay (p : VASTRelay K) {call : RelayCall} (h : call.forwarded = none)
    (targets : List UInt64) : (p.sendRelay targets call).1.service = p.service := by
  rw [sendRelay]
  split
  · rfl
  · exact (service_foldl service_removeRelay _ _).trans (service_send p h)

@[simp] theorem service_nextRelay (p : VASTRelay K) : p.nextRelay.1.service = p.service := by
  rw [nextRelay]
  split
  · split <;> rfl
  · rfl

@[simp] theorem service_joinRelay (now : UInt64) (p : VASTRelay K) :
    (p.joinRelay now).service = p.service := by
  rw [joinRelay]
  split
  · rfl
  · dsimp only
    split
    · exact service_nextRelay p
    · exact (service_sendRelay _ rfl _).trans (service_nextRelay p)

@[simp] theorem service_pong (p : VASTRelay K) (target : UInt64) (first : Bool) :
    (p.pong target first).service = p.service := by
  rw [pong, service_sendRelay _ rfl]
  split <;> rfl

@[simp] theorem service_ping (now : UInt64) (p : VASTRelay K) (currRelayOnly : Bool) :
    (p.ping now currRelayOnly).service = p.service := by
  rw [ping, service_sendRelay _ rfl]
  rfl

@[simp] theorem service_sendRelayList (p : VASTRelay K) (target : UInt64) :
    (p.sendRelayList target).service = p.service := by
  rw [sendRelayList]
  split
  · rfl
  · exact service_send p rfl

@[simp] theorem service_setJoined (p : VASTRelay K) (relayId : UInt64) :
    (p.setJoined relayId).service = p.service := by
  rw [setJoined]
  split
  · rfl
  · split <;> rfl

@[simp] theorem service_handleQuery (joiner : Node) (forwarder : Addr) (fuel : Nat) (p : VASTRelay K) :
    (handleQuery joiner forwarder fuel p).service = p.service := by
  induction fuel generalizing p with
  | zero => rfl
  | succ fuel ih =>
    rw [handleQuery]
    dsimp only
    split
    · exact service_sendRelay p rfl _
    · split
      · exact service_sendRelay p rfl _
      · exact (ih _).trans (service_sendRelay p rfl _)

@[simp] theorem service_queryRelay (now : UInt64) (p : VASTRelay K) :
    (p.queryRelay now).service = p.service := by
  rw [queryRelay]
  split
  · dsimp only
    generalize hr : ({ p with timeoutQuery := now + p.timing.query } : VASTRelay K).nextRelay = r
    have h : r.1.service = p.service := hr ▸ service_nextRelay _
    split
    · exact h
    · split
      · exact (service_sendRelay _ rfl _).trans h
      · exact (service_sendRelay _ rfl _).trans h
  · rfl

@[simp] theorem service_advance (now : UInt64) (p : VASTRelay K) : (p.advance now).service = p.service := by
  rw [advance]
  split
  · split
    · exact service_setJoined _ 0
    · split <;> rfl
  · split
    · rfl
    · exact service_queryRelay now p
  · split
    · exact service_joinRelay now p
    · rfl
  · rfl

@[simp] theorem service_cleanupRelays (p : VASTRelay K) : p.cleanupRelays.service = p.service := by
  rw [cleanupRelays]
  split
  · rfl
  · split
    · split
      · rfl
      · exact service_foldl service_removeRelay _ p
    · rfl

@[simp] theorem service_useEntries (now : UInt64) (p : VASTRelay K) :
    (p.useEntries now).service = p.service := by
  rw [useEntries]
  split
  · exact service_foldl (service_addRelay now) _ p
  · rfl

/-- What was waiting is delivered, which is no forwarding. -/
@[simp] theorem service_forwardMessage (p : VASTRelay K) (subId hostId : UInt64) :
    (p.forwardMessage subId hostId).service = p.service := by
  rw [forwardMessage]
  refine service_calls p fun call hc => ?_
  split at hc
  · exact absurd hc List.not_mem_nil
  · obtain ⟨msg, -, rfl⟩ := List.mem_map.mp hc
    rfl

@[simp] theorem service_maintain (now : UInt64) (p : VASTRelay K) : (p.maintain now).service = p.service := by
  rw [maintain]
  split
  · dsimp only
    have huse : (({ p with timeoutPing := now + p.timing.keepalive } : VASTRelay K).useEntries now).service =
        p.service := service_useEntries now _
    split
    · exact huse
    · rw [service_foldl (fun q subId => service_forwardMessage q subId 0), service_ping]
      exact huse
  · rfl

theorem service_forward (now : UInt64) (p : VASTRelay K) (msg : Message) :
    (p.forward now msg).service = p.service.forward msg := by
  have hqueued (l : List UInt64) : (l.foldl (enqueue now msg) p).service = p.service :=
    service_foldl (f := enqueue now msg) (fun _ _ => rfl) l p
  have htranslate : p.service.translate = p.translate := rfl
  rw [forward, RelayService.forward, htranslate]
  generalize msg.targets.filter (fun target => (p.translate target).isNone) = unknown
  generalize msg.targets.filterMap p.translate = hosts
  split
  · exact hqueued unknown
  · rw [← hqueued unknown]
    generalize unknown.foldl (enqueue now msg) p = q
    rw [service, send, List.filterMap_append]
    rfl

theorem service_handleJoin (p : VASTRelay K) (joiner : Node) (isRelay : Bool) :
    (p.handleJoin joiner isRelay).service = p.service.step (.join joiner isRelay) := by
  have haccepts : (joiner.id == p.self.id ||
      p.asRelay && !isRelay && (p.clientLimit == 0 || decide (p.clients.size < p.clientLimit))) =
      p.service.accepts joiner isRelay := rfl
  rw [handleJoin, RelayService.step, haccepts, service_sendRelayList, service_send _ rfl]
  split <;> rfl

theorem service_handleMessage (now sender : UInt64) (p : VASTRelay K) (msg : RelayMessage) :
    (p.handleMessage now sender msg).service = p.service.step (p.serviceEvent (.message now sender msg)) := by
  cases msg with
  | ping => exact (service_sendRelayList _ sender).trans (service_pong p sender true)
  | pong initial querytime coord =>
    change (p.handleMessage now sender (.pong initial querytime coord)).service = p.service
    rw [handleMessage]
    split
    · exact service_removeRelay p sender
    · dsimp only
      split
      · exact service_pong _ sender false
      · rfl
  | relay relays => exact service_foldl (service_addRelay now) relays p
  | query joiner forwarder => exact service_handleQuery joiner forwarder _ p
  | queryR requester relay =>
    change (p.handleMessage now sender (.queryR requester relay)).service = p.service
    rw [handleMessage]
    split
    · dsimp only
      rw [service_joinRelay]
      split <;> simp
    · split
      · exact service_sendRelay p rfl _
      · rfl
  | join joiner isRelay => exact service_handleJoin p joiner isRelay
  | joinR success =>
    change (p.handleMessage now sender (.joinR success)).service = p.service
    rw [handleMessage]
    split
    · rfl
    · split
      · exact service_joinRelay now p
      · split
        · exact (service_setJoined _ 0).trans (service_sendRelay p rfl _)
        · exact service_setJoined p sender
  | subscribeNotify subId host => exact service_forwardMessage _ subId host
  | disconnect =>
    rw [handleMessage, serviceEvent]
    by_cases hrelay : sender ∈ p.relays
    · rw [if_pos hrelay, decide_eq_true hrelay]
      exact service_removeRelay p sender
    · rw [if_neg hrelay, decide_eq_false hrelay]
      rfl
  | other msg => exact service_forward now p _

/-- The relay refines its service. -/
theorem service_step (p : VASTRelay K) (e : Event) :
    (p.step e).service = p.service.step (p.serviceEvent e) := by
  cases e with
  | message now sender msg => exact service_handleMessage now sender p msg
  | postHandling now =>
    change (((p.maintain now).advance now).cleanupRelays).service = p.service
    simp

theorem service_run (p : VASTRelay K) (es : List Event) :
    (es.foldl step p).service = (p.serviceLog es).foldl RelayService.step p.service := by
  induction es generalizing p with
  | nil => rfl
  | cons e es ih => rw [List.foldl_cons, ih, serviceLog, List.foldl_cons, service_step]

variable (c : VASTRelay K) (es : List Event)

/-- A relay with a limit serves no more hosts than that beside itself, and only those that have asked. -/
theorem clients_served :
    (c.clientLimit ≠ 0 →
      ((es.foldl step c.constructed).clients.erase c.self.id).size ≤ c.clientLimit) ∧
    ∀ id ∈ (es.foldl step c.constructed).clients, id = c.self.id ∨
      c.asRelay = true ∧ RelayService.Asked id (c.constructed.serviceLog es) := by
  have hserves := RelayService.Serves.run (s := c.constructed.service) rfl (c.constructed.serviceLog es)
  have hfixed := RelayService.fixed_run c.constructed.service (c.constructed.serviceLog es)
  rw [← service_run] at hserves hfixed
  obtain ⟨hself, hrelay, hlimit⟩ := hfixed
  refine ⟨fun h => ?_, fun id hid => ?_⟩
  · have hcapacity := hserves.capacity (hlimit.symm ▸ h)
    rwa [hself, hlimit] at hcapacity
  · have hasked := hserves.asked id hid
    rwa [hself, hrelay] at hasked

end VASTRelay

end VastNC
