import VastNC.Lib.Impaired
import VastNC.Lib.StableQueue
import VastNC.Lib.StepRun
import VastNC.MessageEquality
import VastNC.Publication

/-! What reaches `VASTMatcher::handleMessage` while its `VSOPeer` is joining is put aside. Once it has joined
all of it is sent to the own host again, and handled when it comes back. -/

namespace VastNC

def matcherCandidateType : UInt16 := vonMaxMsg

def matcherInitType : UInt16 := vonMaxMsg + 1

def matcherAliveType : UInt16 := vonMaxMsg + 2

def joinType : UInt16 := vonMaxMsg + 6

/-- What the handlers of `handleMessage` work with. -/
structure Dispatched where
  appMsgtype : UInt16
  msg : Message
  curr : Nat
  deriving DecidableEq

def Message.dispatch (m : Message) : Dispatched where
  appMsgtype := VastNC.appMsgtype m.msgtype
  msg := { m.content with msgtype := vastMsgtype m.msgtype }
  curr := m.curr

/-- A message in `_full_queue`. The code has no mark of what has been put aside before. -/
structure Received where
  fromhost : UInt64
  msg : Message
  resent : Bool := false

/-- The counter of `MessageQueue::sendMessage` for messages to the default host. -/
structure Retry where
  prevDefaultHostMsg : Message := { msgtype := 0 }
  defaultHostCounter : Nat := 0

namespace MessageQueue

/-- The loop over the targets: the new counter, and whether the message is kept. -/
def route (q : MessageQueue) (msg : Message) : Retry → List UInt64 → Retry × Bool
  | r, [] => (r, true)
  | r, target :: targets =>
    if q.id2host target = none then
      let counter := if r.prevDefaultHostMsg.equals msg then r.defaultHostCounter + 1 else r.defaultHostCounter
      if counter ≥ 10 then (⟨msg, 0⟩, false) else q.route msg ⟨msg, counter⟩ targets
    else q.route msg r targets

/-- `MessageHandler::sendMessage` of the matcher, as far as it concerns the own host. -/
def resend (q : MessageQueue) (r : Retry) (msg : Message) : Retry × List Received :=
  if msg.targets = [] then (r, [])
  else
    let msg := if msg.msggroup = 0 then { msg with msggroup := groupMatcher } else msg
    let routed := q.route msg r msg.targets
    let own := (q.sendMessage msg).filter (fun e => e.1 == q.hostId)
    (routed.1, if routed.2 then own.map (fun e => ⟨e.1, e.2, true⟩) else [])

def resendAll (q : MessageQueue) : Retry → List Message → Retry × List Received
  | r, [] => (r, [])
  | r, msg :: msgs =>
    let first := q.resend r msg
    let rest := q.resendAll first.1 msgs
    (rest.1, first.2 ++ rest.2)

end MessageQueue

/-- A matcher with the messages that wait for it. The code has no logs: `arrived` is how what is put aside
would have been dispatched, `taken` how what was put aside is dispatched. -/
structure Intake where
  queue : MessageQueue
  retry : Retry := {}
  state : NodeState
  peer : NodeState
  deferred : List Message := []
  received : StableQueue (fun e : Received => e.msg.priority.toNat) := {}
  arrived : List Dispatched := []
  taken : List Dispatched := []

/-- Where the checks at the top of `handleMessage` lead. -/
inductive Course where
  | toPeer
  | deferred
  | rejected
  | passed
  deriving DecidableEq

namespace Intake

/-- `type` is the lower byte, `peer` what `isJoined` of the `VSOPeer` leaves. -/
def course (s : Intake) (type : UInt16) : Course :=
  if s.state = .absent then .rejected
  else if type ≠ VastNet.disconnectType then
    if type < vonMaxMsg then .toPeer
    else if s.state ≠ .joined ∨ s.peer ≠ .joined then
      if s.peer = .joining then .deferred
      else if ¬ (type = matcherCandidateType ∨ type = matcherInitType ∨ type = matcherAliveType ∨
          type = joinType) then .rejected
      else .passed
    else .passed
  else .passed

def flush (s : Intake) : Intake :=
  let sent := s.queue.resendAll s.retry s.deferred
  { s with retry := sent.1, received := sent.2.foldl StableQueue.insert s.received, deferred := [] }

def handleMessage (s : Intake) (resent : Bool) (inMsg : Message) : Intake :=
  let msg := { inMsg with msgtype := vastMsgtype inMsg.msgtype }
  match s.course msg.msgtype with
  | .toPeer => s
  | .deferred =>
    { s with
      deferred := s.deferred ++ [msg]
      arrived := if resent then s.arrived else s.arrived ++ [inMsg.dispatch] }
  | .rejected => s
  | .passed =>
    let s := s.flush
    { s with taken := if resent then s.taken ++ [inMsg.dispatch] else s.taken }

/-- `storeVASTMessage`: a message is read, or copied for the own host, with the cursor at the start. -/
def arrive (s : Intake) (fromhost : UInt64) (msg : Message) : Intake :=
  let fromhost := if fromhost = netIdUnassigned then msg.fromId else fromhost
  { s with received := s.received.insert ⟨fromhost, msg.resetCopy, false⟩ }

/-- `processMessages` up to the call of the handler. -/
def fetch (s : Intake) : Intake × Option (Bool × Message) :=
  match s.received.pop with
  | none => (s, none)
  | some (e, rest) =>
    let s := { s with received := rest }
    if e.msg.msgtype = VastNet.disconnectType then (s, some (e.resent, { e.msg with fromId := e.fromhost }))
    else if e.msg.fromId = netIdUnassigned then (s, none)
    else
      ({ s with queue := s.queue.learn e.fromhost e.msg },
        ((s.queue.processMessage e.fromhost e.msg).filter (fun m => m.msggroup == groupMatcher)).map
          (fun m => (e.resent, m)))

def receive (s : Intake) : Intake :=
  match s.fetch with
  | (s, none) => s
  | (s, some (resent, msg)) => s.handleMessage resent msg

end Intake

/-- `nodes`: the matcher or its `VSOPeer` joins or leaves. `network`: addresses become known, another
default host is set, other messages are sent. -/
inductive IntakeEvent where
  | arrive (fromhost : UInt64) (msg : Message)
  | receive
  | nodes (state peer : NodeState)
  | network (id2host : UInt64 → Option UInt64) (defaultHost : UInt64) (retry : Retry)

namespace Intake

def step (s : Intake) : IntakeEvent → Intake
  | .arrive fromhost msg => s.arrive fromhost msg
  | .receive => s.receive
  | .nodes state peer => { s with state, peer }
  | .network id2host defaultHost retry => { s with queue := { s.queue with id2host, defaultHost }, retry }

/-- What has been put aside before and waits in the queue. -/
def waiting (s : Intake) : List Received := s.received.items.filter Received.resent

def pending (s : Intake) : List Message := s.waiting.map Received.msg ++ s.deferred

structure Fresh (s : Intake) : Prop where
  deferred : s.deferred = []
  arrived : s.arrived = []
  taken : s.taken = []
  received : ∀ e ∈ s.received.items, e.resent = false ∧ e.msg.curr = 0

/-- All of the messages go to the own host with all their targets. -/
def Whole (q : MessageQueue) : Retry → List Message → Prop
  | _, [] => True
  | r, msg :: msgs => (∀ t ∈ msg.targets, q.hostOf t = q.hostId) ∧ (q.route msg r msg.targets).2 = true ∧
      Whole q (q.route msg r msg.targets).1 msgs

/-- What is put aside is kept by `flush`, and has no smaller number of priority than what came before it. -/
def KeepsDeferred (s : Intake) : Prop :=
  Whole s.queue s.retry s.deferred ∧ s.pending.Pairwise (fun a b => a.priority.toNat ≤ b.priority.toNat)

/-- Without application type where it is put aside, or into a matcher whose `flush` keeps everything. -/
def Takes (s : Intake) (msg : Message) : Prop :=
  (s.course (vastMsgtype msg.msgtype) = .deferred → appMsgtype msg.msgtype = 0) ∧
    (s.course (vastMsgtype msg.msgtype) = .passed → s.KeepsDeferred)

/-- What comes back still has only targets that this host takes for its own, and what is handed over does no harm. -/
def Unaltering (s : Intake) : IntakeEvent → Prop
  | .receive => (∀ e rest, s.received.pop = some (e, rest) → e.resent = true →
        ∀ t ∈ e.msg.targets, s.queue.isLocal t = true) ∧
      ∀ resent msg, s.fetch.2 = some (resent, msg) → s.fetch.1.Takes msg
  | _ => True

/-- What has been put aside comes back when matcher and `VSOPeer` have joined. -/
def InTime (s : Intake) : IntakeEvent → Prop
  | .receive => ∀ e rest, s.received.pop = some (e, rest) → e.resent = true → s.state = .joined ∧ s.peer = .joined
  | _ => True

/-- Matcher and `VSOPeer` have joined, the next message arrives, and the queue is processed to its end. -/
def settle (s : Intake) (fromhost : UInt64) (next : Message) : List IntakeEvent :=
  .nodes .joined .joined :: .arrive fromhost next ::
    List.replicate (s.received.items.length + 1 + s.deferred.length) .receive

/-- A message that this host hands to the matcher, and not to its `VSOPeer`. -/
def Reaches (q : MessageQueue) (next : Message) : Prop :=
  next.msgtype = VastNet.disconnectType ∨
    next.fromId ≠ netIdUnassigned ∧ next.msggroup = groupMatcher ∧ q.hostId ∈ next.targets ∧
      vonMaxMsg ≤ vastMsgtype next.msgtype

end Intake

namespace MessageQueue

variable {q : MessageQueue} {r : Retry} {msg : Message}

def ownTargets (q : MessageQueue) (targets : List UInt64) : List UInt64 :=
  targets.filter (fun t => q.hostOf t == q.hostId)

theorem filter_sendMessage_own (q : MessageQueue) (msg : Message) :
    (q.sendMessage msg).filter (fun e => e.1 == q.hostId) =
      if q.ownTargets msg.targets = [] then []
      else [(q.hostId, (q.sent { msg with targets := q.ownTargets msg.targets }).resetCopy)] := by
  have hkey : (q.sendMessage msg).filter (fun e => e.1 == q.hostId) =
      ((q.host2targets msg.targets).toList.filter (fun e => e.1 == q.hostId)).filterMap
        (fun e => (q.transmit { msg with targets := e.2 } e.1).map (fun m => (e.1, m))) := by
    rw [sendMessage, List.filter_filterMap, List.filterMap_filter]
    apply List.filterMap_congr
    rintro ⟨host, ts⟩ -
    cases q.transmit { msg with targets := ts } host <;> simp [Option.filter]
  rw [hkey, Tables.toList_filter_key, host2targets, Tables.getElem?_groupBy]
  by_cases hown : q.ownTargets msg.targets = []
  · have hfilter : msg.targets.filter (fun t => q.hostOf t == q.hostId) = [] := hown
    rw [if_pos hown, if_pos hfilter]
    rfl
  · have hfilter : msg.targets.filter (fun t => q.hostOf t == q.hostId) ≠ [] := hown
    rw [if_neg hown, if_neg hfilter]
    simp [transmit_eq, ownTargets]

def localPart (q : MessageQueue) (msg : Message) : Message := { msg with targets := msg.targets.filter q.isLocal }

theorem localPart_cases (q : MessageQueue) (msg : Message) :
    ((∀ t ∈ msg.targets, q.isLocal t = true) ∧ q.localPart msg = msg) ∨
      (¬ (∀ t ∈ msg.targets, q.isLocal t = true) ∧ (q.localPart msg).targets.length < msg.targets.length) := by
  by_cases hall : ∀ t ∈ msg.targets, q.isLocal t = true
  · refine .inl ⟨hall, ?_⟩
    rw [localPart, List.filter_eq_self.mpr hall]
  · refine .inr ⟨hall, ?_⟩
    have hle : (q.localPart msg).targets.length ≤ msg.targets.length := List.length_filter_le _ _
    have hne : (q.localPart msg).targets.length ≠ msg.targets.length := fun he =>
      hall (List.filter_eq_self.mp (List.filter_sublist.eq_of_length he))
    omega

theorem ownTargets_eq_self {targets : List UInt64} :
    q.ownTargets targets = targets ↔ ∀ t ∈ targets, q.hostOf t = q.hostId := by
  simp [ownTargets]

end MessageQueue

theorem msgtype_small {type : UInt16} (h : type < 256) : appMsgtype type = 0 ∧ vastMsgtype type = type := by
  have hpack : packMsgtype 0 type = type := by simp [packMsgtype]
  have hunpack := unpack_packMsgtype type (show (0 : UInt16) < 256 by decide) h
  rwa [hpack] at hunpack

theorem vastMsgtype_lt (type : UInt16) : vastMsgtype type < 256 := by
  rw [UInt16.lt_iff_toNat_lt, vastMsgtype, UInt16.toNat_and, Nat.and_comm]
  exact Nat.lt_of_le_of_lt Nat.and_le_right (by decide)

/-- What is put aside has come through `processMessages` and has lost its application type. -/
structure Message.Resendable (m : Message) : Prop where
  fromId : m.fromId ≠ 0
  targets : m.targets ≠ []
  msggroup : m.msggroup = groupMatcher
  lower : vonMaxMsg ≤ m.msgtype
  upper : m.msgtype < 256
  curr : m.curr = 0

def Dispatched.weight (d : Dispatched) : Nat := d.msg.targets.length + 1

def Dispatched.priority (d : Dispatched) : Nat := d.msg.priority.toNat

namespace MessageQueue

variable {q : MessageQueue} {r : Retry} {msg : Message}

theorem resend_eq (h : msg.Resendable) : q.resend r msg = ((q.route msg r msg.targets).1,
    if (q.route msg r msg.targets).2 = true ∧ q.ownTargets msg.targets ≠ [] then
      [⟨q.hostId, { msg with targets := q.ownTargets msg.targets }.resetCopy, true⟩]
    else []) := by
  have hgroup : msg.msggroup ≠ 0 := by
    rw [h.msggroup]
    decide
  have hsent : q.sent { msg with targets := q.ownTargets msg.targets } =
      { msg with targets := q.ownTargets msg.targets } := if_neg h.fromId
  rw [resend, if_neg h.targets]
  simp only [if_neg hgroup, filter_sendMessage_own, hsent]
  by_cases hr : (q.route msg r msg.targets).2 = true <;>
    by_cases hown : q.ownTargets msg.targets = [] <;> simp [hr, hown]

theorem length_resend_le (q : MessageQueue) (r : Retry) (msg : Message) : (q.resend r msg).2.length ≤ 1 := by
  have hown : ∀ m : Message, ((q.sendMessage m).filter (fun e => e.1 == q.hostId)).length ≤ 1 := by
    intro m
    rw [filter_sendMessage_own]
    split <;> simp
  rw [resend]
  split
  · simp
  · generalize (if msg.msggroup = 0 then { msg with msggroup := groupMatcher } else msg) = m
    dsimp only
    split
    · rw [List.length_map]
      exact hown m
    · simp

theorem length_resendAll_le (q : MessageQueue) (r : Retry) (msgs : List Message) :
    (q.resendAll r msgs).2.length ≤ msgs.length := by
  induction msgs generalizing r with
  | nil => simp [resendAll]
  | cons msg msgs ih =>
    have hone := q.length_resend_le r msg
    have hrest := ih (q.resend r msg).1
    simp only [resendAll, List.length_append, List.length_cons]
    omega

theorem resend_cases (h : msg.Resendable) :
    (∀ e ∈ (q.resend r msg).2, e.resent = true ∧ e.fromhost = q.hostId ∧ e.msg.Resendable) ∧
    (q.resend r msg).1 = (q.route msg r msg.targets).1 ∧
    ((∀ t ∈ msg.targets, q.hostOf t = q.hostId) ∧ (q.route msg r msg.targets).2 = true →
      (q.resend r msg).2.map (fun e => e.msg.dispatch) = [msg.dispatch]) ∧
    (¬ ((∀ t ∈ msg.targets, q.hostOf t = q.hostId) ∧ (q.route msg r msg.targets).2 = true) →
      (((q.resend r msg).2.map (fun e => e.msg.dispatch)).map Dispatched.weight).sum < msg.dispatch.weight) := by
  rw [resend_eq h]
  have hle : (q.ownTargets msg.targets).length ≤ msg.targets.length := List.length_filter_le _ _
  refine ⟨?_, rfl, ?_, ?_⟩
  · intro e he
    dsimp only at he
    split at he
    · rename_i hkept
      obtain rfl := List.mem_singleton.mp he
      exact ⟨rfl, rfl, h.fromId, hkept.2, h.msggroup, h.lower, h.upper, rfl⟩
    · cases he
  · rintro ⟨hall, hr⟩
    have hown : q.ownTargets msg.targets = msg.targets := ownTargets_eq_self.mpr hall
    have hcurr : msg.resetCopy.dispatch = msg.dispatch := by simp [Message.dispatch, Message.resetCopy, Message.content, h.curr]
    dsimp only
    rw [if_pos ⟨hr, by rw [hown]; exact h.targets⟩, hown, List.map_singleton, hcurr]
  · intro hnot
    dsimp only
    split
    · rename_i hkept
      have hne : q.ownTargets msg.targets ≠ msg.targets := fun he => hnot ⟨ownTargets_eq_self.mp he, hkept.1⟩
      have hlt : (q.ownTargets msg.targets).length ≠ msg.targets.length := fun hl =>
        hne (List.filter_sublist.eq_of_length hl)
      simp only [List.map_singleton, List.sum_singleton, Dispatched.weight, Message.dispatch,
        Message.content, Message.resetCopy]
      omega
    · simp [Dispatched.weight]

theorem resendAll_sound {msgs : List Message} (h : ∀ m ∈ msgs, m.Resendable) :
    ∀ e ∈ (q.resendAll r msgs).2, e.resent = true ∧ e.fromhost = q.hostId ∧ e.msg.Resendable := by
  induction msgs generalizing r with
  | nil => simp [resendAll]
  | cons msg msgs ih =>
    intro e he
    rcases List.mem_append.mp he with he | he
    · exact (resend_cases (h msg List.mem_cons_self)).1 e he
    · exact ih (fun m hm => h m (List.mem_cons_of_mem _ hm)) e he

theorem resendAll_cases {msgs : List Message} (h : ∀ m ∈ msgs, m.Resendable) :
    (Intake.Whole q r msgs →
      (q.resendAll r msgs).2.map (fun e => e.msg.dispatch) = msgs.map Message.dispatch) ∧
    (¬ Intake.Whole q r msgs →
      (((q.resendAll r msgs).2.map (fun e => e.msg.dispatch)).map Dispatched.weight).sum <
        ((msgs.map Message.dispatch).map Dispatched.weight).sum) := by
  induction msgs generalizing r with
  | nil => exact ⟨fun _ => rfl, fun hn => absurd trivial hn⟩
  | cons msg msgs ih =>
    obtain ⟨-, hr, hwhole, hcut⟩ := resend_cases (q := q) (r := r) (h msg List.mem_cons_self)
    obtain ⟨heq, hlt⟩ := ih (r := (q.resend r msg).1) (fun m hm => h m (List.mem_cons_of_mem _ hm))
    have hall : (q.resendAll r (msg :: msgs)).2 = (q.resend r msg).2 ++ (q.resendAll (q.resend r msg).1 msgs).2 := rfl
    rw [hr] at heq hlt
    rw [hall, hr, Intake.Whole, ← and_assoc, List.map_append, List.map_append, List.sum_append, List.map_cons,
      List.map_cons, List.sum_cons]
    have hle : (((q.resendAll (q.route msg r msg.targets).1 msgs).2.map (fun e => e.msg.dispatch)).map
        Dispatched.weight).sum ≤ ((msgs.map Message.dispatch).map Dispatched.weight).sum := by
      by_cases hw : Intake.Whole q (q.route msg r msg.targets).1 msgs
      · rw [heq hw]
      · exact (hlt hw).le
    by_cases hone : (∀ t ∈ msg.targets, q.hostOf t = q.hostId) ∧ (q.route msg r msg.targets).2 = true
    · rw [hwhole hone]
      refine ⟨fun hw => by rw [heq hw.2]; rfl, fun hn => ?_⟩
      have hrest := hlt (fun hw => hn ⟨hone, hw⟩)
      simp only [List.map_singleton, List.sum_singleton]
      omega
    · refine ⟨fun hw => absurd hw.1 hone, fun _ => ?_⟩
      have hfirst := hcut hone
      omega

end MessageQueue

namespace Intake

variable {s : Intake}

/-- What is and will be dispatched of all that has been put aside. -/
def underway (s : Intake) : List Dispatched := s.taken ++ s.pending.map Message.dispatch

structure Sound (s : Intake) : Prop where
  stored : ∀ e ∈ s.received.items, e.msg.curr = 0
  waiting : ∀ e ∈ s.received.items, e.resent = true → e.fromhost = s.queue.hostId ∧ e.msg.Resendable
  deferred : ∀ m ∈ s.deferred, m.Resendable
  taken : ∀ d ∈ s.taken, d.appMsgtype = 0

theorem mem_flush (s : Intake) {e : Received} : e ∈ s.flush.received.items ↔
    e ∈ s.received.items ∨ e ∈ (s.queue.resendAll s.retry s.deferred).2 := by
  rw [flush, (StableQueue.perm_foldl_insert _ _).mem_iff, List.mem_append]

namespace Sound

theorem flush (h : s.Sound) : s.flush.Sound := by
  have hsent := MessageQueue.resendAll_sound (q := s.queue) (r := s.retry) h.deferred
  refine ⟨fun e he => ?_, fun e he hr => ?_, by simp [Intake.flush], h.taken⟩
  · rcases s.mem_flush.mp he with he | he
    · exact h.stored e he
    · exact (hsent e he).2.2.curr
  · rcases s.mem_flush.mp he with he | he
    · exact h.waiting e he hr
    · exact (hsent e he).2

theorem flush_waiting (h : s.Sound) :
    (((s.waiting ++ (s.queue.resendAll s.retry s.deferred).2).Pairwise
        (fun a b => a.msg.priority.toNat ≤ b.msg.priority.toNat) →
      s.flush.waiting = s.waiting ++ (s.queue.resendAll s.retry s.deferred).2) ∧
    (¬ (s.waiting ++ (s.queue.resendAll s.retry s.deferred).2).Pairwise
        (fun a b => a.msg.priority.toNat ≤ b.msg.priority.toNat) →
      s.flush.waiting.map (fun e => e.msg.priority.toNat) <
        (s.waiting ++ (s.queue.resendAll s.retry s.deferred).2).map (fun e => e.msg.priority.toNat))) ∧
    s.flush.waiting.Perm (s.waiting ++ (s.queue.resendAll s.retry s.deferred).2) := by
  have hsent := MessageQueue.resendAll_sound (q := s.queue) (r := s.retry) h.deferred
  refine ⟨StableQueue.filter_foldl_insert_cases (fun e he => (hsent e he).1), ?_⟩
  have hperm := (StableQueue.perm_foldl_insert s.received (s.queue.resendAll s.retry s.deferred).2).filter
    Received.resent
  rwa [List.filter_append, List.filter_eq_self.mpr (fun e he => (hsent e he).1)] at hperm

/-- `flush` keeps what is put aside, or a part of it is lost, or it comes back in another order. -/
theorem flush_cases (h : s.Sound) :
    (s.KeepsDeferred → s.flush.pending.map Message.dispatch = s.pending.map Message.dispatch) ∧
    (¬ s.KeepsDeferred → Impaired Dispatched.weight Dispatched.priority
      (s.flush.pending.map Message.dispatch) (s.pending.map Message.dispatch)) := by
  obtain ⟨hwhole, hcut⟩ := MessageQueue.resendAll_cases (q := s.queue) (r := s.retry) h.deferred
  obtain ⟨⟨hsorted, hunsorted⟩, hperm⟩ := h.flush_waiting
  have hafter : s.flush.pending.map Message.dispatch = s.flush.waiting.map (fun e => e.msg.dispatch) := by
    have hd : s.flush.deferred = [] := rfl
    rw [pending, hd, List.append_nil, List.map_map]
    rfl
  have hbefore : s.pending.map Message.dispatch =
      s.waiting.map (fun e => e.msg.dispatch) ++ s.deferred.map Message.dispatch := by
    rw [pending, List.map_append, List.map_map]
    rfl
  have hperm := hperm.map (fun e => e.msg.dispatch)
  rw [List.map_append] at hperm
  rw [hafter]
  by_cases hw : Whole s.queue s.retry s.deferred
  · rw [hwhole hw, ← hbefore] at hperm
    -- the numbers of priority are the same, of the entries and of the messages
    have hkeys : (s.waiting ++ (s.queue.resendAll s.retry s.deferred).2).map (fun e => e.msg.priority.toNat) =
        s.pending.map (fun m => m.priority.toNat) := by
      have hk := congrArg (List.map Dispatched.priority) (hwhole hw)
      rw [List.map_map, List.map_map] at hk
      rw [pending, List.map_append, List.map_append, List.map_map]
      exact congrArg _ hk
    have hiff : (s.waiting ++ (s.queue.resendAll s.retry s.deferred).2).Pairwise
        (fun a b => a.msg.priority.toNat ≤ b.msg.priority.toNat) ↔
        s.pending.Pairwise (fun a b => a.priority.toNat ≤ b.priority.toNat) := by
      rw [← List.pairwise_map (R := (· ≤ ·)), hkeys, List.pairwise_map]
    rw [hiff] at hsorted hunsorted
    refine ⟨fun hk => ?_, fun hk => ?_⟩
    · rw [hsorted hk.2, List.map_append, hwhole hw, hbefore]
    · have hlt := hunsorted (fun hp => hk ⟨hw, hp⟩)
      rw [hkeys] at hlt
      refine Impaired.of_perm hperm ?_
      rw [List.map_map, List.map_map]
      exact hlt
  · refine ⟨fun hk => absurd hk.1 hw, fun _ => .inl ?_⟩
    have hlt := hcut hw
    rw [(hperm.map Dispatched.weight).sum_eq, hbefore, List.map_append, List.map_append, List.sum_append,
      List.sum_append]
    omega

end Sound

end Intake

end VastNC
