import VastNC.MessageEquality
import VastNC.MessageQueue

/-! `MessageQueue::sendMessage` with its failed targets and its function-static variables: the
message last sent by way of the default host, and a count of the times it was sent again. -/

namespace VastNC

/-- What `sendMessage` uses of the network: `validateConnection` may connect to the host, and
`VASTnet::sendMessage` may fill in the sender of the message it is given. -/
structure NetCalls (σ : Type) where
  validateConnection : σ → UInt64 → σ × Bool
  sendMessage : σ → UInt64 → Message → Bool → σ × Message

def VastSender.netCalls : NetCalls VastSender where
  validateConnection := VastSender.validateConnection
  sendMessage n host msg reliable :=
    ((n.sendMessage host msg reliable).1,
      if n.net.active ∧ msg.fromId = 0 then { msg with fromId := n.id } else msg)

/-- The function-static variables. -/
structure Statics where
  prevDefaultHostMsg : Message := { msgtype := 0 }
  defaultHostCounter : Nat := 0

/-- `operator=`. -/
def Message.assigned (m : Message) : Message :=
  { m with curr := 0, capacity := m.data.length + m.free }

/-- The variables of the loop over the targets; `failed` is what is pushed to
`failed_targets`. -/
structure Grouping (σ : Type) where
  net : σ
  statics : Statics
  host2targets : Std.ExtTreeMap UInt64 (List UInt64) := ∅
  failed : List UInt64 := []
  numMsg : Nat := 0

structure QueueSent (σ : Type) where
  ret : Nat
  copies : List (UInt64 × Message)
  failed : List UInt64
  net : σ
  statics : Statics
  msg : Message

def Statics.retried (st : Statics) (msg : Message) : Statics where
  prevDefaultHostMsg := msg.assigned
  defaultHostCounter :=
    if st.prevDefaultHostMsg.equals msg then st.defaultHostCounter + 1 else st.defaultHostCounter

variable {σ : Type}

namespace Grouping

/-- The connection is asked for a second time, for the log only. -/
def place (N : NetCalls σ) (s : Grouping σ) (target host : UInt64) : Grouping σ :=
  let (net, valid) := N.validateConnection s.net host
  let s :=
    if valid then
      { s with
        numMsg := s.numMsg + 1
        host2targets := s.host2targets.insert host (s.host2targets[host]?.getD [] ++ [target]) }
    else { s with failed := s.failed ++ [target] }
  { s with net := (N.validateConnection net host).1 }

/-- The loop over the targets; at `true` it has discarded the message. -/
def loop (N : NetCalls σ) (q : MessageQueue) (msg : Message) :
    List UInt64 → Grouping σ → Grouping σ × Bool
  | [], s => (s, false)
  | target :: targets, s =>
    match q.id2host target with
    | some host => loop N q msg targets (s.place N target host)
    | none =>
      let statics := s.statics.retried msg
      if 10 ≤ statics.defaultHostCounter then
        ({ s with statics := { statics with defaultHostCounter := 0 } }, true)
      else loop N q msg targets ({ s with statics }.place N target q.defaultHost)

/-- The loop over the hosts. -/
def sendAll (N : NetCalls σ) :
    List (UInt64 × List UInt64) → σ → Message → List (UInt64 × Message) × σ × Message
  | [], net, msg => ([], net, msg)
  | (host, targets) :: rest, net, msg =>
    let msg := { msg with targets }
    let (net, left) := N.sendMessage net host msg msg.reliable
    let (copies, net, left) := sendAll N rest net left
    ((host, msg) :: copies, net, left)

end Grouping

namespace MessageQueue

open Grouping in
def sendMessageTo (N : NetCalls σ) (q : MessageQueue) (net : σ) (statics : Statics) (msg : Message) :
    QueueSent σ :=
  let (s, discarded) := loop N q msg msg.targets { net, statics }
  if discarded then ⟨0, [], s.failed, s.net, s.statics, msg⟩
  else
    let (copies, net, left) := sendAll N s.host2targets.toList s.net msg
    ⟨s.numMsg, copies, s.failed, net, s.statics, left⟩

end MessageQueue

/-- Every target is in one copy or among the failed ones, every host gets one copy at most, and
the result counts the targets in the copies. -/
structure QueueSent.Accounts (r : QueueSent σ) (targets : List UInt64) : Prop where
  targets : ((r.copies.flatMap fun c => c.2.targets) ++ r.failed).Perm targets
  hosts : (r.copies.map Prod.fst).Nodup
  ret : r.ret = (r.copies.flatMap fun c => c.2.targets).length

theorem Message.equals_assigned (m : Message) : m.assigned.equals m = true :=
  Message.equals_iff.mpr ⟨⟨rfl, rfl, rfl, rfl, rfl, rfl⟩, rfl, rfl, rfl, rfl⟩

namespace Statics

/-- What the counter will be at the next target without a host of its own. -/
def due (st : Statics) (msg : Message) : Nat := (st.retried msg).defaultHostCounter

theorem due_retried (st : Statics) (msg : Message) : (st.retried msg).due msg = st.due msg + 1 :=
  if_pos msg.equals_assigned

end Statics

namespace MessageQueue

/-- The targets that go by way of the default host. -/
def unresolved (q : MessageQueue) (targets : List UInt64) : Nat :=
  targets.countP (fun t => (q.id2host t).isNone)

end MessageQueue

namespace Grouping

variable {N : NetCalls σ} {q : MessageQueue} {s : Grouping σ} {seen : List UInt64} {target : UInt64}

/-- What the loop has made of the targets it has seen. -/
structure Splits (q : MessageQueue) (s : Grouping σ) (seen placed : List UInt64) : Prop where
  host2targets : s.host2targets = Tables.groupBy q.hostOf placed
  numMsg : s.numMsg = placed.length
  perm : (placed ++ s.failed).Perm seen

theorem Splits.length_failed {placed : List UInt64} (h : s.Splits q seen placed) :
    s.failed.length ≤ seen.length := by
  rw [← h.perm.length_eq, List.length_append]
  exact Nat.le_add_left _ _

theorem statics_place (s : Grouping σ) (target host : UInt64) :
    (s.place N target host).statics = s.statics := by
  rw [place]
  dsimp only
  split <;> rfl

theorem Splits.place {placed : List UInt64} (h : s.Splits q seen placed) (N : NetCalls σ)
    (target : UInt64) : ∃ placed', (s.place N target (q.hostOf target)).Splits q (seen ++ [target]) placed' := by
  cases hv : (N.validateConnection s.net (q.hostOf target)).2 with
  | true =>
    refine ⟨placed ++ [target], ?_, ?_, ?_⟩
    · simp only [Grouping.place, hv, if_true, h.host2targets, Tables.groupBy, List.foldl_append]
      rfl
    · simp only [Grouping.place, hv, if_true, h.numMsg, List.length_append, List.length_singleton]
    · simp only [Grouping.place, hv, if_true]
      rw [List.append_assoc]
      exact ((List.perm_append_comm.append_left placed).trans
        (List.append_assoc placed s.failed [target] ▸ .refl _)).trans (h.perm.append_right [target])
  | false =>
    refine ⟨placed, ?_, ?_, ?_⟩
    · simp only [Grouping.place, hv, Bool.false_eq_true, if_false, h.host2targets]
    · simp only [Grouping.place, hv, Bool.false_eq_true, if_false, h.numMsg]
    · simp only [Grouping.place, hv, Bool.false_eq_true, if_false]
      rw [← List.append_assoc]
      exact h.perm.append_right [target]

variable {msg : Message}

theorem loop_cons_host {host : UInt64} (h : q.id2host target = some host) (targets : List UInt64) :
    loop N q msg (target :: targets) s = loop N q msg targets (s.place N target (q.hostOf target)) := by
  rw [loop, h, MessageQueue.hostOf, h]
  rfl

theorem loop_cons_default (h : q.id2host target = none) (hdue : s.statics.due msg < 10)
    (targets : List UInt64) : loop N q msg (target :: targets) s =
      loop N q msg targets
        ({ s with statics := s.statics.retried msg }.place N target (q.hostOf target)) := by
  rw [loop, h, MessageQueue.hostOf, h]
  exact if_neg (Nat.not_le_of_lt hdue)

theorem loop_cons_discard (h : q.id2host target = none) (hdue : 10 ≤ s.statics.due msg)
    (targets : List UInt64) : (loop N q msg (target :: targets) s).2 = true ∧
      (loop N q msg (target :: targets) s).1.failed = s.failed := by
  have hd : 10 ≤ (s.statics.retried msg).defaultHostCounter := hdue
  rw [loop, h]
  dsimp only
  rw [if_pos hd]
  exact ⟨rfl, rfl⟩

theorem unresolved_cons_host {host : UInt64} (h : q.id2host target = some host) (targets : List UInt64) :
    q.unresolved (target :: targets) = q.unresolved targets :=
  List.countP_cons_of_neg (by simp [h])

theorem unresolved_cons_default (h : q.id2host target = none) (targets : List UInt64) :
    q.unresolved (target :: targets) = q.unresolved targets + 1 :=
  List.countP_cons_of_pos (by simp [h])

/-- The counter decides: it grows by one at each target without a host of its own, and at ten
the message is dropped. -/
theorem loop_splits (targets : List UInt64) {placed : List UInt64} (h : s.Splits q seen placed) :
    (q.unresolved targets = 0 ∨ s.statics.due msg + q.unresolved targets ≤ 10 →
      (loop N q msg targets s).2 = false ∧
        ∃ placed', (loop N q msg targets s).1.Splits q (seen ++ targets) placed') ∧
    (¬ (q.unresolved targets = 0 ∨ s.statics.due msg + q.unresolved targets ≤ 10) →
      (loop N q msg targets s).2 = true ∧
        (loop N q msg targets s).1.failed.length < (seen ++ targets).length) := by
  induction targets generalizing s seen placed with
  | nil => exact ⟨fun _ => ⟨rfl, placed, by rwa [List.append_nil]⟩, fun hn => absurd (.inl rfl) hn⟩
  | cons target targets ih =>
    have hseen : seen ++ target :: targets = (seen ++ [target]) ++ targets := by simp
    cases hhost : q.id2host target with
    | some host =>
      obtain ⟨placed', hp⟩ := h.place N target
      have hih := ih hp
      rw [statics_place] at hih
      rw [loop_cons_host hhost, unresolved_cons_host hhost, hseen]
      exact hih
    | none =>
      rw [unresolved_cons_default hhost]
      by_cases hdue : s.statics.due msg < 10
      · have hset : ({ s with statics := s.statics.retried msg } : Grouping σ).Splits q seen placed :=
          ⟨h.host2targets, h.numMsg, h.perm⟩
        obtain ⟨placed', hp⟩ := hset.place N target
        have hih := ih hp
        rw [statics_place] at hih
        dsimp only at hih
        rw [Statics.due_retried] at hih
        rw [loop_cons_default hhost hdue, hseen]
        exact ⟨fun hc => hih.1 (by omega), fun hc => hih.2 (by omega)⟩
      · obtain ⟨hdrop, hfailed⟩ := loop_cons_discard (N := N) hhost (Nat.le_of_not_lt hdue) targets
        refine ⟨fun hc => absurd hc (by omega), fun _ => ⟨hdrop, ?_⟩⟩
        have hle := h.length_failed
        rw [hfailed, List.length_append, List.length_cons]
        omega

theorem sendAll_copies (hosts : List (UInt64 × List UInt64)) (net : σ) (msg : Message) :
    (sendAll N hosts net msg).1.map (fun c => (c.1, c.2.targets)) = hosts := by
  induction hosts generalizing net msg with
  | nil => rfl
  | cons e hosts ih =>
    rw [sendAll, List.map_cons, ih]

end Grouping

namespace MessageQueue

variable {N : NetCalls σ} {q : MessageQueue} {net : σ} {statics : Statics} {msg : Message}

open Grouping in
theorem sendMessageTo_kept (h : (loop N q msg msg.targets { net, statics }).2 = false) :
    (q.sendMessageTo N net statics msg).ret = (loop N q msg msg.targets { net, statics }).1.numMsg ∧
      (q.sendMessageTo N net statics msg).failed =
        (loop N q msg msg.targets { net, statics }).1.failed ∧
      (q.sendMessageTo N net statics msg).copies.map (fun c => (c.1, c.2.targets)) =
        (loop N q msg msg.targets { net, statics }).1.host2targets.toList := by
  simp only [sendMessageTo, h, Bool.false_eq_true, if_false]
  exact ⟨trivial, trivial, sendAll_copies _ _ _⟩

open Grouping in
theorem sendMessageTo_discarded (h : (loop N q msg msg.targets { net, statics }).2 = true) :
    (q.sendMessageTo N net statics msg).copies = [] ∧
      (q.sendMessageTo N net statics msg).failed =
        (loop N q msg msg.targets { net, statics }).1.failed := by
  simp only [sendMessageTo, h, if_true]
  exact ⟨trivial, trivial⟩

theorem splits_start : ({ net, statics } : Grouping σ).Splits q [] [] := ⟨rfl, rfl, .refl _⟩

theorem sendMessageTo_accounts (h : q.unresolved msg.targets = 0 ∨
    statics.due msg + q.unresolved msg.targets ≤ 10) :
    (q.sendMessageTo N net statics msg).Accounts msg.targets := by
  obtain ⟨hkept, placed, hs⟩ := (Grouping.loop_splits (N := N) msg.targets splits_start).1 h
  obtain ⟨hret, hfailed, hcopies⟩ := sendMessageTo_kept hkept
  rw [List.nil_append] at hs
  rw [hs.host2targets] at hcopies
  have hflat : ((q.sendMessageTo N net statics msg).copies.flatMap fun c => c.2.targets).Perm placed := by
    have hmap := congrArg (List.flatMap Prod.snd) hcopies
    rw [List.flatMap_map] at hmap
    rw [hmap]
    exact Tables.perm_groupBy q.hostOf placed
  refine ⟨?_, ?_, ?_⟩
  · rw [hfailed]
    exact (hflat.append_right _).trans hs.perm
  · have hmap := congrArg (List.map Prod.fst) hcopies
    rw [List.map_map] at hmap
    have hkeys := Tables.nodup_keys (Tables.groupBy q.hostOf placed)
    rwa [← hmap] at hkeys
  · rw [hret, hs.numMsg, hflat.length_eq]

theorem not_accounts_of_discarded (h : ¬ (q.unresolved msg.targets = 0 ∨
    statics.due msg + q.unresolved msg.targets ≤ 10)) :
    ¬ (q.sendMessageTo N net statics msg).Accounts msg.targets := by
  intro ha
  obtain ⟨hdrop, hlt⟩ := (Grouping.loop_splits (N := N) (s := { net, statics }) msg.targets splits_start).2 h
  obtain ⟨hcopies, hfailed⟩ := sendMessageTo_discarded hdrop
  have hlen := ha.targets.length_eq
  rw [hcopies, hfailed, List.flatMap_nil, List.nil_append] at hlen
  rw [List.nil_append] at hlt
  omega

/-- The targets of a message are accounted for unless the retry counter reaches ten at one of
those that go by way of the default host. -/
theorem targets_accounted_iff (N : NetCalls σ) (q : MessageQueue) (net : σ) (statics : Statics)
    (msg : Message) :
    (q.sendMessageTo N net statics msg).Accounts msg.targets ↔
      (q.unresolved msg.targets = 0 ∨
        statics.defaultHostCounter + (if statics.prevDefaultHostMsg.equals msg then 1 else 0) +
          q.unresolved msg.targets ≤ 10) := by
  have hdue : statics.due msg =
      statics.defaultHostCounter + if statics.prevDefaultHostMsg.equals msg then 1 else 0 := by
    rw [Statics.due, Statics.retried]
    dsimp only
    split <;> rfl
  rw [← hdue]
  exact ⟨fun ha => by_contra fun h => not_accounts_of_discarded h ha, sendMessageTo_accounts⟩

/-- Eleven targets without a host of their own; the default host is connected. -/
def elevenTargets : Message := { msgtype := 1, targets := [1, 2, 3, 4, 5, 6, 7, 8, 9, 10, 11] }

def emptyQueue : MessageQueue := ⟨5, fun _ => none, 20⟩

def connectedNet : VastSender := { id := 5, connected := [20] }

theorem targets_accounted_eleven :
    elevenTargets.targets.Nodup ∧
      (emptyQueue.sendMessageTo VastSender.netCalls connectedNet {} elevenTargets).ret = 0 ∧
      (emptyQueue.sendMessageTo VastSender.netCalls connectedNet {} elevenTargets).copies = [] ∧
      (emptyQueue.sendMessageTo VastSender.netCalls connectedNet {} elevenTargets).failed = [] ∧
      ¬ (emptyQueue.sendMessageTo VastSender.netCalls connectedNet {} elevenTargets).Accounts
        elevenTargets.targets := by
  have hcopies : (emptyQueue.sendMessageTo VastSender.netCalls connectedNet {} elevenTargets).copies = [] :=
    rfl
  have hfailed : (emptyQueue.sendMessageTo VastSender.netCalls connectedNet {} elevenTargets).failed = [] :=
    rfl
  refine ⟨by decide, rfl, hcopies, hfailed, fun h => ?_⟩
  have hlen := h.targets.length_eq
  rw [hcopies, hfailed] at hlen
  cases hlen

end MessageQueue

end VastNC
