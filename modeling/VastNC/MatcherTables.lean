import VastNC.Lib.StepRun
import VastNC.Matcher

/-! The two tables of a matcher, of subscriptions and of shared objects, in step over its runs. -/

namespace VastNC

namespace Subscriptions

theorem isSome_insert (m : Subscriptions) (s : Subscription) (k : UInt64) :
    ((m.insert s).find k).isSome = (s.id == k || (m.find k).isSome) := by
  rw [find_insert]
  by_cases h : s.id = k
  · simp [h]
  · simp [h]

theorem isSome_foldl_erase (ids : List UInt64) (m : Subscriptions) (k : UInt64) :
    ((ids.foldl erase m).find k).isSome = ((m.find k).isSome && !ids.contains k) := by
  induction ids generalizing m with
  | nil => simp
  | cons id ids ih =>
    rw [List.foldl_cons, ih, find_erase]
    by_cases h : id = k
    · simp [h]
    · simp [h, Ne.symm h]

end Subscriptions

namespace VSOPeer

variable {p : VSOPeer} {now : Nat}

theorem knows_eq_slot (p : VSOPeer) (id : UInt64) : p.knows id = (p.slot id).1.isSome := rfl

theorem knows_insertSharedObject (p : VSOPeer) (now : Nat) (id : UInt64) (aoi : Area) (isOwner : Bool)
    (j : UInt64) : (p.insertSharedObject now id aoi isOwner).1.knows j = (id == j || p.knows j) := by
  rw [knows_eq_slot, slot_insertSharedObject]
  by_cases hid : id = j
  · subst hid
    by_cases ho : p.objects[id]? = none
    · rw [if_pos ⟨rfl, ho⟩, beq_self_eq_true, Bool.true_or]
      split <;> rfl
    · rw [if_neg (fun h => ho h.2), beq_self_eq_true, Bool.true_or]
      exact Option.isSome_iff_ne_none.mpr ho
  · rw [if_neg (fun h => hid h.1), beq_false_of_ne hid, Bool.false_or]
    rfl

theorem knows_modify (p : VSOPeer) (id : UInt64) (f : VSOSharedObject → VSOSharedObject) (j : UInt64) :
    knows { p with objects := p.objects.modify id f } j = p.knows j := by
  rw [knows_eq_slot, slot_modify]
  split
  · exact Option.isSome_map
  · rfl

theorem knows_updateSharedObject (p : VSOPeer) (now : Nat) (id : UInt64) (aoi : Area)
    (isOwner : Option Bool) (j : UInt64) : (p.updateSharedObject now id aoi isOwner).knows j = p.knows j :=
  p.knows_modify id _ j

theorem knows_deleteSharedObject (p : VSOPeer) (id j : UInt64) :
    (p.deleteSharedObject id).knows j = (!id == j && p.knows j) := by
  rw [knows_eq_slot, slot_deleteSharedObject]
  by_cases h : id = j
  · simp [h]
  · simp [h, knows_eq_slot]

theorem knows_handleAck (p : VSOPeer) (id j : UInt64) : (p.handleAck id).knows j = p.knows j :=
  p.knows_modify id _ j

theorem knows_processTransfer (p : VSOPeer) (now : Nat) (msg : Message) (j : UInt64) :
    (p.processTransfer now msg).1.knows j = p.knows j := by
  rw [knows_eq_slot, slot_processTransfer]
  split
  · rw [knows_eq_slot]
    rcases p.slot j with ⟨_ | so, x⟩ <;> rfl
  · rfl

theorem knows_periodic (t : VSOTiming) (now : Nat) (known : UInt64 → Bool) (p : VSOPeer) (j : UInt64) :
    (p.periodic t now known).knows j = (p.knows j &&
      !(decide (now ≥ p.nextPeriodic) && (p.obsolete t now).contains j && known j)) := by
  rw [knows_eq_slot, knows_eq_slot]
  rcases slot_periodic t now known p j with ⟨⟨hdue, so, hso, hold, hknown⟩, hp⟩ | ⟨hstay, hp⟩
  · have hin : j ∈ p.obsolete t now := mem_obsolete.mpr (by rw [hso]; exact hold)
    simp [hp, hdue, hin, hknown]
  · have hno : (decide (now ≥ p.nextPeriodic) && (p.obsolete t now).contains j && known j) = false := by
      rw [Bool.eq_false_iff]
      intro hall
      simp only [Bool.and_eq_true, decide_eq_true_eq, List.contains_iff_mem, mem_obsolete,
        Option.any_eq_true] at hall
      obtain ⟨⟨hdue, so, hso, hold⟩, hknown⟩ := hall
      exact hstay ⟨hdue, so, hso, hold, hknown⟩
    rw [hp, hno, Bool.not_false, Bool.and_true]

theorem knows_tick (t : VSOTiming) (v : VSOView) (now : Nat) (known : UInt64 → Bool) (p : VSOPeer)
    (j : UInt64) : (p.tick t v now known).1.knows j = (p.knows j &&
      !(decide (now ≥ p.nextPeriodic) && (p.obsolete t now).contains j && known j)) := by
  rw [← knows_periodic, knows_eq_slot, slot_tick, tickSlot, knows_eq_slot]
  rcases (p.periodic t now known).slot j with ⟨_ | so, x⟩
  all_goals cases p.joined <;> rfl

/-- An object that is inserted as owned is owned, whatever transfer has been waiting for it. -/
theorem isOwner_insertSharedObject {id : UInt64} (h : p.knows id = false) (aoi : Area) :
    (p.insertSharedObject now id aoi true).1.isOwner id = true := by
  have habs : p.objects[id]? = none := Option.isSome_eq_false_iff.mp h |> Option.isNone_iff_eq_none.mp
  rw [isOwner, objects_eq_slot, slot_insertSharedObject, if_pos ⟨rfl, habs⟩]
  split <;> rfl

theorem isOwner_updateSharedObject_some {id : UInt64} (h : p.knows id = true) (aoi : Area) :
    (p.updateSharedObject now id aoi (some true)).isOwner id = true := by
  obtain ⟨so, hso⟩ := Option.isSome_iff_exists.mp h
  rw [isOwner, objects_eq_slot, slot_updateSharedObject, if_pos rfl, hso]
  rfl

end VSOPeer

namespace Matcher

variable {t : VSOTiming} {v : VSOView} {now : Nat} {m : Matcher}

theorem InStep.add (h : m.InStep) (sub : Subscription) (isOwner : Bool) :
    (m.addSubscription now sub isOwner).InStep := by
  intro id
  rw [addSubscription, Subscriptions.addSubscription]
  cases hf : m.subs.find sub.id with
  | some s => exact h id
  | none =>
    dsimp only
    rw [Subscriptions.isSome_insert, VSOPeer.knows_insertSharedObject, h id]

theorem InStep.remove (h : m.InStep) (id : UInt64) : (m.removeSubscription id).InStep := by
  intro j
  rw [removeSubscription]
  cases hf : m.subs.find id with
  | none => exact h j
  | some s =>
    dsimp only
    rw [Subscriptions.find_erase, VSOPeer.knows_deleteSharedObject, ← h j]
    by_cases hid : id = j
    · simp [hid]
    · simp [hid]

theorem InStep.removeAll (h : m.InStep) (ids : List UInt64) : (ids.foldl removeSubscription m).InStep := by
  induction ids generalizing m with
  | nil => exact h
  | cons id ids ih => exact ih (h.remove id)

theorem updateSubscription_eq {id : UInt64} {aoi : Area} {sendtime : UInt64} {relay : Option Addr}
    {isOwner : Option Bool} {m' : Matcher}
    (h : m.updateSubscription now id aoi sendtime relay isOwner = some m') : ∃ sub s,
      m.subs.find id = some sub ∧ s.id = id ∧ m' = { m with
        subs := m.subs.insert s
        vso := m.vso.updateSharedObject now id (sub.moved aoi sendtime).aoi isOwner } := by
  rw [updateSubscription, Subscriptions.updateSubscription] at h
  cases hf : m.subs.find id with
  | none =>
    rw [hf] at h
    cases h
  | some sub =>
    rw [hf] at h
    simp only [Option.bind_eq_bind, Option.bind_some] at h
    split at h
    · refine ⟨sub, _, rfl, ?_, (Option.some.inj h).symm⟩
      rw [Subscription.id_rerouted]
      exact (Subscriptions.find_id hf : sub.id = id)
    · cases h

theorem find_updateD (m : Matcher) (now : Nat) (id : UInt64) (aoi : Area) (sendtime : UInt64)
    (relay : Option Addr) (isOwner : Option Bool) (k : UInt64) :
    ((m.updateSubscription now id aoi sendtime relay isOwner).getD m).subs.find k =
      if id = k then (m.subs.find k).map (fun r =>
        if r.accepts sendtime then (r.moved aoi sendtime).rerouted relay else r)
      else m.subs.find k := by
  rw [← Subscriptions.find_updated, updateSubscription]
  cases hf : m.subs.find id with
  | none =>
    rw [Subscriptions.updateSubscription, hf]
    rfl
  | some s => cases m.subs.updateSubscription id aoi sendtime relay <;> rfl

theorem InStep.update (h : m.InStep) {id : UInt64} {aoi : Area} {sendtime : UInt64} {relay : Option Addr}
    {isOwner : Option Bool} {m' : Matcher}
    (hu : m.updateSubscription now id aoi sendtime relay isOwner = some m') : m'.InStep := by
  obtain ⟨sub, s, hf, hid, rfl⟩ := updateSubscription_eq hu
  intro j
  dsimp only
  rw [Subscriptions.isSome_insert, VSOPeer.knows_updateSharedObject, hid, ← h j]
  by_cases hj : id = j
  · subst hj
    simp [hf]
  · simp [hj]

theorem InStep.updateD (h : m.InStep) (id : UInt64) (aoi : Area) (sendtime : UInt64) (relay : Option Addr)
    (isOwner : Option Bool) : ((m.updateSubscription now id aoi sendtime relay isOwner).getD m).InStep := by
  cases hu : m.updateSubscription now id aoi sendtime relay isOwner with
  | none => exact h
  | some m' => exact h.update hu

theorem InStep.transferOne (h : m.InStep) (sub : Subscription) : (m.transferOne now sub).InStep := by
  rw [Matcher.transferOne]
  split
  · exact h.add sub false
  · exact h.updateD sub.id sub.aoi sub.time (some sub.relay) none

theorem InStep.transferAll (h : m.InStep) (subs : List Subscription) :
    (subs.foldl (Matcher.transferOne now) m).InStep := by
  induction subs generalizing m with
  | nil => exact h
  | cons sub subs ih => exact ih (h.transferOne sub)

theorem InStep.updateAll {r : Matcher × List UInt64} (h : r.1.InStep) (updates : List (UInt64 × Area)) :
    (updates.foldl (updateOne now) r).1.InStep := by
  induction updates generalizing r with
  | nil => exact h
  | cons u updates ih =>
    refine ih (r := updateOne now r u) ?_
    rw [updateOne]
    cases hu : r.1.updateSubscription now u.1 u.2 0 with
    | none => exact h
    | some m' => exact h.update hu

theorem InStep.subscribeUpdate (h : m.InStep) (sender : UInt64) (updates : List (UInt64 × Area)) :
    (m.subscribeUpdate now sender updates).InStep := by
  have hall : (updates.foldl (updateOne now) (m, [])).1.InStep := InStep.updateAll h updates
  rw [Matcher.subscribeUpdate]
  dsimp only
  split
  · exact hall
  · intro id
    refine (hall id).trans ?_
    rw [VSOPeer.knows_eq_slot, VSOPeer.knows_eq_slot, VSOPeer.slot_requestObjects]

theorem InStep.tickVSO (h : m.InStep) (t : VSOTiming) (v : VSOView) (now : Nat) : (m.tickVSO t v now).InStep := by
  intro id
  rw [Matcher.tickVSO]
  dsimp only
  rw [VSOPeer.knows_tick, Subscriptions.isSome_foldl_erase, ← h id]
  by_cases hdue : now ≥ m.vso.nextPeriodic
  · rw [if_pos hdue]
    cases (m.subs.find id).isSome <;> simp [hdue]
  · simp [hdue]

theorem InStep.refreshOwned (h : m.InStep) : (m.refreshOwned now).InStep := by
  rw [Matcher.refreshOwned]
  generalize m.subs.entries = l
  induction l generalizing m with
  | nil => exact h
  | cons s l ih =>
    refine ih ?_
    dsimp only
    split
    · exact h.updateD s.id s.aoi s.time none none
    · exact h

theorem InStep.postHandling (h : m.InStep) (t : VSOTiming) (v : VSOView) (now : Nat) (failed : List UInt64) :
    (m.postHandling t v now failed).InStep := by
  rw [Matcher.postHandling]
  refine InStep.tickVSO ?_ t v now
  split
  · have hrest : (m.removeFailedSubscribers failed).InStep := h.removeAll failed
    dsimp only
    split
    · exact InStep.refreshOwned (m := { m.removeFailedSubscribers failed with nextPeriodic := now + t.second })
        hrest
    · exact hrest
  · exact h

theorem InStep.accept (h : m.InStep) (sub : Subscription) : (m.acceptSubscription now sub).InStep := by
  rw [acceptSubscription]
  split
  · exact h.add sub true
  · exact h.updateD sub.id sub.aoi 0 (some sub.relay) (some true)

theorem isOwner_accept (h : m.InStep) (sub : Subscription) :
    (m.acceptSubscription now sub).vso.isOwner sub.id = true := by
  have hknows := h sub.id
  rw [acceptSubscription]
  cases hf : m.subs.find sub.id with
  | none =>
    dsimp only
    rw [addSubscription, Subscriptions.addSubscription, hf]
    rw [hf] at hknows
    exact VSOPeer.isOwner_insertSharedObject hknows.symm sub.aoi
  | some old =>
    dsimp only
    rw [updateSubscription, Subscriptions.updateSubscription, hf]
    simp only [Option.bind_eq_bind, Option.bind_some, Subscription.accepts, beq_self_eq_true,
      Bool.true_or, if_true, Option.getD_some]
    rw [hf] at hknows
    exact VSOPeer.isOwner_updateSharedObject_some hknows.symm _

/-- What is acknowledged is in both tables, and the matcher owns it. -/
theorem InStep.subscribe (h : m.InStep) (v : VSOView) (sub : Subscription) (fresh : UInt64) :
    (m.subscribe now v sub fresh).1.InStep ∧ ∀ id, (m.subscribe now v sub fresh).2 = some id →
      (m.subscribe now v sub fresh).1.vso.isOwner id = true := by
  rw [Matcher.subscribe]
  split
  · refine ⟨h.accept _, fun id hid => ?_⟩
    rw [← Option.some.inj hid]
    exact isOwner_accept h _
  · exact ⟨h, fun id hid => nomatch hid⟩

theorem InStep.disconnect (h : m.InStep) (host : UInt64) :
    (m.handle t now (.disconnect host)).1.InStep := by
  intro id
  have hrest : (m.subscriberDisconnected host).InStep := h.removeAll _
  refine (hrest id).trans ?_
  rw [VSOPeer.knows_eq_slot, VSOPeer.knows_eq_slot, handle]
  dsimp only
  rw [VSOPeer.slot_handleDisconnect]
  rfl

/-- `MATCHER_INIT` resets the objects only: what is left is in step if no subscription is. -/
theorem inStep_matcherInit (h : m.InStep) (t : VSOTiming) (v : VSOView) (now : Nat) (origin : UInt64) :
    (m.matcherInit t v now origin).InStep ↔ (origin ≠ m.vso.self → ∀ id, (m.subs.find id).isSome = true →
      now ≥ m.vso.nextPeriodic ∧ id ∈ m.vso.obsolete t now) := by
  rw [matcherInit]
  by_cases ho : origin = m.vso.self
  · rw [if_neg (not_not.mpr ho)]
    exact iff_of_true h (fun hne => absurd ho hne)
  · rw [if_pos ho]
    have hleft (id : UInt64) : ((m.leave t v now).subs.find id).isSome =
        ((m.subs.find id).isSome &&
          !(if now ≥ m.vso.nextPeriodic then m.vso.obsolete t now else []).contains id) := by
      rw [leave, tickVSO]
      exact Subscriptions.isSome_foldl_erase _ m.subs id
    have hempty (id : UInt64) :
        VSOPeer.knows { self := (m.leave t v now).vso.self, joined := true } id = false := by
      simp [VSOPeer.knows]
    constructor
    · intro hs _ id hsub
      have hid := (hs id).trans (hempty id)
      change ((m.leave t v now).subs.find id).isSome = false at hid
      rw [hleft, hsub, Bool.true_and, Bool.not_eq_false', List.contains_iff_mem] at hid
      split at hid
      · exact ⟨‹_›, hid⟩
      · cases hid
    · intro hk id
      refine Eq.trans ?_ (hempty id).symm
      change ((m.leave t v now).subs.find id).isSome = false
      rw [hleft]
      cases hsub : (m.subs.find id).isSome with
      | false => rfl
      | true =>
        obtain ⟨hdue, hold⟩ := hk ho id hsub
        rw [if_pos hdue, List.contains_iff_mem.mpr hold]
        rfl

end Matcher

structure MatcherHistory where
  matcher : Matcher
  acked : Option UInt64 := none

namespace MatcherHistory

/-- An event with the time at which it is handled. -/
def step (t : VSOTiming) (h : MatcherHistory) (e : Nat × MatcherEvent) : MatcherHistory :=
  ⟨(h.matcher.handle t e.1 e.2).1, (h.matcher.handle t e.1 e.2).2⟩

structure Served (h : MatcherHistory) : Prop where
  inStep : h.matcher.InStep
  owned : ∀ id, h.acked = some id → h.matcher.vso.isOwner id = true

/-- Another origin is named only to a matcher whose subscriptions all go with its last tick. -/
def KeepsTables (t : VSOTiming) (h : MatcherHistory) (e : Nat × MatcherEvent) : Prop :=
  match e.2 with
  | .matcherInit _ origin => origin ≠ h.matcher.vso.self → ∀ id, (h.matcher.subs.find id).isSome = true →
      e.1 ≥ h.matcher.vso.nextPeriodic ∧ id ∈ h.matcher.vso.obsolete t e.1
  | _ => True

variable {t : VSOTiming} {h : MatcherHistory}

theorem served_of_inStep {e : Nat × MatcherEvent} (hs : (h.matcher.handle t e.1 e.2).1.InStep)
    (hno : (h.matcher.handle t e.1 e.2).2 = none) : (h.step t e).Served :=
  ⟨hs, fun _ hid => absurd (hno.symm.trans hid) (nomatch ·)⟩

theorem served_ifActive (hh : h.Served) {e : Nat × MatcherEvent} {m : Matcher}
    (he : h.matcher.handle t e.1 e.2 = h.matcher.ifActive (m, none)) (hm : m.InStep) : (h.step t e).Served := by
  rw [Matcher.ifActive] at he
  split at he
  · exact served_of_inStep (he ▸ hm) (by rw [he])
  · exact served_of_inStep (he ▸ hh.inStep) (by rw [he])

theorem served_subscribe (hh : h.Served) (now : Nat) (v : VSOView) (sub : Subscription) (fresh : UInt64) :
    (h.step t (now, .subscribe v sub fresh)).Served := by
  rw [step, Matcher.handle, Matcher.ifActive]
  split
  · obtain ⟨hs, ho⟩ := hh.inStep.subscribe v sub fresh
    exact ⟨hs, ho⟩
  · exact ⟨hh.inStep, fun _ hid => nomatch hid⟩

theorem keepsTables_iff (hh : h.Served) (e : Nat × MatcherEvent) : (h.step t e).Served ↔ h.KeepsTables t e := by
  obtain ⟨now, e⟩ := e
  cases e with
  | subscribe v sub fresh => exact iff_of_true (served_subscribe hh now v sub fresh) trivial
  | subscribeTransfer subs => exact iff_of_true (served_ifActive hh rfl (hh.inStep.transferAll subs)) trivial
  | subscribeUpdate sender updates =>
    exact iff_of_true (served_ifActive hh rfl (hh.inStep.subscribeUpdate sender updates)) trivial
  | move id aoi sendtime =>
    exact iff_of_true (served_ifActive hh rfl (hh.inStep.updateD id aoi sendtime none none)) trivial
  | leave host => exact iff_of_true (served_ifActive hh rfl (hh.inStep.removeAll _)) trivial
  | disconnect host => exact iff_of_true (served_of_inStep (hh.inStep.disconnect host) rfl) trivial
  | matcherInit v origin =>
    refine Iff.trans ⟨fun hs => hs.inStep, fun hs => served_of_inStep hs rfl⟩ ?_
    exact Matcher.inStep_matcherInit hh.inStep t v now origin
  | transfer msg =>
    refine iff_of_true (served_of_inStep (fun id => ?_) rfl) trivial
    exact (hh.inStep id).trans (VSOPeer.knows_processTransfer _ now msg id).symm
  | transferAck k =>
    refine iff_of_true (served_of_inStep (fun id => ?_) rfl) trivial
    exact (hh.inStep id).trans (VSOPeer.knows_handleAck _ k id).symm
  | vsoJoined joined => exact iff_of_true (served_of_inStep hh.inStep rfl) trivial
  | postHandling v failed =>
    exact iff_of_true (served_of_inStep (hh.inStep.postHandling t v now failed) rfl) trivial

/-- In every state that a matcher reaches from its `join`, the ids of its subscriptions and of its
shared objects are the same and it owns what it has just acknowledged, exactly when it is never
named another origin while a subscription stays with it. -/
theorem served_always_iff (t : VSOTiming) (self : UInt64) (es : List (Nat × MatcherEvent)) :
    StepRun.Always (step t) Served ⟨{ vso := { self, joined := false } }, none⟩ es ↔
      StepRun.Along (step t) (KeepsTables t) ⟨{ vso := { self, joined := false } }, none⟩ es := by
  have hstart : Served ⟨{ vso := { self, joined := false } }, none⟩ := by
    refine ⟨fun id => ?_, fun _ hid => nomatch hid⟩
    simp [Subscriptions.find, Subscriptions.empty, VSOPeer.knows]
  rw [StepRun.always_iff_along (fun h e hh => keepsTables_iff hh e)]
  exact and_iff_right hstart

/-- A client subscribes at the origin matcher, which is then named another origin; the client
subscribes again. -/
def demotion : List (Nat × MatcherEvent) :=
  [(1, .matcherInit (.ofPartition halfPlane 1 2) 1),
    (2, .subscribe (.ofPartition halfPlane 1 2) { id := 7, hostId := 5 } 0),
    (3, .matcherInit (.ofPartition halfPlane 1 2) 2),
    (4, .subscribe (.ofPartition halfPlane 1 2) { id := 7, hostId := 5 } 0)]

/-- The subscription has stayed without its object, and is acknowledged but not owned. -/
theorem demotion_unserved :
    ¬ StepRun.Always (step tens) Served ⟨{ vso := { self := 1, joined := false } }, none⟩ demotion ∧
      (demotion.foldl (step tens) ⟨{ vso := { self := 1, joined := false } }, none⟩).acked = some 7 ∧
      (demotion.foldl (step tens) ⟨{ vso := { self := 1, joined := false } }, none⟩).matcher.vso.isOwner 7 =
        false := by
  have hacked : (demotion.foldl (step tens) ⟨{ vso := { self := 1, joined := false } }, none⟩).acked =
      some 7 := by decide
  have howner : (demotion.foldl (step tens)
      ⟨{ vso := { self := 1, joined := false } }, none⟩).matcher.vso.isOwner 7 = false := by decide
  refine ⟨fun h => ?_, hacked, howner⟩
  have hserved := (h demotion (List.prefix_refl _)).owned 7 hacked
  rw [howner] at hserved
  cases hserved

end MatcherHistory

end VastNC
