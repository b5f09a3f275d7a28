import VastNC.SubscriptionTransfer

/-! Which position of a subscription a matcher keeps: `MOVE` and `MOVE_F` of the client carry their
send times, the records and updates of other matchers do not. -/

namespace VastNC

/-- A message about positions. With each record or update stands the send time of the `MOVE` from
which its sender had the position; it is not on the wire. -/
inductive PositionMessage where
  | move (id : UInt64) (aoi : Area) (sendtime : UInt64)
  | transfer (records : List (SubscriptionRecord × UInt64))
  | update (sender : UInt64) (updates : List ((UInt64 × Area) × UInt64))

namespace PositionMessage

def carried (k : UInt64) : PositionMessage → List (UInt64 × Position)
  | .move id aoi sendtime => if id = k then [(sendtime, aoi.center)] else []
  | .transfer records => (records.filter (fun r => r.1.id == k)).map (fun r => (r.2, r.1.aoi.center))
  | .update _ updates => (updates.filter (fun u => u.1.1 == k)).map (fun u => (u.2, u.1.2.center))

/-- The matcher does not refuse the message, and has the subscription if the message needs it. -/
def taken (k : UInt64) (m : Matcher) : PositionMessage → Bool
  | .move _ _ sendtime => (m.subs.find k).any (fun s => s.accepts sendtime)
  | .transfer _ => true
  | .update _ _ => (m.subs.find k).isSome

end PositionMessage

namespace Matcher

def handlePosition (now : Nat) (m : Matcher) : PositionMessage → Matcher
  | .move id aoi sendtime => (m.updateSubscription now id aoi sendtime).getD m
  | .transfer records => (records.map (fun r => r.1.received)).foldl (transferOne now) m
  | .update sender updates => m.subscribeUpdate now sender (updates.map Prod.fst)

def position (m : Matcher) (k : UInt64) : Option Position := (m.subs.find k).map (fun s => s.aoi.center)

section Position

variable {now : Nat} {m : Matcher} {k : UInt64}

theorem position_updateD (now : Nat) (m : Matcher) (id : UInt64) (aoi : Area) (sendtime : UInt64) (k : UInt64) :
    ((m.updateSubscription now id aoi sendtime).getD m).position k =
      if id = k ∧ (m.subs.find k).any (fun s => s.accepts sendtime) = true then some aoi.center
      else m.position k := by
  rw [position, find_updateD]
  by_cases hk : id = k
  · rw [if_pos hk, position]
    cases m.subs.find k with
    | none => simp
    | some s =>
      by_cases ha : s.accepts sendtime = true
      · simp [hk, ha, Subscription.rerouted, Subscription.moved]
      · simp [hk, ha]
  · rw [if_neg hk, if_neg (fun h => hk h.1), position]

theorem position_transferAll (now : Nat) (records : List SubscriptionRecord) (m : Matcher) (k : UInt64) :
    ((records.map SubscriptionRecord.received).foldl (transferOne now) m).position k =
      ((records.filter (fun r => r.id == k)).map (fun r => r.aoi.center)).getLast?.or (m.position k) := by
  rw [List.foldl_map]
  refine StepRun.view_foldl_last (fun m : Matcher => m.position k) (fun _ => True) (fun _ _ _ => trivial)
    (fun m r _ => ?_) records trivial
  have hid : r.received.id = r.id := rfl
  rw [position, find_transferOne, hid]
  by_cases hk : r.id = k
  · rw [if_pos hk, if_pos (beq_iff_eq.mpr hk)]
    cases m.subs.find k with
    | none => rfl
    | some s =>
      have hacc : s.accepts r.received.time = true := rfl
      dsimp only
      rw [if_pos hacc, Option.map_some, Subscription.aoi_rerouted]
      rfl
  · rw [if_neg hk, if_neg (by simpa using hk)]
    rfl

theorem position_updateAll (now : Nat) (updates : List (UInt64 × Area)) (r : Matcher × List UInt64)
    (h : (r.1.subs.find k).isSome = true) : (updates.foldl (updateOne now) r).1.position k =
      ((updates.filter (fun u => u.1 == k)).map (fun u => u.2.center)).getLast?.or (r.1.position k) := by
  refine StepRun.view_foldl_last (fun r : Matcher × List UInt64 => r.1.position k)
    (fun r => (r.1.subs.find k).isSome = true) (fun r u hr => ?_) (fun r u hr => ?_) updates h
  · rw [find_updateOne]
    split
    · rwa [Option.isSome_map]
    · exact hr
  · obtain ⟨s, hs⟩ := Option.isSome_iff_exists.mp hr
    rw [position, find_updateOne, position, hs]
    by_cases hk : u.1 = k
    · rw [if_pos hk, if_pos (beq_iff_eq.mpr hk)]
      rfl
    · rw [if_neg hk, if_neg (by simpa using hk)]

theorem position_updateNone (now : Nat) (updates : List (UInt64 × Area)) (r : Matcher × List UInt64)
    (h : r.1.subs.find k = none) : (updates.foldl (updateOne now) r).1.subs.find k = none := by
  induction updates generalizing r with
  | nil => exact h
  | cons u updates ih =>
    refine ih _ ?_
    rw [find_updateOne, h]
    split <;> rfl

/-- What is stored after a message: the last position it carries, if it is taken. -/
theorem position_handle (now : Nat) (m : Matcher) (e : PositionMessage) (k : UInt64) :
    (m.handlePosition now e).position k =
      if e.taken k m then ((e.carried k).map Prod.snd).getLast?.or (m.position k) else m.position k := by
  cases e with
  | move id aoi sendtime =>
    rw [handlePosition, position_updateD, PositionMessage.taken, PositionMessage.carried]
    by_cases hk : id = k
    · rw [if_pos hk]
      by_cases ha : (m.subs.find k).any (fun s => s.accepts sendtime) = true
      · rw [if_pos ⟨hk, ha⟩, if_pos ha]
        rfl
      · rw [if_neg (fun h => ha h.2), if_neg ha]
    · rw [if_neg (fun h => hk h.1), if_neg hk]
      split <;> rfl
  | transfer records =>
    rw [handlePosition, PositionMessage.taken, PositionMessage.carried, if_pos rfl, List.map_map]
    have hall := position_transferAll now (records.map Prod.fst) m k
    rw [List.map_map, List.filter_map, List.map_map] at hall
    exact hall
  | update sender updates =>
    rw [handlePosition, position, subs_subscribeUpdate, PositionMessage.taken, PositionMessage.carried]
    cases hf : m.subs.find k with
    | none =>
      rw [position_updateNone now _ (m, []) hf, position, hf]
      rfl
    | some s =>
      have hknown : (m.subs.find k).isSome = true := by rw [hf]; rfl
      have hall := position_updateAll now (updates.map Prod.fst) (m, []) hknown
      rw [List.filter_map, List.map_map] at hall
      rw [Option.isSome_some, if_pos rfl, List.map_map]
      exact hall

end Position

section Time

variable {now : Nat} {m : Matcher} {k : UInt64} {b : UInt64 → Prop}

def Timed (k : UInt64) (b : UInt64 → Prop) (m : Matcher) : Prop := ∀ s, m.subs.find k = some s → b s.time

theorem time_rerouted (s : Subscription) (relay : Option Addr) : (s.rerouted relay).time = s.time := by
  cases relay with
  | none => rfl
  | some r =>
    rw [Subscription.rerouted]
    split <;> rfl

theorem time_moved {s : Subscription} {aoi : Area} {sendtime : UInt64} (hs : b s.time) (hb : b sendtime) :
    b (s.moved aoi sendtime).time := by
  rw [Subscription.moved]
  dsimp only
  split
  · exact hb
  · exact hs

theorem Timed.updateD (h : m.Timed k b) {id : UInt64} {sendtime : UInt64} (hb : id = k → b sendtime)
    (aoi : Area) : ((m.updateSubscription now id aoi sendtime).getD m).Timed k b := by
  intro s hs
  rw [find_updateD] at hs
  by_cases hk : id = k
  · rw [if_pos hk] at hs
    obtain ⟨t, ht, rfl⟩ := Option.map_eq_some_iff.mp hs
    split
    · rw [time_rerouted]
      exact time_moved (h t ht) (hb hk)
    · exact h t ht
  · rw [if_neg hk] at hs
    exact h s hs

theorem Timed.transferAll (h : m.Timed k b) (h0 : b 0) (now : Nat) (records : List SubscriptionRecord) :
    ((records.map SubscriptionRecord.received).foldl (Matcher.transferOne now) m).Timed k b := by
  induction records generalizing m with
  | nil => exact h
  | cons r records ih =>
    refine ih (m := m.transferOne now r.received) (fun s hs => ?_)
    rw [find_transferOne] at hs
    split at hs
    · split at hs
      · rw [← Option.some.inj hs]
        exact h0
      · rename_i t ht
        rw [← Option.some.inj hs]
        split
        · rw [time_rerouted]
          exact time_moved (h t ht) h0
        · exact h t ht
    · exact h s hs

theorem Timed.updateAll {r : Matcher × List UInt64} (h : r.1.Timed k b) (h0 : b 0)
    (updates : List (UInt64 × Area)) : (updates.foldl (updateOne now) r).1.Timed k b := by
  induction updates generalizing r with
  | nil => exact h
  | cons u updates ih =>
    refine ih (r := updateOne now r u) ?_
    rw [(updateOne_eq now r u).1]
    exact h.updateD (fun _ => h0) u.2

theorem Timed.handle (h : m.Timed k b) (h0 : b 0) (e : PositionMessage) (he : ∀ r ∈ e.carried k, b r.1) :
    (m.handlePosition now e).Timed k b := by
  cases e with
  | move id aoi sendtime =>
    refine h.updateD (fun hk => he (sendtime, aoi.center) ?_) aoi
    rw [PositionMessage.carried, if_pos hk]
    exact List.mem_singleton_self _
  | transfer records =>
    have hall := h.transferAll h0 now (records.map Prod.fst)
    rw [List.map_map] at hall
    exact hall
  | update sender updates =>
    intro s hs
    rw [handlePosition, subs_subscribeUpdate] at hs
    exact Timed.updateAll (r := (m, [])) h h0 (updates.map Prod.fst) s hs

end Time

end Matcher

/-- One of the newest positions of the list. -/
def IsNewest (p : Position) (l : List (UInt64 × Position)) : Prop := ∃ r ∈ l, r.2 = p ∧ ∀ q ∈ l, q.1 ≤ r.1

/-- A matcher and the positions of one subscription that it has received so far. No `MOVE` is
recorded that is newer than all of them. -/
structure PositionHistory (k : UInt64) where
  matcher : Matcher
  received : List (UInt64 × Position) := []
  recorded : matcher.Timed k (fun t => t = 0 ∨ ∃ r ∈ received, t ≤ r.1)

namespace PositionHistory

variable {k : UInt64}

theorem recorded_step (h : PositionHistory k) (now : Nat) (e : PositionMessage) :
    (h.matcher.handlePosition now e).Timed k (fun t => t = 0 ∨ ∃ r ∈ h.received ++ e.carried k, t ≤ r.1) := by
  refine Matcher.Timed.handle (fun s hs => ?_) (.inl rfl) e
    (fun r hr => .inr ⟨r, List.mem_append_right _ hr, UInt64.le_refl r.1⟩)
  rcases h.recorded s hs with h0 | ⟨r, hr, hle⟩
  · exact .inl h0
  · exact .inr ⟨r, List.mem_append_left _ hr, hle⟩

def step (h : PositionHistory k) (e : Nat × PositionMessage) : PositionHistory k where
  matcher := h.matcher.handlePosition e.1 e.2
  received := h.received ++ e.2.carried k
  recorded := h.recorded_step e.1 e.2

/-- What is stored is a newest one of the received positions. -/
def Newest (h : PositionHistory k) : Prop :=
  ∀ p, h.matcher.position k = some p → h.received ≠ [] → IsNewest p h.received

/-- If the message is taken, the last position it carries is a newest one, itself included. -/
def TakesNewest (h : PositionHistory k) (e : Nat × PositionMessage) : Prop :=
  e.2.taken k h.matcher = true → ∀ r, (e.2.carried k).getLast? = some r →
    IsNewest r.2 (h.received ++ e.2.carried k)

theorem newest_of_refused {h : PositionHistory k} (hn : h.Newest) {e : Nat × PositionMessage}
    (ht : e.2.taken k h.matcher = false) : (h.step e).Newest := by
  intro p hp _
  have hpos : (h.step e).matcher.position k = h.matcher.position k := by
    rw [step, Matcher.position_handle, ht, if_neg Bool.false_ne_true]
  rw [hpos] at hp
  obtain ⟨s, hs, rfl⟩ := Option.map_eq_some_iff.mp hp
  obtain ⟨now, e⟩ := e
  cases e with
  | move id aoi sendtime =>
    rw [PositionMessage.taken, hs, Option.any_some, Subscription.accepts, Bool.or_eq_false_iff,
      beq_eq_false_iff_ne, decide_eq_false_iff_not, UInt64.not_le] at ht
    obtain ⟨r, hr, hle⟩ := (h.recorded s hs).resolve_left (fun h0 => by simp [h0] at ht)
    obtain ⟨q, hq, hqp, hmax⟩ := hn s.aoi.center hp (List.ne_nil_of_mem hr)
    refine ⟨q, List.mem_append_left _ hq, hqp, fun x hx => ?_⟩
    rcases List.mem_append.mp hx with hx | hx
    · exact hmax x hx
    · rw [PositionMessage.carried] at hx
      split at hx
      · rw [List.mem_singleton.mp hx]
        exact UInt64.le_trans (UInt64.le_of_lt ht.2) (UInt64.le_trans hle (hmax r hr))
      · cases hx
  | transfer records => cases ht
  | update sender updates =>
    rw [PositionMessage.taken, hs] at ht
    cases ht

theorem newest_step_iff {h : PositionHistory k} (hn : h.Newest) (e : Nat × PositionMessage) :
    (h.step e).Newest ↔ h.TakesNewest e := by
  cases ht : e.2.taken k h.matcher with
  | false => exact iff_of_true (newest_of_refused hn ht) (fun htrue => by simp [ht] at htrue)
  | true =>
    have hpos := Matcher.position_handle e.1 h.matcher e.2 k
    rw [ht, if_pos rfl, List.getLast?_map] at hpos
    cases hlast : (e.2.carried k).getLast? with
    | none =>
      have hnil := List.getLast?_eq_none_iff.mp hlast
      rw [hlast, Option.map_none, Option.none_or] at hpos
      refine iff_of_true (fun p hp hne => ?_) (fun _ r hr => by simp [hlast] at hr)
      rw [step] at hp hne ⊢
      dsimp only at hp hne ⊢
      rw [hnil, List.append_nil] at hne ⊢
      exact hn p (hpos.symm.trans hp) hne
    | some r =>
      rw [hlast, Option.map_some, Option.some_or] at hpos
      have hne : h.received ++ e.2.carried k ≠ [] :=
        List.append_ne_nil_of_right_ne_nil _ (List.ne_nil_of_mem (List.mem_of_getLast? hlast))
      constructor
      · intro hnew _ q hq
        rw [hlast] at hq
        rw [← Option.some.inj hq]
        exact hnew r.2 hpos hne
      · intro hc p hp _
        rw [← Option.some.inj (hpos.symm.trans hp)]
        exact hc ht r hlast

/-- The subscription is not known, or no `MOVE` of it has been recorded. -/
def start (m : Matcher) (h : m.Timed k (fun t => t = 0)) : PositionHistory k where
  matcher := m
  recorded s hs := .inl (h s hs)

/-- Nothing that has been received is newer than the time on record. -/
def Current (h : PositionHistory k) : Prop :=
  ∀ s, h.matcher.subs.find k = some s → ∀ r ∈ h.received, r.1 ≤ s.time

theorem current_move {h : PositionHistory k} (hc : h.Current) {sendtime : UInt64} (hpos : sendtime ≠ 0)
    (now : Nat) (id : UInt64) (aoi : Area) : (h.step (now, .move id aoi sendtime)).Current := by
  intro s hs r hr
  change ((h.matcher.updateSubscription now id aoi sendtime).getD h.matcher).subs.find k = some s at hs
  change r ∈ h.received ++ if id = k then [(sendtime, aoi.center)] else [] at hr
  rw [Matcher.find_updateD] at hs
  by_cases hk : id = k
  · rw [if_pos hk] at hs hr
    obtain ⟨old, hold, rfl⟩ := Option.map_eq_some_iff.mp hs
    have htime : (if old.accepts sendtime then (old.moved aoi sendtime).rerouted none else old).time =
        if old.time ≤ sendtime then sendtime else old.time := by
      by_cases hle : old.time ≤ sendtime
      · simp [Subscription.accepts, Subscription.rerouted, Subscription.moved, hpos, hle]
      · simp [Subscription.accepts, hpos, hle]
    rw [htime]
    rcases List.mem_append.mp hr with hr | hr
    · have hle := hc old hold r hr
      split
      · exact UInt64.le_trans hle ‹_›
      · exact hle
    · rw [List.mem_singleton.mp hr]
      split
      · exact UInt64.le_refl sendtime
      · exact UInt64.le_of_lt (UInt64.not_le.mp ‹_›)
  · rw [if_neg hk] at hs hr
    exact hc s hs r (List.append_nil h.received ▸ hr)

theorem takesNewest_move {h : PositionHistory k} (hc : h.Current) {sendtime : UInt64} (hpos : sendtime ≠ 0)
    (now : Nat) (id : UInt64) (aoi : Area) : h.TakesNewest (now, .move id aoi sendtime) := by
  intro ht r hr
  rw [PositionMessage.taken, Option.any_eq_true] at ht
  obtain ⟨s, hs, hacc⟩ := ht
  have hle : s.time ≤ sendtime := by simpa [Subscription.accepts, hpos] using hacc
  rw [PositionMessage.carried] at hr ⊢
  by_cases hk : id = k
  · rw [if_pos hk] at hr ⊢
    obtain rfl := Option.some.inj hr
    refine ⟨_, List.mem_append_right _ (List.mem_singleton_self _), rfl, fun q hq => ?_⟩
    rcases List.mem_append.mp hq with hq | hq
    · exact UInt64.le_trans (hc s hs q hq) hle
    · rw [List.mem_singleton.mp hq]
      exact UInt64.le_refl sendtime
  · rw [if_neg hk] at hr
    cases hr

/-- The moves of the client alone, in whatever order they arrive, leave the newest position. -/
theorem newest_of_moves (m : Matcher) (h : m.Timed k (fun t => t = 0)) {es : List (Nat × PositionMessage)}
    (hes : ∀ e ∈ es, ∃ id aoi sendtime, e.2 = .move id aoi sendtime ∧ sendtime ≠ 0) :
    StepRun.Always step Newest (start m h) es := by
  have halong (h : PositionHistory k) (hc : h.Current) : StepRun.Along step TakesNewest h es := by
    induction es generalizing h with
    | nil => trivial
    | cons e es ih =>
      obtain ⟨⟨id, aoi, sendtime, he, hpos⟩, hrest⟩ := List.forall_mem_cons.mp hes
      obtain ⟨now, e⟩ := e
      obtain rfl : e = .move id aoi sendtime := he
      exact ⟨takesNewest_move hc hpos now id aoi, ih hrest _ (current_move hc hpos now id aoi)⟩
  refine StepRun.always_of_along (fun _ e hn => (newest_step_iff hn e).mpr) (fun _ _ hne => absurd rfl hne)
    (halong _ ?_)
  exact fun _ _ r hr => absurd hr List.not_mem_nil

/-- The newest position is stored all along exactly when no older one is taken. -/
theorem newest_always_iff (k : UInt64) (m : Matcher) (h : m.Timed k (fun t => t = 0))
    (es : List (Nat × PositionMessage)) :
    StepRun.Always step Newest (start m h) es ↔ StepRun.Along step TakesNewest (start m h) es := by
  have hstart : (start m h).Newest := fun _ _ hne => absurd rfl hne
  rw [StepRun.always_iff_along (fun _ e hn => newest_step_iff hn e)]
  exact and_iff_right hstart

def near : Position := { x := ⟨0x3F800000⟩ }

def far : Position := { x := ⟨0x40000000⟩ }

theorem timed_lone : (Matcher.matcherOf [Matcher.lone]).Timed 5 (fun t => t = 0) := by
  intro s hs
  rw [← Option.some.inj hs]
  rfl

theorem newest_forward : StepRun.Always step Newest (start (Matcher.matcherOf [Matcher.lone]) timed_lone)
    [(1, .move 5 { center := near } 10), (2, .move 5 { center := far } 20),
      (3, .transfer [({ hostId := 3, id := 5, aoi := { center := far } }, 20)])] := by
  refine (newest_always_iff 5 _ timed_lone _).mpr ⟨fun _ r hr => ?_, fun _ r hr => ?_, fun _ r hr => ?_, trivial⟩
  · rw [← Option.some.inj hr]
    exact ⟨_, List.mem_cons_self, rfl, by decide⟩
  · rw [← Option.some.inj hr]
    exact ⟨_, List.mem_cons_of_mem _ List.mem_cons_self, rfl, by decide⟩
  · rw [← Option.some.inj hr]
    exact ⟨_, List.mem_cons_of_mem _ List.mem_cons_self, rfl, by decide⟩

/-- A record that another matcher has had since the first of two moves takes the second one back. -/
theorem older_record_wins : ¬ StepRun.Always step Newest (start (Matcher.matcherOf [Matcher.lone]) timed_lone)
    [(1, .move 5 { center := near } 10), (2, .move 5 { center := far } 20),
      (3, .transfer [({ hostId := 3, id := 5, aoi := { center := near } }, 10)])] := by
  intro h
  obtain ⟨r, hr, hnear, hmax⟩ := h _ (List.prefix_refl _) near rfl (List.cons_ne_nil _ _)
  have hnewer : 20 ≤ r.1 := hmax (20, far) (List.mem_cons_of_mem _ List.mem_cons_self)
  change r ∈ [(10, near), (20, far), (10, near)] at hr
  simp only [List.mem_cons, List.not_mem_nil, or_false] at hr
  rcases hr with rfl | rfl | rfl
  · exact absurd hnewer (by decide)
  · exact absurd hnear (by decide)
  · exact absurd hnewer (by decide)

end PositionHistory

end VastNC
