import VastNC.Subscription

/-! `VASTMatcher::addSubscription` and `updateSubscription` on the table of subscriptions. -/

namespace VastNC

def subscriptionAoiBuffer : UInt16 := 10

namespace Subscription

/-- An update is refused when it was sent before the one that the record shows. -/
def accepts (s : Subscription) (sendtime : UInt64) : Bool := sendtime == 0 || s.time ≤ sendtime

/-- A radius or a height of zero stands for one that was not sent. -/
def moved (s : Subscription) (aoi : Area) (sendtime : UInt64) : Subscription :=
  { s with
    time := if sendtime ≠ 0 then sendtime else s.time
    aoi :=
      { center := aoi.center
        radius := if aoi.radius ≠ 0 then aoi.radius else s.aoi.radius
        height := if aoi.height ≠ 0 then aoi.height else s.aoi.height }
    dirty := true }

def rerouted (s : Subscription) : Option Addr → Subscription
  | some relay => if s.relay.hostId ≠ relay.hostId then { s with relay } else s
  | none => s

@[simp] theorem id_rerouted (s : Subscription) (relay : Option Addr) : (s.rerouted relay).id = s.id := by
  cases relay with
  | none => rfl
  | some r =>
    rw [rerouted]
    split <;> rfl

@[simp] theorem aoi_rerouted (s : Subscription) (relay : Option Addr) : (s.rerouted relay).aoi = s.aoi := by
  cases relay with
  | none => rfl
  | some r =>
    rw [rerouted]
    split <;> rfl

end Subscription

namespace Subscriptions

def addSubscription (m : Subscriptions) (s : Subscription) : Option Subscriptions :=
  match m.find s.id with
  | some _ => none
  | none => some (m.insert { s with dirty := true })

def updateSubscription (m : Subscriptions) (id : UInt64) (aoi : Area) (sendtime : UInt64)
    (relay : Option Addr := none) : Option Subscriptions :=
  match m.find id with
  | none => none
  | some s => if s.accepts sendtime then some (m.insert ((s.moved aoi sendtime).rerouted relay)) else none

theorem find_id {m : Subscriptions} {id : UInt64} {s : Subscription} (h : m.find id = some s) : s.id = id :=
  m.keyed id s h

theorem find_updated (m : Subscriptions) (id : UInt64) (aoi : Area) (sendtime : UInt64) (relay : Option Addr)
    (k : UInt64) : ((m.updateSubscription id aoi sendtime relay).getD m).find k =
      if id = k then (m.find k).map (fun r =>
        if r.accepts sendtime then (r.moved aoi sendtime).rerouted relay else r)
      else m.find k := by
  rw [updateSubscription]
  cases hf : m.find id with
  | none =>
    by_cases hk : id = k
    · rw [if_pos hk, ← hk, hf]
      exact hf
    · rw [if_neg hk]
      rfl
  | some r =>
    dsimp only
    have hid : ((r.moved aoi sendtime).rerouted relay).id = id :=
      (Subscription.id_rerouted _ relay).trans (find_id hf : r.id = id)
    by_cases ha : r.accepts sendtime = true
    · rw [if_pos ha, Option.getD_some, find_insert, hid]
      by_cases hk : id = k
      · rw [if_pos hk, if_pos hk, ← hk, hf, Option.map_some, if_pos ha]
      · rw [if_neg hk, if_neg hk]
    · rw [if_neg ha, Option.getD_none]
      by_cases hk : id = k
      · rw [if_pos hk, ← hk, hf, Option.map_some, if_neg ha]
      · rw [if_neg hk]

end Subscriptions

end VastNC
