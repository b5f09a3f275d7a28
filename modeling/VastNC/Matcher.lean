import VastNC.SubscriptionUpdate
import VastNC.VsoPeer

/-! `VASTMatcher`: its table of subscriptions beside the objects of its `VSOPeer`. The handlers
that change either of the two. -/

namespace VastNC

/-- A joined matcher; the id of its `VSOPeer` is its own. -/
structure Matcher where
  subs : Subscriptions := .empty
  vso : VSOPeer
  originId : UInt64 := 0
  nextPeriodic : Nat := 0

namespace Matcher

def addSubscription (now : Nat) (m : Matcher) (sub : Subscription) (isOwner : Bool) : Matcher :=
  match m.subs.addSubscription sub with
  | none => m
  | some subs => { m with subs, vso := (m.vso.insertSharedObject now sub.id sub.aoi isOwner).1 }

def removeSubscription (m : Matcher) (id : UInt64) : Matcher :=
  match m.subs.find id with
  | none => m
  | some _ => { m with subs := m.subs.erase id, vso := m.vso.deleteSharedObject id }

/-- `updateSubscription`; `none` where it returns false. -/
def updateSubscription (now : Nat) (m : Matcher) (id : UInt64) (aoi : Area) (sendtime : UInt64)
    (relay : Option Addr := none) (isOwner : Option Bool := none) : Option Matcher := do
  let sub ← m.subs.find id
  let subs ← m.subs.updateSubscription id aoi sendtime relay
  some { m with subs, vso := m.vso.updateSharedObject now id (sub.moved aoi sendtime).aoi isOwner }

def acceptSubscription (now : Nat) (m : Matcher) (sub : Subscription) : Matcher :=
  match m.subs.find sub.id with
  | none => m.addSubscription now sub true
  | some _ => (m.updateSubscription now sub.id sub.aoi 0 (some sub.relay) (some true)).getD m

/-- `SUBSCRIBE`, with the id that is acknowledged; a subscription of another region is forwarded. -/
def subscribe (now : Nat) (m : Matcher) (v : VSOView) (sub : Subscription) (fresh : UInt64) :
    Matcher × Option UInt64 :=
  if v.contains sub.aoi.center = true ∨ v.closestTo sub.aoi.center = m.vso.self then
    let sub := { sub with
      aoi := { sub.aoi with radius := sub.aoi.radius + subscriptionAoiBuffer }
      id := if sub.id = netIdUnassigned then fresh else sub.id }
    (m.acceptSubscription now sub, some sub.id)
  else (m, none)

def transferOne (now : Nat) (m : Matcher) (sub : Subscription) : Matcher :=
  match m.subs.find sub.id with
  | none => m.addSubscription now sub false
  | some _ => (m.updateSubscription now sub.id sub.aoi sub.time (some sub.relay)).getD m

/-- One update of `SUBSCRIBE_UPDATE`; the ids of missing subscriptions are collected. -/
def updateOne (now : Nat) (r : Matcher × List UInt64) (u : UInt64 × Area) : Matcher × List UInt64 :=
  match r.1.updateSubscription now u.1 u.2 0 with
  | some m => (m, r.2)
  | none => (r.1, r.2 ++ [u.1])

def subscribeUpdate (now : Nat) (m : Matcher) (sender : UInt64) (updates : List (UInt64 × Area)) :
    Matcher :=
  let r := updates.foldl (updateOne now) (m, [])
  if r.2 = [] then r.1 else { r.1 with vso := (r.1.vso.requestObjects sender r.2).1 }

def subscriberDisconnected (m : Matcher) (host : UInt64) : Matcher :=
  ((m.subs.entries.filter (fun s => s.hostId == host)).map Subscription.id).foldl removeSubscription m

def removeFailedSubscribers (m : Matcher) (failed : List UInt64) : Matcher :=
  failed.foldl removeSubscription m

/-- `tick` of the `VSOPeer`: an obsolete object is removed with its subscription. -/
def tickVSO (t : VSOTiming) (v : VSOView) (now : Nat) (m : Matcher) : Matcher :=
  { m with
    subs := (if now ≥ m.vso.nextPeriodic then m.vso.obsolete t now else []).foldl Subscriptions.erase m.subs
    vso := (m.vso.tick t v now (fun id => (m.subs.find id).isSome)).1 }

def refreshOwned (now : Nat) (m : Matcher) : Matcher :=
  m.subs.entries.foldl (fun m s =>
    if m.vso.isOwner s.id then (m.updateSubscription now s.id s.aoi s.time).getD m else m) m

def postHandling (t : VSOTiming) (v : VSOView) (now : Nat) (m : Matcher) (failed : List UInt64) : Matcher :=
  let m := if m.vso.joined then
      let m := m.removeFailedSubscribers failed
      if now ≥ m.nextPeriodic then { m with nextPeriodic := now + t.second }.refreshOwned now else m
    else m
  m.tickVSO t v now

def leave (t : VSOTiming) (v : VSOView) (now : Nat) (m : Matcher) : Matcher :=
  { m with vso := { m.vso with joined := false } }.tickVSO t v now

def join (m : Matcher) : Matcher := { m with vso := { self := m.vso.self, joined := false } }

/-- `MATCHER_INIT`. The `VSOPeer` joins with itself as origin, which it does at once. -/
def matcherInit (t : VSOTiming) (v : VSOView) (now : Nat) (m : Matcher) (origin : UInt64) : Matcher :=
  let m := if origin ≠ m.vso.self then (m.leave t v now).join else m
  { m with originId := origin, vso := { m.vso with joined := true } }

end Matcher

inductive MatcherEvent where
  | subscribe (v : VSOView) (sub : Subscription) (fresh : UInt64)
  | subscribeTransfer (subs : List Subscription)
  | subscribeUpdate (sender : UInt64) (updates : List (UInt64 × Area))
  | move (id : UInt64) (aoi : Area) (sendtime : UInt64)
  | leave (host : UInt64)
  | disconnect (host : UInt64)
  | matcherInit (v : VSOView) (origin : UInt64)
  | transfer (msg : Message)
  | transferAck (id : UInt64)
  | vsoJoined (joined : Bool)
  | postHandling (v : VSOView) (failed : List UInt64)

namespace Matcher

/-- Handlers of the matcher that need its `VSOPeer` to have joined. -/
def ifActive (m : Matcher) (r : Matcher × Option UInt64) : Matcher × Option UInt64 :=
  if m.vso.joined then r else (m, none)

def handle (t : VSOTiming) (now : Nat) (m : Matcher) : MatcherEvent → Matcher × Option UInt64
  | .subscribe v sub fresh => m.ifActive (m.subscribe now v sub fresh)
  | .subscribeTransfer subs => m.ifActive (subs.foldl (transferOne now) m, none)
  | .subscribeUpdate sender updates => m.ifActive (m.subscribeUpdate now sender updates, none)
  | .move id aoi sendtime => m.ifActive ((m.updateSubscription now id aoi sendtime).getD m, none)
  | .leave host => m.ifActive (m.subscriberDisconnected host, none)
  | .disconnect host =>
    let m := m.subscriberDisconnected host
    ({ m with vso := m.vso.handleDisconnect host }, none)
  | .matcherInit v origin => (m.matcherInit t v now origin, none)
  | .transfer msg => ({ m with vso := (m.vso.processTransfer now msg).1 }, none)
  | .transferAck id => ({ m with vso := m.vso.handleAck id }, none)
  | .vsoJoined joined => ({ m with vso := { m.vso with joined } }, none)
  | .postHandling v failed => (m.postHandling t v now failed, none)

def InStep (m : Matcher) : Prop := ∀ id, (m.subs.find id).isSome = m.vso.knows id

end Matcher

end VastNC
