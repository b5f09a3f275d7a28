import VastNC.SubscriptionUpdate
import VastNC.Lib.StepRun

/-! The area of interest at the client and at the matcher that owns its subscription:
`VASTClient::subscribe` and `move`, and the matcher's `SUBSCRIBE`, `MOVE` and `MOVE_F`. -/

namespace VastNC

/-- The stored area is the client's, with the buffer added to its radius. -/
structure Subscription.Shows (r : Subscription) (aoi : Area) : Prop where
  center : r.aoi.center = aoi.center
  height : r.aoi.height = aoi.height
  radius : r.aoi.radius.toNat = aoi.radius.toNat + subscriptionAoiBuffer.toNat

inductive AreaMessage where
  | subscribe (sub : Subscription)
  | move (id time : UInt64) (x y : Coord)
  | moveF (id time : UInt64) (x y : Coord) (radius height : UInt16)

/-- `_sub` with its `active`, and `_time_adjust` of the network layer. The client has joined and
its subscription has an id. -/
structure AreaClient where
  sub : Subscription
  active : Bool := false
  timeAdjust : Int32 := 0

namespace AreaClient

/-- `VASTnet::getTimestamp`, where `clock` is the manager's. -/
def getTimestamp (c : AreaClient) (clock : UInt64) : UInt64 := clock + UInt64.ofInt c.timeAdjust.toInt

/-- What is serialized of a subscription. -/
def subscribe (c : AreaClient) (area : Area) (layer : UInt16) (relay : Addr) :
    AreaClient × List AreaMessage :=
  let sub := { c.sub with aoi := area, layer, relay }
  ({ c with sub, active := false },
    [.subscribe { hostId := sub.hostId, id := sub.id, layer := sub.layer, aoi := sub.aoi, relay := sub.relay }])

def move (c : AreaClient) (id : UInt64) (aoi : Area) (updateOnly : Bool) (clock : UInt64) :
    AreaClient × List AreaMessage :=
  if c.active = false then (c, [])
  else if id ≠ c.sub.id then ({ c with active := false }, [])
  else
    let prev := { c.sub.aoi with center := aoi.center }
    let time := c.getTimestamp clock
    let msg := if prev.differs aoi then
        AreaMessage.moveF id time aoi.center.x aoi.center.y aoi.radius aoi.height
      else .move id time aoi.center.x aoi.center.y
    let prev := if prev.differs aoi then aoi else prev
    ({ c with sub := { c.sub with aoi := prev } }, if updateOnly then [] else [msg])

/-- The client's `SUBSCRIBE_R`, which carries the id it has asked with. -/
def subscribed (c : AreaClient) : AreaClient := { c with active := true }

def syncClock (c : AreaClient) (clock sent gateway : UInt64) : AreaClient :=
  let now := c.getTimestamp clock
  let latency := (now - sent) / 2
  let adjust := if gateway + latency ≥ now then (gateway + latency - now).toInt64.toInt32
    else -(now - (gateway + latency)).toInt64.toInt32
  { c with timeAdjust := c.timeAdjust + adjust }

end AreaClient

/-- The matcher's handling; the updates leave the table alone when they are refused. -/
def Subscriptions.handleArea (m : Subscriptions) : AreaMessage → Subscriptions
  | .subscribe sub =>
    let sub := { sub with aoi := { sub.aoi with radius := sub.aoi.radius + subscriptionAoiBuffer } }
    match m.find sub.id with
    | none => (m.addSubscription sub).getD m
    | some _ => (m.updateSubscription sub.id sub.aoi 0 (some sub.relay)).getD m
  | .move id time x y => (m.updateSubscription id { center := { x, y } } time).getD m
  | .moveF id time x y radius height =>
    (m.updateSubscription id { center := { x, y }, radius, height } time).getD m

inductive AreaEvent where
  | subscribe (area : Area) (layer : UInt16) (relay : Addr)
  | subscribed
  | move (id : UInt64) (aoi : Area) (updateOnly : Bool) (clock : UInt64)
  | syncClock (clock sent gateway : UInt64)
  | deliver

structure AreaSystem where
  client : AreaClient
  channel : List AreaMessage
  matcher : Subscriptions

namespace AreaSystem

def sends (s : AreaSystem) (r : AreaClient × List AreaMessage) : AreaSystem :=
  { s with client := r.1, channel := s.channel ++ r.2 }

def step (s : AreaSystem) : AreaEvent → AreaSystem
  | .subscribe area layer relay => s.sends (s.client.subscribe area layer relay)
  | .subscribed => { s with client := s.client.subscribed }
  | .move id aoi updateOnly clock => s.sends (s.client.move id aoi updateOnly clock)
  | .syncClock clock sent gateway => { s with client := s.client.syncClock clock sent gateway }
  | .deliver =>
    match s.channel with
    | [] => s
    | m :: ms => { s with channel := ms, matcher := s.matcher.handleArea m }

def quiesce (s : AreaSystem) : AreaSystem := (List.replicate s.channel.length .deliver).foldl step s

def Agree (s : AreaSystem) : Prop :=
  ∃ r, s.matcher.find s.client.sub.id = some r ∧ r.Shows s.client.sub.aoi

def settled (s : AreaSystem) : Subscriptions := s.channel.foldl Subscriptions.handleArea s.matcher

def accepts (s : AreaSystem) (clock : UInt64) : Bool :=
  (s.settled.find s.client.sub.id).any (fun r => r.accepts (s.client.getTimestamp clock))

/-- The steps that keep the areas in agreement: subscribing with a radius that leaves room for
the buffer, without taking back a height; a move that is sent and accepted, in the plane, and
leaves radius and height alone or has no radius to change. -/
def Keeps (s : AreaSystem) : AreaEvent → Prop
  | .subscribe area _ _ => area.radius.toNat + 10 < 2 ^ 16 ∧
      (area.height ≠ 0 ∨ s.client.sub.aoi.height = 0)
  | .move id aoi updateOnly clock => s.client.active = false ∨ id ≠ s.client.sub.id ∨
      if updateOnly = true ∨ s.accepts clock = false then aoi = s.client.sub.aoi
      else aoi.center.z = 0 ∧ aoi.radius = s.client.sub.aoi.radius ∧
        (aoi.height = s.client.sub.aoi.height ∧ aoi.center.equals aoi.center = true ∨
          aoi.radius = 0 ∧ (aoi.height ≠ 0 ∨ s.client.sub.aoi.height = 0))
  | .subscribed => True
  | .syncClock _ _ _ => True
  | .deliver => True

end AreaSystem

namespace Subscriptions

variable {m : Subscriptions} {id : UInt64} {r : Subscription}

theorem find_updateSubscription (h : m.find id = some r) (aoi : Area) (sendtime : UInt64)
    (relay : Option Addr) : ((m.updateSubscription id aoi sendtime relay).getD m).find id =
      some (if r.accepts sendtime then (r.moved aoi sendtime).rerouted relay else r) := by
  rw [find_updated, if_pos rfl, h, Option.map_some]

end Subscriptions

namespace Subscription

variable {r : Subscription} {cur : Area}

theorem shows_moved {aoi : Area} {sendtime : UInt64} {relay : Option Addr} {new : Area} :
    ((r.moved aoi sendtime).rerouted relay).Shows new ↔ aoi.center = new.center ∧
      (if aoi.height ≠ 0 then aoi.height else r.aoi.height) = new.height ∧
      (if aoi.radius ≠ 0 then aoi.radius else r.aoi.radius).toNat = new.radius.toNat + 10 := by
  constructor
  · rintro ⟨hc, hh, hr⟩
    rw [aoi_rerouted] at hc hh hr
    exact ⟨hc, hh, hr⟩
  · rintro ⟨hc, hh, hr⟩
    constructor
    all_goals rw [aoi_rerouted]
    · exact hc
    · exact hh
    · exact hr

theorem Shows.iff_eq (h : r.Shows cur) {aoi : Area} : r.Shows aoi ↔ aoi = cur := by
  constructor
  · intro h'
    have hr : aoi.radius = cur.radius := by
      rw [← UInt16.toNat_inj]
      have h₁ := h.radius
      have h₂ := h'.radius
      omega
    cases aoi
    cases cur
    rw [Area.mk.injEq]
    exact ⟨h'.center.symm.trans h.center, hr, h'.height.symm.trans h.height⟩
  · rintro rfl
    exact h

theorem subscribe_fits (radius : UInt16) :
    (radius + subscriptionAoiBuffer).toNat = radius.toNat + 10 ↔ radius.toNat + 10 < 2 ^ 16 := by
  rw [UInt16.toNat_add]
  have hlt := radius.toNat_lt
  change (radius.toNat + 10) % 2 ^ 16 = radius.toNat + 10 ↔ _
  omega

theorem Shows.resubscribe (h : r.Shows cur) {area : Area} {relay : Option Addr} :
    ((r.moved { area with radius := area.radius + subscriptionAoiBuffer } 0).rerouted relay).Shows area ↔
      area.radius.toNat + 10 < 2 ^ 16 ∧ (area.height ≠ 0 ∨ cur.height = 0) := by
  have hheight : (if area.height ≠ 0 then area.height else r.aoi.height) = area.height ↔
      area.height ≠ 0 ∨ cur.height = 0 := by
    rw [h.height]
    by_cases hz : area.height = 0
    · simp [hz]
    · simp [hz]
  have hradius : (if area.radius + subscriptionAoiBuffer ≠ 0 then area.radius + subscriptionAoiBuffer
      else r.aoi.radius).toNat = area.radius.toNat + 10 ↔ area.radius.toNat + 10 < 2 ^ 16 := by
    by_cases hz : area.radius + subscriptionAoiBuffer = 0
    · have hsum := (subscribe_fits area.radius).not
      rw [hz] at hsum
      have hr := r.aoi.radius.toNat_lt
      have hn : ¬ area.radius.toNat + 10 < 2 ^ 16 := hsum.mp (by simp)
      rw [if_neg (not_not.mpr hz)]
      omega
    · rw [if_pos hz]
      exact subscribe_fits area.radius
  rw [shows_moved, hheight, hradius]
  simp only [true_and]
  exact and_comm

theorem planar_iff {c : Position} : ({ x := c.x, y := c.y } : Position) = c ↔ c.z = 0 := by
  cases c
  simp [eq_comm]

theorem Shows.move (h : r.Shows cur) {aoi : Area} {time : UInt64} (hr : aoi.radius = cur.radius)
    (hh : aoi.height = cur.height) :
    ((r.moved { center := { x := aoi.center.x, y := aoi.center.y } } time).rerouted none).Shows aoi ↔
      aoi.center.z = 0 := by
  have hradius : r.aoi.radius.toNat = cur.radius.toNat + 10 := h.radius
  rw [shows_moved, planar_iff, hr, hh]
  simp [h.height, hradius]

theorem Shows.moveF (h : r.Shows cur) {aoi : Area} {time : UInt64} :
    ((r.moved { center := { x := aoi.center.x, y := aoi.center.y }
                radius := aoi.radius, height := aoi.height } time).rerouted none).Shows aoi ↔
      aoi.center.z = 0 ∧ aoi.radius = cur.radius ∧ aoi.radius = 0 ∧
        (aoi.height ≠ 0 ∨ cur.height = 0) := by
  have hradius : r.aoi.radius.toNat = cur.radius.toNat + 10 := h.radius
  have hr : (if aoi.radius ≠ 0 then aoi.radius else r.aoi.radius).toNat = aoi.radius.toNat + 10 ↔
      aoi.radius = cur.radius ∧ aoi.radius = 0 := by
    by_cases hz : aoi.radius = 0
    · rw [if_neg (not_not.mpr hz), hradius, hz, ← UInt16.toNat_inj]
      simp [eq_comm]
    · rw [if_pos hz]
      simp [hz]
  have hh : (if aoi.height ≠ 0 then aoi.height else r.aoi.height) = aoi.height ↔
      aoi.height ≠ 0 ∨ cur.height = 0 := by
    rw [h.height]
    by_cases hz : aoi.height = 0
    · simp [hz]
    · simp [hz]
  rw [shows_moved, planar_iff, hr, hh]
  tauto

end Subscription

namespace AreaClient

variable {cur aoi : Area}

theorem same_iff : ({ cur with center := aoi.center } : Area).differs aoi = false ↔
    aoi.center.equals aoi.center = true ∧ aoi.radius = cur.radius ∧ aoi.height = cur.height := by
  rw [Area.differs, Bool.not_eq_false', Area.equals, Bool.and_eq_true, Bool.and_eq_true, beq_iff_eq,
    beq_iff_eq, and_assoc, eq_comm (a := cur.radius), eq_comm (a := cur.height)]

def moveMessage (c : AreaClient) (aoi : Area) (clock : UInt64) : AreaMessage :=
  if ({ c.sub.aoi with center := aoi.center } : Area).differs aoi then
    .moveF c.sub.id (c.getTimestamp clock) aoi.center.x aoi.center.y aoi.radius aoi.height
  else .move c.sub.id (c.getTimestamp clock) aoi.center.x aoi.center.y

theorem move_eq {c : AreaClient} (ha : c.active = true) (aoi : Area) (updateOnly : Bool) (clock : UInt64) :
    c.move c.sub.id aoi updateOnly clock = ({ c with sub := { c.sub with aoi } },
      if updateOnly then [] else [c.moveMessage aoi clock]) := by
  have hactive : ¬ c.active = false := by simp [ha]
  rw [move, if_neg hactive, if_neg (not_not.mpr rfl), moveMessage]
  by_cases hd : ({ c.sub.aoi with center := aoi.center } : Area).differs aoi = true
  · simp [hd]
  · obtain ⟨-, hr, hh⟩ := same_iff.mp (Bool.not_eq_true _ ▸ hd)
    simp [← hr, ← hh]

end AreaClient

namespace AreaSystem

variable {s : AreaSystem}

theorem quiesce_eq (s : AreaSystem) : s.quiesce = { s with channel := [], matcher := s.settled } := by
  obtain ⟨client, channel, matcher⟩ := s
  induction channel generalizing matcher with
  | nil => rfl
  | cons m ms ih => exact ih (matcher.handleArea m)

theorem agree_quiesce : s.quiesce.Agree ↔
    ∃ r, s.settled.find s.client.sub.id = some r ∧ r.Shows s.client.sub.aoi := by
  rw [quiesce_eq]
  exact Iff.rfl

theorem settled_sends (s : AreaSystem) (r : AreaClient × List AreaMessage) :
    (s.sends r).settled = r.2.foldl Subscriptions.handleArea s.settled := by
  rw [settled, settled, sends, List.foldl_append]

theorem agree_sends {c : AreaClient × List AreaMessage} {t : Subscription}
    (hid : c.1.sub.id = s.client.sub.id)
    (ht : (c.2.foldl Subscriptions.handleArea s.settled).find s.client.sub.id = some t) :
    (s.sends c).quiesce.Agree ↔ t.Shows c.1.sub.aoi := by
  rw [agree_quiesce, settled_sends]
  change (∃ r, (c.2.foldl Subscriptions.handleArea s.settled).find c.1.sub.id = some r ∧
    r.Shows c.1.sub.aoi) ↔ _
  rw [hid, ht]
  simp

section Keeps

variable {r : Subscription} (hf : s.settled.find s.client.sub.id = some r)
  (hr : r.Shows s.client.sub.aoi)

include hf

theorem find_moveMessage (aoi : Area) (clock : UInt64) :
    (s.settled.handleArea (s.client.moveMessage aoi clock)).find s.client.sub.id =
      some (if r.accepts (s.client.getTimestamp clock) then
        if ({ s.client.sub.aoi with center := aoi.center } : Area).differs aoi then
          (r.moved { center := { x := aoi.center.x, y := aoi.center.y }
                     radius := aoi.radius, height := aoi.height }
            (s.client.getTimestamp clock)).rerouted none
        else (r.moved { center := { x := aoi.center.x, y := aoi.center.y } }
          (s.client.getTimestamp clock)).rerouted none
      else r) := by
  rw [AreaClient.moveMessage]
  by_cases hd : ({ s.client.sub.aoi with center := aoi.center } : Area).differs aoi = true
  · rw [if_pos hd, Subscriptions.handleArea, Subscriptions.find_updateSubscription hf]
    simp only [hd, if_true]
  · rw [if_neg hd, Subscriptions.handleArea, Subscriptions.find_updateSubscription hf]
    simp only [hd, Bool.false_eq_true, if_false]

theorem accepts_eq (clock : UInt64) : s.accepts clock = r.accepts (s.client.getTimestamp clock) := by
  rw [accepts, hf, Option.any_some]

include hr

theorem keeps_subscribe (area : Area) (layer : UInt16) (relay : Addr) :
    (s.step (.subscribe area layer relay)).quiesce.Agree ↔ s.Keeps (.subscribe area layer relay) := by
  have ht : ((s.client.subscribe area layer relay).2.foldl Subscriptions.handleArea s.settled).find
      s.client.sub.id = some ((r.moved { area with radius := area.radius + subscriptionAoiBuffer } 0).rerouted
        (some relay)) := by
    rw [AreaClient.subscribe, List.foldl_cons, List.foldl_nil, Subscriptions.handleArea]
    simp only [hf]
    rw [Subscriptions.find_updateSubscription hf]
    rfl
  rw [step, agree_sends rfl ht]
  exact hr.resubscribe

theorem keeps_sent {aoi : Area} {clock : UInt64} (hactive : s.client.active = true)
    (ha : s.accepts clock = true) :
    (s.step (.move s.client.sub.id aoi false clock)).quiesce.Agree ↔ aoi.center.z = 0 ∧
      aoi.radius = s.client.sub.aoi.radius ∧
        (aoi.height = s.client.sub.aoi.height ∧ aoi.center.equals aoi.center = true ∨
          aoi.radius = 0 ∧ (aoi.height ≠ 0 ∨ s.client.sub.aoi.height = 0)) := by
  have ht := find_moveMessage hf aoi clock
  rw [← accepts_eq hf, if_pos ha] at ht
  have hstep : s.step (.move s.client.sub.id aoi false clock) =
      s.sends ({ s.client with sub := { s.client.sub with aoi } }, [s.client.moveMessage aoi clock]) := by
    rw [step, AreaClient.move_eq hactive, if_neg Bool.false_ne_true]
  rw [hstep, agree_sends (c := ({ s.client with sub := { s.client.sub with aoi } },
    [s.client.moveMessage aoi clock])) rfl ht]
  by_cases hd : ({ s.client.sub.aoi with center := aoi.center } : Area).differs aoi = true
  · have hsame := AreaClient.same_iff.not.mp (by simpa using hd)
    rw [if_pos hd]
    refine hr.moveF.trans ?_
    tauto
  · obtain ⟨hs, hrad, hh⟩ := AreaClient.same_iff.mp (Bool.not_eq_true _ ▸ hd)
    rw [if_neg hd]
    refine (hr.move hrad hh).trans ?_
    tauto

theorem keeps_unseen {aoi : Area} {updateOnly : Bool} {clock : UInt64} (hactive : s.client.active = true)
    (h : updateOnly = true ∨ s.accepts clock = false) :
    (s.step (.move s.client.sub.id aoi updateOnly clock)).quiesce.Agree ↔ aoi = s.client.sub.aoi := by
  have ht : ((s.client.move s.client.sub.id aoi updateOnly clock).2.foldl Subscriptions.handleArea
      s.settled).find s.client.sub.id = some r := by
    rw [AreaClient.move_eq hactive]
    cases updateOnly with
    | true => exact hf
    | false =>
      have ha := h.resolve_left Bool.false_ne_true
      rw [accepts_eq hf] at ha
      have hm := find_moveMessage hf aoi clock
      rw [ha, if_neg Bool.false_ne_true] at hm
      exact hm
  rw [step, agree_sends (by rw [AreaClient.move_eq hactive]) ht, AreaClient.move_eq hactive]
  exact hr.iff_eq

theorem keeps_move (id : UInt64) (aoi : Area) (updateOnly : Bool) (clock : UInt64) :
    (s.step (.move id aoi updateOnly clock)).quiesce.Agree ↔ s.Keeps (.move id aoi updateOnly clock) := by
  have hagree : s.quiesce.Agree := agree_quiesce.mpr ⟨r, hf, hr⟩
  cases hactive : s.client.active with
  | false =>
    have hm : s.client.move id aoi updateOnly clock = (s.client, []) := by
      rw [AreaClient.move, if_pos hactive]
    rw [step, hm, agree_sends (c := (s.client, [])) rfl hf]
    simp [Keeps, hactive, hr]
  | true =>
    by_cases hid : id = s.client.sub.id
    · subst hid
      by_cases h : updateOnly = true ∨ s.accepts clock = false
      · rw [keeps_unseen hf hr hactive h]
        simp [Keeps, hactive, h]
      · obtain ⟨hu, ha⟩ := not_or.mp h
        rw [Bool.not_eq_true] at hu
        rw [Bool.not_eq_false] at ha
        subst hu
        rw [keeps_sent hf hr hactive ha]
        simp [Keeps, hactive, ha]
    · have hm : s.client.move id aoi updateOnly clock = ({ s.client with active := false }, []) := by
        rw [AreaClient.move, if_neg (by simp [hactive]), if_pos hid]
      rw [step, hm, agree_sends (c := ({ s.client with active := false }, [])) rfl hf]
      simp [Keeps, hid, hr]

omit hf hr in
theorem keeps_iff (h : s.quiesce.Agree) (e : AreaEvent) : (s.step e).quiesce.Agree ↔ s.Keeps e := by
  obtain ⟨r, hf, hr⟩ := agree_quiesce.mp h
  cases e with
  | subscribe area layer relay => exact keeps_subscribe hf hr area layer relay
  | move id aoi updateOnly clock => exact keeps_move hf hr id aoi updateOnly clock
  | subscribed => exact iff_of_true (agree_quiesce.mpr ⟨r, hf, hr⟩) trivial
  | syncClock clock sent gateway => exact iff_of_true (agree_quiesce.mpr ⟨r, hf, hr⟩) trivial
  | deliver =>
    have hq : (s.step .deliver).quiesce = s.quiesce := by
      obtain ⟨client, channel, matcher⟩ := s
      cases channel <;> rfl
    rw [hq]
    exact iff_of_true h trivial

end Keeps

/-- After a first `subscribe`, the areas agree in every state, once what is on its way has
arrived, exactly when every step keeps them in agreement. -/
theorem areas_agree_iff {m : Subscriptions} {c : AreaClient} (h : m.find c.sub.id = none) (area : Area)
    (layer : UInt16) (relay : Addr) (es : List AreaEvent) :
    StepRun.Always step (fun s => s.quiesce.Agree) (step ⟨c, [], m⟩ (.subscribe area layer relay)) es ↔
      area.radius.toNat + 10 < 2 ^ 16 ∧
        StepRun.Along step Keeps (step ⟨c, [], m⟩ (.subscribe area layer relay)) es := by
  have hfirst : (step ⟨c, [], m⟩ (.subscribe area layer relay)).quiesce.Agree ↔
      area.radius.toNat + 10 < 2 ^ 16 := by
    have ht : ((c.subscribe area layer relay).2.foldl Subscriptions.handleArea m).find c.sub.id =
        some { hostId := c.sub.hostId, id := c.sub.id, layer, relay, dirty := true
               aoi := { area with radius := area.radius + subscriptionAoiBuffer } } := by
      rw [AreaClient.subscribe, List.foldl_cons, List.foldl_nil, Subscriptions.handleArea]
      simp only [h, Subscriptions.addSubscription, Option.getD_some, Subscriptions.find_insert, if_true]
    rw [step, agree_sends (s := ⟨c, [], m⟩) (c := c.subscribe area layer relay) rfl ht,
      ← Subscription.subscribe_fits]
    exact ⟨fun hs => hs.radius, fun hs => ⟨rfl, rfl, hs⟩⟩
  rw [StepRun.always_iff_along (fun s e hs => keeps_iff hs e), hfirst]

/-- The first steps of a client at the origin with radius 100: it has subscribed. -/
def joining : AreaSystem :=
  step ⟨{ sub := { id := 5, hostId := 7 } }, [], .empty⟩ (.subscribe { radius := 100 } 0 { hostId := 2 })

theorem joining_move_agrees : StepRun.Always step (fun s => s.quiesce.Agree) joining
    [.deliver, .subscribed, .move 5 { center := { x := ⟨0x40400000⟩ }, radius := 100 } false 50, .deliver] := by
  refine (areas_agree_iff (m := .empty) (c := { sub := { id := 5, hostId := 7 } }) rfl { radius := 100 } 0
    { hostId := 2 } _).mpr ⟨by decide, trivial, trivial, Or.inr (Or.inr ?_), trivial, trivial⟩
  rw [if_neg (by decide)]
  exact ⟨rfl, rfl, .inl ⟨rfl, by decide⟩⟩

def enlarging : List AreaEvent := [.deliver, .subscribed, .move 5 { radius := 200 } false 50]

/-- A new radius is stored without the buffer. -/
theorem enlarging_disagrees : ¬ StepRun.Always step (fun s => s.quiesce.Agree) joining enlarging := by
  have hstored : ((enlarging.foldl step joining).quiesce.matcher.find 5).map (fun r => r.aoi.radius) =
      some 200 := by decide
  intro h
  obtain ⟨r, hf, hs⟩ := h enlarging (List.prefix_refl _)
  have hfind : (enlarging.foldl step joining).quiesce.matcher.find 5 = some r := hf
  rw [hfind, Option.map_some, Option.some.injEq] at hstored
  have hradius := hs.radius
  rw [hstored] at hradius
  exact absurd hradius (by decide)

end AreaSystem

end VastNC
