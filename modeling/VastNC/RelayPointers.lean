import VastNC.RelayQueries
import VastNC.RelayRouting

/-! The pointers that `closestRelay` and `nextRelay` return, and the places where they are
dereferenced: after a send the entry may be gone. -/

namespace VastNC

variable {K : Type}

/-- A pointer that is dereferenced, and the relay at that moment. -/
structure PointerUse (K : Type) where
  pointer : RelayPointer
  relay : VASTRelay K

namespace PointerUse

def Live (u : PointerUse K) : Prop :=
  match u.pointer with
  | .self => True
  | .entry id => id ∈ u.relay.relays

end PointerUse

namespace VASTRelay

def deref (p : VASTRelay K) : RelayPointer → Node
  | .self => p.self
  | .entry id => p.nodeOf id

/-- `closestRelay` as it is written: with pointers. -/
def closestPointer (p : VASTRelay K) (pos : Position) : RelayPointer :=
  p.dist2relay.foldl (fun closest e =>
    let minDist := p.metric.distance (p.deref closest).aoi.center pos
    let dist := p.metric.distance (p.nodeOf e.2).aoi.center pos
    if p.metric.lt dist minDist || p.metric.close dist minDist && (p.nodeOf e.2).id < (p.deref closest).id
      then .entry e.2 else closest) .self

/-- In `nextRelay`: a new contact is logged, an old one compared with the entries. -/
def nextUses (p : VASTRelay K) : List (PointerUse K) :=
  match p.contactRelay with
  | none => p.nextRelay.2.toList.map fun id => ⟨.entry id, p⟩
  | some id => [⟨.entry id, p⟩]

/-- `RELAY_QUERY`: the test and, for the reply, `store` and the log, all in front of the send; or
the target, and the log behind the send. -/
def queryUses (joiner : Node) (forwarder : Addr) : Nat → VASTRelay K → List (PointerUse K)
  | 0, _ => []
  | fuel + 1, p =>
    let closest := p.closestPointer joiner.aoi.center
    if (p.deref closest).id = p.self.id then [⟨closest, p⟩, ⟨closest, p⟩, ⟨closest, p⟩]
    else
      let r := p.sendRelay [(p.deref closest).id] (.query (p.deref closest).id joiner forwarder)
      [⟨closest, p⟩, ⟨closest, p⟩, ⟨closest, r.1⟩] ++
        if r.2 > 0 then [] else queryUses joiner forwarder fuel r.1

/-- `joinRelay`: two logs and the target. -/
def joinUses (p : VASTRelay K) : List (PointerUse K) :=
  if p.relays.isEmpty then []
  else
    p.nextUses ++ p.nextRelay.2.toList.flatMap fun id =>
      [⟨.entry id, p.nextRelay.1⟩, ⟨.entry id, p.nextRelay.1⟩, ⟨.entry id, p.nextRelay.1⟩]

/-- The query of `postHandling`: address and target, and the log behind the send. -/
def queryRelayUses (now : UInt64) (p : VASTRelay K) : List (PointerUse K) :=
  if now ≥ p.timeoutQuery then
    let p := { p with timeoutQuery := now + p.timing.query }
    let r := p.nextRelay
    p.nextUses ++ r.2.toList.flatMap fun id =>
      [⟨.entry id, r.1⟩, ⟨.entry id, r.1⟩,
        ⟨.entry id, (r.1.sendRelay [id] (.query id r.1.self (r.1.nodeOf id).addr)).1⟩]
  else []

def advanceUses (now : UInt64) (p : VASTRelay K) : List (PointerUse K) :=
  match p.state with
  | .querying => if p.currRelay.isSome then [] else p.queryRelayUses now
  | .joining => if now ≥ p.timeoutJoin then p.joinUses else []
  | _ => []

def uses (p : VASTRelay K) : Event → List (PointerUse K)
  | .message _ _ (.query joiner forwarder) => queryUses joiner forwarder (p.dist2relay.length + 1) p
  | .message now _ (.queryR requester relay) =>
    if requester.id = p.self.id then
      let p := p.addRelay now relay
      (if p.isRelay then p.addRelay now p.self else p).joinUses
    else []
  | .message _ _ (.joinR success) =>
    if p.state = .joined then [] else if p.isRelay = false ∧ success = false then p.joinUses else []
  | .message _ _ _ => []
  | .postHandling now => (p.maintain now).advanceUses now

/-- The network reaches the relay that a query is sent to. -/
def Reaches (p : VASTRelay K) : Event → Prop
  | .message _ _ (.query joiner _) =>
    (p.chosen joiner.aoi.center).id ≠ p.self.id →
      p.fails p.net.length (p.chosen joiner.aoi.center).id = false
  | .postHandling now =>
    let q := p.maintain now
    q.state = .querying → q.currRelay = none → q.timeoutQuery ≤ now →
      ∀ id, q.nextRelay.2 = some id → q.fails q.net.length id = false
  | _ => True

variable {p q : VASTRelay K} {L : Nat} {id : UInt64}

theorem deref_closestPointer (p : VASTRelay K) (pos : Position) :
    p.deref (p.closestPointer pos) = p.chosen pos := by
  have hfold : ∀ (l : List (K × UInt64)) (c : RelayPointer),
      p.deref (l.foldl (fun closest e =>
        if p.metric.lt (p.metric.distance (p.nodeOf e.2).aoi.center pos)
              (p.metric.distance (p.deref closest).aoi.center pos) ||
            p.metric.close (p.metric.distance (p.nodeOf e.2).aoi.center pos)
              (p.metric.distance (p.deref closest).aoi.center pos) &&
              (p.nodeOf e.2).id < (p.deref closest).id
          then .entry e.2 else closest) c) =
        closestRelay p.metric (p.deref c) (l.map fun e => p.nodeOf e.2) pos := by
    intro l
    induction l with
    | nil => intro c; rfl
    | cons e l ih =>
      intro c
      rw [List.foldl_cons, ih, List.map_cons, closestRelay, closestRelay, List.foldl_cons]
      dsimp only
      split
      · rfl
      · rfl
  exact hfold p.dist2relay .self

/-- The pointer returned is to the node itself or to an entry that is there. -/
theorem Directory.closestPointer (h : Directory L p) (pos : Position) :
    p.closestPointer pos = .self ∨ ∃ id, p.closestPointer pos = .entry id ∧ id ∈ p.relays := by
  refine List.foldlRecOn (motive := fun c => c = RelayPointer.self ∨ ∃ id, c = .entry id ∧ id ∈ p.relays)
    p.dist2relay _ (.inl rfl) fun c hc e he => ?_
  dsimp only
  split
  · exact .inr ⟨e.2, rfl, (h.keys e.2).mpr (List.mem_map_of_mem he)⟩
  · exact hc

theorem Directory.closestPointer_live (h : Directory L p) (pos : Position) :
    PointerUse.Live ⟨p.closestPointer pos, p⟩ := by
  rcases h.closestPointer pos with he | ⟨id, he, hid⟩
  · rw [he]
    trivial
  · rw [he]
    exact hid

/-- Behind a send to one relay its entry is there exactly if the send has reached it. -/
theorem Directory.sent_live (h : Directory L p) (hid : id ∈ p.relays) (call : RelayCall) :
    PointerUse.Live ⟨.entry id, (p.sendRelay [id] call).1⟩ ↔ p.fails p.net.length id = false := by
  rcases p.sendRelay_single id call with ⟨hacc, hsend⟩ | ⟨hrej, hsend⟩
  · rw [hsend]
    exact iff_of_true hid hacc
  · rw [hsend, hrej]
    exact iff_of_false ((h.send call).removeRelay_gone id) Bool.noConfusion

theorem Directory.queryUses_live (h : Directory L p) (joiner : Node) (forwarder : Addr) (fuel : Nat) :
    (∀ u ∈ queryUses joiner forwarder (fuel + 1) p, u.Live) ↔
      ((p.chosen joiner.aoi.center).id ≠ p.self.id →
        p.fails p.net.length (p.chosen joiner.aoi.center).id = false) := by
  have hlive := h.closestPointer_live joiner.aoi.center
  have hderef := p.deref_closestPointer joiner.aoi.center
  rw [queryUses]
  dsimp only
  rw [hderef]
  by_cases hself : (p.chosen joiner.aoi.center).id = p.self.id
  · rw [if_pos hself]
    refine iff_of_true (fun u hu => ?_) (absurd hself)
    simp only [List.mem_cons, List.not_mem_nil, or_false, or_self] at hu
    rw [hu]
    exact hlive
  · obtain ⟨id, hptr, hid⟩ := (h.closestPointer joiner.aoi.center).resolve_left fun he => by
      rw [he] at hderef
      exact hself (congrArg Node.id hderef.symm)
    have hchosen : (p.chosen joiner.aoi.center).id = id := by
      rw [← hderef, hptr]
      exact h.nodeOf_id hid
    have hsent := h.sent_live hid (.query id joiner forwarder)
    rw [if_neg hself, hptr, hchosen]
    rw [hptr] at hlive
    constructor
    · intro hall _
      exact hsent.mp (hall _ (by simp))
    · intro hreach u hu
      have hacc := hreach (hchosen ▸ hself)
      have hok : (p.sendRelay [id] (.query id joiner forwarder)).2 > 0 := by
        rcases p.sendRelay_single id (.query id joiner forwarder) with ⟨-, hs⟩ | ⟨hrej, -⟩
        · rw [hs]
          exact Nat.one_pos
        · rw [hrej] at hacc
          cases hacc
      rw [if_pos hok, List.append_nil] at hu
      simp only [List.mem_cons, List.not_mem_nil, or_false] at hu
      rcases hu with rfl | rfl | rfl
      · exact hlive
      · exact hlive
      · exact hsent.mpr hacc

/-- What `nextRelay` returns is the new contact; it changes nothing else but `wild`. -/
structure NextRelay (p : VASTRelay K) (r : VASTRelay K × Option UInt64) : Prop where
  contact : ∀ id, r.2 = some id → r.1.contactRelay = some id
  relays : r.1.relays = p.relays
  net : r.1.net = p.net
  fails : r.1.fails = p.fails

theorem nextRelay_spec (p : VASTRelay K) : NextRelay p p.nextRelay := by
  rw [nextRelay]
  split
  · split
    · exact ⟨fun _ he => absurd he (by simp), rfl, rfl, rfl⟩
    · exact ⟨fun _ he => he, rfl, rfl, rfl⟩
  · exact ⟨fun _ he => he, rfl, rfl, rfl⟩

theorem nextRelay_later (p : VASTRelay K) (timeoutQuery : UInt64) :
    ({ p with timeoutQuery } : VASTRelay K).nextRelay.2 = p.nextRelay.2 := by
  rw [nextRelay, nextRelay]
  dsimp only
  split
  · split
    · rfl
    · rfl
  · rfl

theorem Directory.nextRelay_mem (h : Directory L p) (hid : p.nextRelay.2 = some id) : id ∈ p.relays := by
  have hn := p.nextRelay_spec
  rw [← hn.relays]
  exact h.nextRelay.contact id (hn.contact id hid)

theorem Directory.nextUses_live (h : Directory L p) : ∀ u ∈ p.nextUses, u.Live := by
  rw [nextUses]
  split
  · intro u hu
    obtain ⟨id, hid, rfl⟩ := List.mem_map.mp hu
    exact h.nextRelay_mem (Option.mem_toList.mp hid)
  · rename_i id hc
    intro u hu
    rw [List.mem_singleton.mp hu]
    exact h.contact id hc

theorem Directory.joinUses_live (h : Directory L p) : ∀ u ∈ p.joinUses, u.Live := by
  rw [joinUses]
  split
  · exact fun u hu => absurd hu List.not_mem_nil
  · intro u hu
    rcases List.mem_append.mp hu with hu | hu
    · exact h.nextUses_live u hu
    · obtain ⟨id, hid, hu⟩ := List.mem_flatMap.mp hu
      have hin : id ∈ p.nextRelay.1.relays := by
        rw [p.nextRelay_spec.relays]
        exact h.nextRelay_mem (Option.mem_toList.mp hid)
      simp only [List.mem_cons, List.not_mem_nil, or_false, or_self] at hu
      rw [hu]
      exact hin

theorem Directory.queryRelayUses_live (h : Directory L p) (now : UInt64) :
    (∀ u ∈ p.queryRelayUses now, u.Live) ↔ (p.timeoutQuery ≤ now →
      ∀ id, p.nextRelay.2 = some id → p.fails p.net.length id = false) := by
  rw [queryRelayUses]
  by_cases hdue : p.timeoutQuery ≤ now
  · rw [if_pos hdue]
    have hq : Directory L { p with timeoutQuery := now + p.timing.query } := h.frame rfl rfl rfl rfl rfl rfl rfl
    have hn := nextRelay_spec { p with timeoutQuery := now + p.timing.query }
    have hnext := p.nextRelay_later (now + p.timing.query)
    dsimp only
    generalize hr : ({ p with timeoutQuery := now + p.timing.query } : VASTRelay K).nextRelay = r at hn hnext ⊢
    have hrd : Directory L r.1 := hr ▸ hq.nextRelay
    have hfails : ∀ id, r.1.fails r.1.net.length id = p.fails p.net.length id := fun id => by
      rw [hn.fails, hn.net]
    have hmem : ∀ id, r.2 = some id → id ∈ r.1.relays := fun id hid => hrd.contact id (hn.contact id hid)
    constructor
    · intro hall _ id hid
      rw [← hfails, ← hrd.sent_live (hmem id (hnext.trans hid)) (.query id r.1.self (r.1.nodeOf id).addr)]
      refine hall _ (List.mem_append_right _ (List.mem_flatMap.mpr ⟨id, ?_, ?_⟩))
      · exact Option.mem_toList.mpr (hnext.trans hid)
      · simp
    · intro hreach u hu
      rcases List.mem_append.mp hu with hu | hu
      · exact hq.nextUses_live u hu
      · obtain ⟨id, hid, hu⟩ := List.mem_flatMap.mp hu
        have hin := hmem id (Option.mem_toList.mp hid)
        have hacc := hreach hdue id (hnext.symm.trans (Option.mem_toList.mp hid))
        simp only [List.mem_cons, List.not_mem_nil, or_false] at hu
        rcases hu with rfl | rfl | rfl
        · exact hin
        · exact hin
        · exact (hrd.sent_live hin _).mpr ((hfails id).trans hacc)
  · rw [if_neg hdue]
    exact iff_of_true (fun u hu => absurd hu List.not_mem_nil) fun hd => absurd hd hdue

theorem Directory.uses_live (h : Directory L p) (e : Event) : (∀ u ∈ p.uses e, u.Live) ↔ p.Reaches e := by
  have hnone : ∀ u ∈ ([] : List (PointerUse K)), u.Live := fun u hu => absurd hu List.not_mem_nil
  cases e with
  | message now sender msg =>
    cases msg with
    | query joiner forwarder => exact h.queryUses_live joiner forwarder _
    | queryR requester relay =>
      refine iff_of_true ?_ trivial
      rw [uses]
      split
      · dsimp only
        split
        · exact ((h.addRelay now relay).addRelay now _).joinUses_live
        · exact (h.addRelay now relay).joinUses_live
      · exact hnone
    | joinR success =>
      refine iff_of_true ?_ trivial
      rw [uses]
      split
      · exact hnone
      · split
        · exact h.joinUses_live
        · exact hnone
    | ping => exact iff_of_true hnone trivial
    | pong initial querytime coord => exact iff_of_true hnone trivial
    | relay relays => exact iff_of_true hnone trivial
    | join joiner isRelay => exact iff_of_true hnone trivial
    | subscribeNotify subId clientHostId => exact iff_of_true hnone trivial
    | disconnect => exact iff_of_true hnone trivial
    | other msg => exact iff_of_true hnone trivial
  | postHandling now =>
    have hm := h.maintain now
    rw [uses, Reaches]
    generalize p.maintain now = q at hm
    rw [advanceUses]
    cases hs : q.state with
    | querying =>
      cases hc : q.currRelay with
      | some r => exact iff_of_true hnone fun _ hn => absurd hn (Option.some_ne_none r)
      | none =>
        have hquery := hm.queryRelayUses_live now
        exact hquery.trans ⟨fun hr _ _ => hr, fun hr => hr rfl rfl⟩
    | joining =>
      refine iff_of_true ?_ nofun
      dsimp only
      split
      · exact hm.joinUses_live
      · exact hnone
    | absent => exact iff_of_true hnone nofun
    | joining2 => exact iff_of_true hnone nofun
    | joined => exact iff_of_true hnone nofun

/-- No dangling pointer is dereferenced in a run exactly when the network reaches every relay
that a query is sent to. -/
theorem dangling_relay_iff (c : VASTRelay K) (es : List Event) :
    StepRun.Along step (fun p e => ∀ u ∈ p.uses e, u.Live) c.constructed es ↔
      StepRun.Along step Reaches c.constructed es :=
  StepRun.along_iff_along (fun _ e hd _ => Directory.step hd e) (fun _ e hd => hd.uses_live e)
    (Directory.constructed c)

def unreachable : VASTRelay ℚ where
  metric := exactMetric axisDistance
  self := { id := 1 }
  asRelay := true
  isPublic := true
  clientLimit := 0
  relayLimit := 0
  timing := ⟨10, 10, 10, 10⟩
  entries := []
  fails _ _ := true
  selected _ _ := true
  tempCoord := {}

/-- Relay 2 at the place that the query is for; the send to it fails, and the log names it. -/
theorem dangling_relay_logged :
    ∃ u ∈ (unreachable.constructed.step (.message 5 2 (.relay
          [{ id := 2, aoi := { center := { x := ⟨0x3F800000⟩ } } }]))).uses
        (.message 6 3 (.query { id := 3, aoi := { center := { x := ⟨0x3F800000⟩ } } } {})),
      ¬ u.Live := by
  by_contra hlive
  push Not at hlive
  have hd := Directory.step (Directory.constructed unreachable) (.message 5 2 (.relay
    [{ id := 2, aoi := { center := { x := ⟨0x3F800000⟩ } } }]))
  have hreach := (hd.uses_live _).mp hlive (by decide +kernel)
  cases hreach

end VASTRelay

end VastNC
