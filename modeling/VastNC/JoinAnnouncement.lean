import VastNC.NeighborTables

/-! The announcement of a join: `VONPeer` and `VSOPeer` each keep a state of their own, and the
second is set once. Which runs announce every join. -/

namespace VastNC

namespace VONPeer

/-- What a peer does without joining: its state stands and no neighbour is added. -/
def Shrinks (p q : VONPeer) : Prop := q.state = p.state ∧ q.neighbors.length ≤ p.neighbors.length

namespace Shrinks

variable {p q r : VONPeer}

theorem refl (p : VONPeer) : Shrinks p p := ⟨rfl, le_refl _⟩

theorem trans (h : Shrinks p q) (h' : Shrinks q r) : Shrinks p r := ⟨h'.1.trans h.1, h'.2.trans h.2⟩

theorem of_eq (hs : q.state = p.state) (hn : q.neighbors = p.neighbors) : Shrinks p q := ⟨hs, by rw [hn]⟩

theorem foldl {α : Type} {f : VONPeer → α → VONPeer} (hf : ∀ q x, Shrinks q (f q x)) (l : List α) (p : VONPeer) :
    Shrinks p (l.foldl f p) :=
  List.foldlRecOn l f (refl p) fun q hq x _ => hq.trans (hf q x)

theorem foldl_fst {α β : Type} {f : VONPeer × β → α → VONPeer × β} (hf : ∀ r x, Shrinks r.1 (f r x).1)
    (l : List α) (r : VONPeer × β) : Shrinks r.1 (l.foldl f r).1 :=
  List.foldlRecOn (motive := fun q => Shrinks r.1 q.1) l f (refl r.1) fun q hq x _ => hq.trans (hf q x)

theorem send (p : VONPeer) (call : VONCall) : Shrinks p (p.send call) := of_eq rfl rfl

theorem touch (p : VONPeer) (id : UInt64) : Shrinks p (p.touch id) := by
  rw [VONPeer.touch]
  split
  · exact refl p
  · exact of_eq rfl rfl

theorem sendNodes (p : VONPeer) (target : UInt64) (list : List UInt64) (reliable : Bool) :
    Shrinks p (p.sendNodes target list reliable) := by
  rw [VONPeer.sendNodes]
  dsimp only
  split
  · exact refl p
  · exact (foldl touch _ p).trans (send _ _)

theorem sendHello (p : VONPeer) (target : UInt64) (idList : List UInt64) : Shrinks p (p.sendHello target idList) := by
  rw [VONPeer.sendHello]
  split
  · exact refl p
  · exact send p _

theorem updateNode (p : VONPeer) (node : Node) : Shrinks p (p.updateNode node).1 := by
  rw [VONPeer.updateNode]
  split
  · exact refl p
  · exact of_eq rfl rfl

theorem deleteNode (p : VONPeer) (id : UInt64) : Shrinks p (p.deleteNode id) := by
  rw [VONPeer.deleteNode]
  split
  · exact ⟨rfl, List.length_eraseP_le⟩
  · exact refl p

theorem tryNewNeighbor (r : VONPeer × List Node) (node : Node) : Shrinks r.1 (tryNewNeighbor r node).1 := by
  rw [VONPeer.tryNewNeighbor]
  split
  · exact updateNode r.1 node
  · exact of_eq rfl rfl

theorem greetNewNeighbor (p : VONPeer) (node : Node) : Shrinks p (p.greetNewNeighbor node) := by
  rw [VONPeer.greetNewNeighbor]
  split
  · exact Shrinks.trans (of_eq rfl rfl) (sendHello _ _ _)
  · exact refl p

theorem contactNewNeighbors (p : VONPeer) : Shrinks p p.contactNewNeighbors := by
  rw [VONPeer.contactNewNeighbors]
  have htry := foldl_fst tryNewNeighbor (p.newNeighbors.toList.map Prod.snd) (p, [])
  generalize (p.newNeighbors.toList.map Prod.snd).foldl VONPeer.tryNewNeighbor (p, []) = r at *
  have hgreet := htry.trans (foldl greetNewNeighbor r.2 r.1)
  exact ⟨hgreet.1, hgreet.2⟩

theorem discover (p : VONPeer) (fromId : UInt64) : Shrinks p (p.discover fromId) := by
  rw [VONPeer.discover]
  generalize hq : (if p.neighborIds.filter (fun id => id != p.self.id && id != fromId) = [] then p
    else p.touch fromId) = q
  have htouch : Shrinks p q := by
    rw [← hq]
    split
    · exact refl p
    · exact touch p fromId
  refine htouch.trans ?_
  split
  · exact Shrinks.trans (of_eq rfl rfl) (sendNodes _ _ _ _)
  · exact of_eq rfl rfl

theorem checkNeighborDiscovery (p : VONPeer) : Shrinks p p.checkNeighborDiscovery := by
  have h := foldl discover (p.neighborIds.filter (fun id => id != p.self.id)) p
  exact ⟨h.1, h.2⟩

theorem checkOverlap (now gracePeriod : UInt64) (r : VONPeer × List UInt64) (id : UInt64) :
    Shrinks r.1 (checkOverlap now gracePeriod r id).1 := by
  rw [VONPeer.checkOverlap]
  split
  · exact of_eq rfl rfl
  · split
    · exact of_eq rfl rfl
    · exact refl r.1

theorem removeNonOverlapped (now gracePeriod : UInt64) (p : VONPeer) :
    Shrinks p (p.removeNonOverlapped now gracePeriod) := by
  have h := foldl_fst (checkOverlap now gracePeriod) p.id2node.keys (p, [])
  rw [VONPeer.removeNonOverlapped]
  split
  · exact h
  · exact (h.trans (send _ _)).trans (foldl deleteNode _ _)

theorem tick (now gracePeriod : UInt64) (p : VONPeer) : Shrinks p.isJoined.1 (p.tick now gracePeriod) :=
  ((contactNewNeighbors _).trans (checkNeighborDiscovery _)).trans (removeNonOverlapped now gracePeriod _)

theorem sendMove (fails : UInt64 → Bool) (p : VONPeer) (targets : List UInt64) (call : VONCall) :
    Shrinks p (p.sendMove fails targets call) := by
  rw [VONPeer.sendMove]
  split
  · exact refl p
  · exact (send p call).trans (foldl deleteNode _ _)

theorem move (now : UInt64) (fails : UInt64 → Bool) (p : VONPeer) (aoi : Area) (sendtime : UInt64) :
    Shrinks p (p.move now fails aoi sendtime) := by
  rw [VONPeer.move]
  dsimp only
  refine Shrinks.trans ?moved ((sendMove fails _ _ _).trans (sendMove fails _ _ _))
  exact ⟨(updateNode _ _).1, (updateNode _ _).2⟩

theorem isJoined_fst (h : Shrinks p.isJoined.1 q) : q.isJoined.1 = q := by
  rw [isJoined] at h ⊢
  refine if_neg fun hq => ?_
  by_cases hp : p.state = .joining ∧ 1 < p.neighbors.length
  · rw [if_pos hp] at h
    exact NodeState.noConfusion (h.1.symm.trans hq.1)
  · rw [if_neg hp] at h
    exact hp ⟨h.1.symm.trans hq.1, hq.2.trans_le h.2⟩

theorem isJoined_snd (h : Shrinks p.isJoined.1 q) : q.isJoined.2 = p.isJoined.2 := by
  change (q.isJoined.1.state == NodeState.joined) = (p.isJoined.1.state == NodeState.joined)
  rw [h.isJoined_fst, h.1]

end Shrinks

theorem isJoined_iff (p : VONPeer) : p.isJoined.2 = true ↔ p.isJoined.1.state = .joined := beq_iff_eq

end VONPeer

inductive VSOCall where
  | peerJoined (originId : UInt64)
  | joined (gateway : UInt64)
  deriving DecidableEq

/-- `notifyLoading` takes a number: it is `0`, below `0`, or neither. -/
inductive Loading where
  | normal
  | underload
  | overload
  deriving DecidableEq

def vsoInsertionTrigger : Int := 5

structure VSOMember where
  von : VONPeer
  gateway : UInt64
  /-- `VSO_TIMEOUT_OVERLOAD_REQUEST`, in the units of the clock. -/
  overloadPeriod : UInt64
  vsoState : NodeState := .joining
  origin : Node := {}
  overloadCount : Int := 0
  overloadTimeout : UInt64 := 0
  underloadTimeout : UInt64 := 0
  calls : List VSOCall := []

/-- The messages of `VSOPeer`. Those for the gateway, for load and for ownership touch nothing here. -/
inductive VSOMessage where
  | promote (joinPos : Position) (origin : Node)
  | disconnect
  | service
  | von (msg : VONMessage)

namespace VSOMember

def constructed (geometry : Geometry) (self : Node) (aoiBuffer : UInt16) (gateway overloadPeriod : UInt64) :
    VSOMember where
  von := { geometry, self, aoiBuffer }
  gateway
  overloadPeriod

def join (now : UInt64) (p : VSOMember) (aoi : Area) (origin : Node) : VSOMember :=
  { p with von := p.von.join now aoi origin, origin }

def leave (p : VSOMember) : VSOMember := { p with von := p.von.leave }

def handleMessage (now : UInt64) (p : VSOMember) (sender : UInt64) : VSOMessage → VSOMember
  | .promote joinPos origin =>
    if p.von.state = .absent then p.join now { center := joinPos, radius := 5 } origin else p
  | .disconnect => { p with von := p.von.handleMessage now sender .disconnect }
  | .service => p
  | .von msg => { p with von := p.von.handleMessage now sender msg }

def recordLoading (now : UInt64) (p : VSOMember) : Loading → VSOMember
  | .normal => { p with overloadTimeout := 0, underloadTimeout := 0 }
  | .underload =>
    { p with
      underloadTimeout := if p.underloadTimeout = 0 then now + p.overloadPeriod else p.underloadTimeout
      overloadTimeout := 0 }
  | .overload =>
    { p with
      underloadTimeout := 0
      overloadTimeout := if p.overloadTimeout = 0 then now + p.overloadPeriod else p.overloadTimeout }

/-- An overload that lasts asks the neighbours to come closer, in the end the gateway for a
matcher; an underload that lasts makes the peer leave. -/
def checkLoading (now : UInt64) (p : VSOMember) : VSOMember :=
  if p.overloadTimeout ≠ 0 ∧ now ≥ p.overloadTimeout then
    let overloadCount := max p.overloadCount 0 + 1
    { p with
      overloadCount := if overloadCount < vsoInsertionTrigger then overloadCount else 0
      overloadTimeout := 0 }
  else if p.underloadTimeout ≠ 0 ∧ now ≥ p.underloadTimeout then
    let p := { p with overloadCount := min p.overloadCount 0 - 1, underloadTimeout := 0 }
    if p.overloadCount > -vsoInsertionTrigger ∨ p.gateway = p.von.self.id then p
    else { p.leave with overloadCount := 0 }
  else if p.overloadTimeout = 0 ∧ p.underloadTimeout = 0 then { p with overloadCount := 0 }
  else p

def notifyLoading (now : UInt64) (p : VSOMember) (level : Loading) : VSOMember :=
  if level = .normal then p.recordLoading now level else (p.recordLoading now level).checkLoading now

def announce (p : VSOMember) : VSOMember :=
  if p.vsoState = .joining then
    let r := p.von.isJoined
    if r.2 then
      { p with
        von := r.1
        vsoState := .joined
        calls := p.calls ++ [.peerJoined p.origin.id, .joined p.gateway] }
    else { p with von := r.1 }
  else p

def movePeerPosition (now : UInt64) (fails : UInt64 → Bool) (p : VSOMember) (newpos : Area) : VSOMember :=
  let von := p.von.move now fails newpos
  { p with von := { von with self := { von.self with aoi := { von.self.aoi with center := newpos.center } } } }

/-- `tick`. `checkOwnershipTransfer` asks once more whether the peer has joined. -/
def tick (now gracePeriod : UInt64) (fails : UInt64 → Bool) (newpos : Option Area) (p : VSOMember) : VSOMember :=
  let p := { p with von := p.von.tick now gracePeriod }.announce
  let p := newpos.elim p (p.movePeerPosition now fails)
  { p with von := p.von.isJoined.1 }

inductive Event where
  | message (now sender : UInt64) (msg : VSOMessage)
  | notifyLoading (now : UInt64) (level : Loading)
  | tick (now gracePeriod : UInt64) (fails : UInt64 → Bool) (newpos : Option Area)
  | join (now : UInt64) (aoi : Area) (origin : Node)
  | leave
  | isJoined

def step (p : VSOMember) : Event → VSOMember
  | .message now sender msg => p.handleMessage now sender msg
  | .notifyLoading now level => p.notifyLoading now level
  | .tick now gracePeriod fails newpos => p.tick now gracePeriod fails newpos
  | .join now aoi origin => p.join now aoi origin
  | .leave => p.leave
  | .isJoined => { p with von := p.von.isJoined.1 }

def Event.isTick : Event → Bool
  | .tick _ _ _ _ => true
  | _ => false

variable {p : VSOMember}

def Announcing (p : VSOMember) : Prop := p.vsoState = .joining ∧ p.von.isJoined.2 = true

instance (p : VSOMember) : Decidable p.Announcing := inferInstanceAs (Decidable (_ ∧ _))

def notices (p : VSOMember) : List VSOCall := [.peerJoined p.origin.id, .joined p.gateway]

theorem announce_eq (h : p.von.isJoined.1 = p.von) :
    p.announce = if p.Announcing then { p with vsoState := .joined, calls := p.calls ++ p.notices } else p := by
  rw [announce]
  by_cases hs : p.vsoState = .joining
  · by_cases hj : p.von.isJoined.2 = true
    · simp only [if_pos hs, if_pos hj, if_pos (show p.Announcing from ⟨hs, hj⟩), h, notices]
    · simp only [if_pos hs, if_neg hj, if_neg (show ¬ p.Announcing from fun ha => hj ha.2), h]
  · rw [if_neg hs, if_neg fun ha => hs ha.1]

structure Ticked (p q : VSOMember) : Prop where
  vsoState : q.vsoState = if p.Announcing then .joined else p.vsoState
  calls : q.calls = p.calls ++ if p.Announcing then p.notices else []
  joined : q.von.state = .joined ↔ p.von.isJoined.2 = true

theorem tick_ticked (p : VSOMember) (now gracePeriod : UInt64) (fails : UInt64 → Bool) (newpos : Option Area) :
    Ticked p (p.tick now gracePeriod fails newpos) := by
  have hvon := VONPeer.Shrinks.tick now gracePeriod p.von
  rw [tick]
  generalize p.von.tick now gracePeriod = von at *
  have hsnd : Announcing { p with von } ↔ p.Announcing := by
    change _ ∧ von.isJoined.2 = true ↔ _ ∧ p.von.isJoined.2 = true
    rw [hvon.isJoined_snd]
  have hann := announce_eq (p := { p with von }) hvon.isJoined_fst
  generalize announce { p with von } = q at *
  have hq : q.vsoState = (if p.Announcing then .joined else p.vsoState) ∧
      q.calls = p.calls ++ (if p.Announcing then p.notices else []) ∧ q.von = von := by
    by_cases ha : p.Announcing
    · rw [hann, if_pos ha, if_pos ha, if_pos (hsnd.mpr ha)]
      exact ⟨rfl, rfl, rfl⟩
    · rw [hann, if_neg ha, if_neg ha, if_neg fun hc => ha (hsnd.mp hc), List.append_nil]
      exact ⟨rfl, rfl, rfl⟩
  obtain ⟨hstate, hcalls, rfl⟩ := hq
  have hrest : (newpos.elim q (q.movePeerPosition now fails)).vsoState = q.vsoState ∧
      (newpos.elim q (q.movePeerPosition now fails)).calls = q.calls ∧
      VONPeer.Shrinks p.von.isJoined.1 (newpos.elim q (q.movePeerPosition now fails)).von := by
    cases newpos with
    | none => exact ⟨rfl, rfl, hvon⟩
    | some aoi =>
      have hmove := hvon.trans (VONPeer.Shrinks.move now fails q.von aoi 0)
      rw [Option.elim_some, movePeerPosition]
      generalize q.von.move now fails aoi 0 = v at *
      exact ⟨rfl, rfl, hmove.trans (VONPeer.Shrinks.of_eq rfl rfl)⟩
  obtain ⟨hvso, hsame, hend⟩ := hrest
  exact ⟨hvso.trans hstate, hsame.trans hcalls, by rw [← VONPeer.isJoined_iff, hend.isJoined_snd]⟩

theorem checkLoading_frame (now : UInt64) (p : VSOMember) :
    (p.checkLoading now).vsoState = p.vsoState ∧ (p.checkLoading now).calls = p.calls := by
  rw [checkLoading]
  dsimp only
  split
  · exact ⟨rfl, rfl⟩
  · split
    · split
      · exact ⟨rfl, rfl⟩
      · exact ⟨rfl, rfl⟩
    · split
      · exact ⟨rfl, rfl⟩
      · exact ⟨rfl, rfl⟩

theorem step_frame {e : Event} (he : e.isTick = false) :
    (p.step e).vsoState = p.vsoState ∧ (p.step e).calls = p.calls := by
  cases e with
  | message now sender msg =>
    cases msg with
    | promote joinPos origin =>
      rw [step, handleMessage]
      split
      · exact ⟨rfl, rfl⟩
      · exact ⟨rfl, rfl⟩
    | disconnect => exact ⟨rfl, rfl⟩
    | service => exact ⟨rfl, rfl⟩
    | von msg => exact ⟨rfl, rfl⟩
  | notifyLoading now level =>
    cases level with
    | normal => exact ⟨rfl, rfl⟩
    | underload => exact checkLoading_frame now (p.recordLoading now .underload)
    | overload => exact checkLoading_frame now (p.recordLoading now .overload)
  | tick now gracePeriod fails newpos => exact absurd he (Bool.noConfusion)
  | join now aoi origin => exact ⟨rfl, rfl⟩
  | leave => exact ⟨rfl, rfl⟩
  | isJoined => exact ⟨rfl, rfl⟩

/-- A peer with the record whether its present membership has been followed by a tick. -/
structure Watched where
  peer : VSOMember
  announced : Bool := false

namespace Watched

def step (w : Watched) (e : Event) : Watched where
  peer := w.peer.step e
  announced := (w.peer.step e).von.state == .joined && (e.isTick || w.announced)

/-- The first tick of a membership gives the notices; nothing else does. -/
def Announces (w : Watched) (e : Event) : Prop :=
  (w.peer.step e).calls = w.peer.calls ++
    if e.isTick = true ∧ (w.peer.step e).von.state = .joined ∧ w.announced = false then w.peer.notices else []

/-- No tick finds the peer joined again after an earlier membership was announced: `leave` does
not take `_vso_state` back. -/
def Keeps (w : Watched) : Event → Prop
  | .tick _ _ _ _ => w.peer.von.isJoined.2 = true → w.announced = false → w.peer.vsoState = .joining
  | _ => True

def Settled (w : Watched) : Prop := w.announced = true → w.peer.vsoState ≠ .joining

variable {w : Watched}

theorem Settled.step (h : w.Settled) (e : Event) : (w.step e).Settled := by
  intro ha
  obtain ⟨hj, ha⟩ := Bool.and_eq_true_iff.mp ha
  cases hc : e.isTick with
  | false =>
    rw [hc, Bool.false_or] at ha
    intro hs
    exact h ha ((step_frame hc).1.symm.trans hs)
  | true =>
    cases e with
    | tick now gracePeriod fails newpos =>
      have ht := tick_ticked w.peer now gracePeriod fails newpos
      have hj := ht.joined.mp (beq_iff_eq.mp hj)
      change (w.peer.tick now gracePeriod fails newpos).vsoState ≠ .joining
      rw [ht.vsoState]
      split
      · exact NodeState.noConfusion
      · rename_i hn
        exact fun hs => hn ⟨hs, hj⟩
    | _ => exact absurd hc (Bool.noConfusion)

theorem announces_iff (h : w.Settled) (e : Event) : w.Announces e ↔ w.Keeps e := by
  cases hc : e.isTick with
  | false =>
    rw [Announces, hc, if_neg fun hn => Bool.noConfusion hn.1, List.append_nil]
    refine iff_of_true (step_frame hc).2 ?_
    cases e with
    | tick now gracePeriod fails newpos => exact absurd hc (Bool.noConfusion)
    | _ => trivial
  | true =>
    cases e with
    | tick now gracePeriod fails newpos =>
      have ht := tick_ticked w.peer now gracePeriod fails newpos
      have hiff (a b : Prop) [Decidable a] [Decidable b] :
          ((if a then w.peer.notices else []) = if b then w.peer.notices else []) ↔ (a ↔ b) := by
        by_cases ha : a <;> by_cases hb : b <;> simp [ha, hb, notices]
      change (w.peer.tick now gracePeriod fails newpos).calls = _ ↔ _
      rw [ht.calls, List.append_cancel_left_eq, hiff]
      change (_ ∧ _ ↔ true = true ∧ (w.peer.tick now gracePeriod fails newpos).von.state = .joined ∧ _) ↔ _
      rw [ht.joined, eq_self, true_and, and_comm, and_congr_right_iff]
      refine forall_congr' fun _ => ⟨fun hs => hs.mpr, fun hs => ⟨fun hv => ?_, hs⟩⟩
      exact Bool.eq_false_iff.mpr fun ha => h ha hv
    | _ => exact absurd hc (Bool.noConfusion)

end Watched

theorem joins_announced_once_iff (geometry : Geometry) (self : Node) (aoiBuffer : UInt16)
    (gateway overloadPeriod : UInt64) (es : List Event) :
    StepRun.Along Watched.step Watched.Announces ⟨constructed geometry self aoiBuffer gateway overloadPeriod, false⟩ es ↔
      StepRun.Along Watched.step Watched.Keeps ⟨constructed geometry self aoiBuffer gateway overloadPeriod, false⟩ es :=
  StepRun.along_iff_along (fun _ e h _ => h.step e) (fun _ e h => Watched.announces_iff h e)
    fun h => absurd h (Bool.noConfusion)

/-- Peer 1 joins, leaves on an underload that lasts, and is promoted again. -/
def promotedAgain : List Event :=
  [.join 0 {} { id := 1 }, .tick 0 0 (fun _ => false) none] ++
    (List.range 10).map (fun i => .notifyLoading (UInt64.ofNat (10 * i + 1)) .underload) ++
    [.message 100 9 (.promote {} { id := 1 })]

theorem second_join_unannounced :
    ¬ StepRun.Along Watched.step Watched.Announces ⟨constructed VONPeer.lonePeer.geometry { id := 1 } 0 9 10, false⟩
      (promotedAgain ++ [.tick 100 0 (fun _ => false) none]) := by
  intro h
  have hlast := h.last
  rw [Watched.Announces] at hlast
  exact absurd hlast (by decide)

end VSOMember

end VastNC
