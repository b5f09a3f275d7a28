import VastNC.VsoHandover

/-! Two `VSOPeer`s that divide the plane between them and hand objects over by messages. What happens to
one object is a handover, so that it has one owner at most where messages, updates and ticks are fast
enough for the countdowns. -/

namespace VastNC

open Message
open Handover (Side Letter Bounds)

/-- The peers and the messages between them. The times (at which a message was sent, of the last tick of
each peer and of the last step) are there for the conditions on runs; no step depends on them. -/
structure OwnershipPair where
  peer : Side → VSOPeer
  network : List (Nat × OwnershipPacket) := []
  lastTick : Side → Nat := fun _ => 0
  clock : Nat := 0

inductive PairEvent where
  | update (x : Side) (id : UInt64) (aoi : Area)
  | tick (x : Side) (known : UInt64 → Bool)
  | deliver (i : Nat)

namespace OwnershipPair

variable (t : VSOTiming) (region : Position → Side)

def ids (s : OwnershipPair) (x : Side) : UInt64 := (s.peer x).self

def view (s : OwnershipPair) (x : Side) : VSOView :=
  .ofPartition (fun p => s.ids (region p)) (s.ids x) (s.ids x.other)

def setPeer (s : OwnershipPair) (now : Nat) (x : Side) (r : VSOPeer × List VSOOutput) : OwnershipPair where
  peer := Function.update s.peer x r.1
  network := s.network ++ OwnershipPacket.stamp now (OwnershipPacket.ofOutputs (s.ids x) r.2)
  lastTick := s.lastTick
  clock := now

def receive (now : Nat) (s : OwnershipPair) : OwnershipPacket → OwnershipPair
  | .transfer target msg =>
    match OwnershipPacket.sideOf s.ids target with
    | some x => s.setPeer now x ((s.peer x).processTransfer now msg)
    | none => { s with clock := now }
  | .ack target objId =>
    match OwnershipPacket.sideOf s.ids target with
    | some x => s.setPeer now x ((s.peer x).handleAck objId, [])
    | none => { s with clock := now }

/-- Any packet in flight may be the next that arrives. -/
def step (s : OwnershipPair) (e : Nat × PairEvent) : OwnershipPair :=
  match e.2 with
  | .update x id aoi => s.setPeer e.1 x ((s.peer x).updateSharedObject e.1 id aoi none, [])
  | .tick x known =>
    { s.setPeer e.1 x ((s.peer x).tick t (s.view region x) e.1 known) with
      lastTick := Function.update s.lastTick x e.1 }
  | .deliver i =>
    match s.network[i]? with
    | some m => { s with network := s.network.eraseIdx i }.receive e.1 m.2
    | none => { s with clock := e.1 }

def AtMostOneOwner (id : UInt64) (s : OwnershipPair) : Prop :=
  ¬ ((s.peer .a).isOwner id = true ∧ (s.peer .b).isOwner id = true)

/-- Two peers that know an object, which one of them owns; nothing is in flight, and no countdown is
under way but that of an owner that has lost sight of the object. -/
structure Settled (t : VSOTiming) (id : UInt64) (s : OwnershipPair) : Prop where
  distinct : s.ids .a ≠ s.ids .b
  assigned : ∀ x, s.ids x ≠ 0
  joined : ∀ x, (s.peer x).joined = true
  known : ∀ x, (s.peer x).objects[id]? ≠ none
  owned : (s.peer .a).isOwner id = !(s.peer .b).isOwner id
  quiet : s.network = []
  unclaimed : ∀ x, (s.peer x).reclaimTimeout[id]? = none
  landed : ∀ x so, (s.peer x).objects[id]? = some so → so.inTransit = 0
  leaving : ∀ x due, (s.peer x).transferTimeout[id]? = some due → due ≤ s.lastTick x + t.transfer
  ticked : ∀ x, s.lastTick x ≤ s.clock

/-- The time of a step: no message is in flight for longer than the delay, each peer ticks once a
period, and where a tick finds the object it was not longer ago than the lag. The count of a message
of transfers does not wrap around. -/
structure Timely (b : Bounds) (place : Nat → Side) (id : UInt64) (s : OwnershipPair) (e : Nat × PairEvent) :
    Prop where
  clock : s.clock ≤ e.1
  delivered : ∀ m ∈ s.network, e.1 ≤ m.1 + b.delay
  ticked : ∀ x, e.1 ≤ s.lastTick x + b.period
  seen : ∀ x known, e.2 = .tick x known → ∀ so, (s.peer x).objects[id]? = some so →
    ∃ u, u ≤ e.1 ∧ e.1 ≤ u + b.lag ∧ region so.aoi.center = place u
  counted : ∀ x known, e.2 = .tick x known →
    (((s.peer x).periodic t e.1 known).leaving (s.view region x) e.1 (s.ids x.other)).length ≤ 255

/-- What the two peers keep of the object and what is in flight about it. -/
def handover (id : UInt64) (s : OwnershipPair) : Handover.State where
  record x := (s.peer x).record id
  flight := OwnershipPacket.letters s.ids id s.network
  lastTick := s.lastTick
  clock := s.clock

/-- Who says that it hands the object over is the other peer. -/
structure Wired (id : UInt64) (s : OwnershipPair) : Prop where
  distinct : s.ids .a ≠ s.ids .b
  assigned : ∀ x, s.ids x ≠ 0
  joined : ∀ x, (s.peer x).joined = true
  named : ∀ m ∈ s.network, ∀ target msg, m.2 = .transfer target msg → ∀ tr ∈ VSOPeer.transfersIn msg,
    tr.objId = id → tr.newOwner = target → ∃ x, s.ids x = target ∧ tr.oldOwner = s.ids x.other

variable {t region} {b : Bounds} {place : Nat → Side} {s : OwnershipPair} {id : UInt64} {now : Nat} {x : Side}
  {r : VSOPeer × List VSOOutput}

theorem ids_setPeer (h : r.1.self = s.ids x) : (s.setPeer now x r).ids = s.ids := by
  funext y
  rw [ids, setPeer, ids]
  dsimp only
  by_cases hy : y = x
  · subst hy
    rw [Function.update_self, h, ids]
  · rw [Function.update_of_ne hy]
    rfl

theorem handover_setPeer (h : r.1.self = s.ids x) : (s.setPeer now x r).handover id =
    (s.handover id).received x now (r.1.record id)
      ((s.handover id).flight + OwnershipPacket.lettersOf s.ids id now (s.ids x) r.2) := by
  have hrecord : (fun y => ((s.setPeer now x r).peer y).record id) =
      Function.update (s.handover id).record x (r.1.record id) := by
    funext y
    rw [setPeer]
    dsimp only
    by_cases hy : y = x
    · subst hy
      rw [Function.update_self, Function.update_self]
    · rw [Function.update_of_ne hy, Function.update_of_ne hy]
      rfl
  rw [handover, hrecord, ids_setPeer h, setPeer, OwnershipPacket.letters_append]
  rfl

theorem Wired.setPeer (h : s.Wired id) (hself : r.1.self = s.ids x) (hj : r.1.joined = true)
    (hout : ∀ packet ∈ OwnershipPacket.ofOutputs (s.ids x) r.2, ∀ target msg, packet = .transfer target msg →
      ∀ tr ∈ VSOPeer.transfersIn msg, tr.newOwner = target →
        ∃ y, s.ids y = target ∧ tr.oldOwner = s.ids y.other) :
    (s.setPeer now x r).Wired id := by
  have hids : (s.setPeer now x r).ids = s.ids := ids_setPeer hself
  refine ⟨hids ▸ h.distinct, hids ▸ h.assigned, fun y => ?_, fun m hm target msg he tr htr hid hto => ?_⟩
  · rw [OwnershipPair.setPeer]
    dsimp only
    by_cases hy : y = x
    · subst hy
      rw [Function.update_self, hj]
    · rw [Function.update_of_ne hy]
      exact h.joined y
  · rw [hids]
    rcases List.mem_append.mp hm with hm | hm
    · exact h.named m hm target msg he tr htr hid hto
    · obtain ⟨packet, hp, rfl⟩ := List.mem_map.mp hm
      exact hout packet hp target msg he tr htr hto

theorem Wired.shrink (h : s.Wired id) (i : Nat) :
    ({ s with network := s.network.eraseIdx i } : OwnershipPair).Wired id :=
  ⟨h.distinct, h.assigned, h.joined, fun m hm => h.named m (List.mem_of_mem_eraseIdx hm)⟩

theorem closestTo_view (s : OwnershipPair) (x : Side) (q : Position)
    (h : (s.view region x).closestTo q ≠ s.ids x) : (s.view region x).closestTo q = s.ids x.other := by
  rcases Side.eq_or_eq_other x (region q) with hr | hr
  · exact absurd (congrArg s.ids hr) h
  · exact congrArg s.ids hr

theorem Wired.ids_inj (h : s.Wired id) {y : Side} (he : s.ids y = s.ids x) : y = x := by
  have hd := h.distinct
  cases x with
  | a =>
    cases y with
    | a => rfl
    | b => exact absurd he.symm hd
  | b =>
    cases y with
    | a => exact absurd he hd
    | b => rfl

theorem Wired.contains_view (h : s.Wired id) (x : Side) (q : Position) :
    (s.view region x).contains q = true ↔ region q = x := by
  rw [view, VSOView.ofPartition]
  dsimp only
  rw [beq_iff_eq]
  exact ⟨h.ids_inj, fun he => by rw [he]⟩

theorem closestTo_ne (s : OwnershipPair) (x : Side) (q : Position)
    (h : (s.view region x).contains q = false) : (s.view region x).closestTo q ≠ s.ids x := by
  rw [view, VSOView.ofPartition] at h ⊢
  exact beq_eq_false_iff_ne.mp h

theorem ack_of_reply {sender : UInt64} {outs : List VSOOutput}
    (h : ∀ out ∈ outs, out.reply = true) {packet : OwnershipPacket}
    (hp : packet ∈ OwnershipPacket.ofOutputs sender outs) :
    ∃ target k, packet = .ack target k ∧ .ack target k ∈ outs := by
  obtain ⟨out, hout, hm⟩ := List.mem_flatMap.mp hp
  have hrep := h out hout
  cases out with
  | ack target k => exact ⟨target, k, List.mem_singleton.mp hm, hout⟩
  | request target objIds => cases hm
  | transfer msg => cases hrep
  | claimed objId wasOwner => cases hrep
  | released tr => cases hrep

theorem Wired.tick (h : s.Wired id) (known : UInt64 → Bool)
    (hc : (((s.peer x).periodic t now known).leaving (s.view region x) now (s.ids x.other)).length ≤ 255) :
    (s.setPeer now x ((s.peer x).tick t (s.view region x) now known)).Wired id := by
  obtain ⟨hself, hjoined⟩ := VSOPeer.tick_frame t (s.view region x) now known (s.peer x)
  obtain ⟨hperiodic, -, -⟩ := VSOPeer.periodic_frame t now known (s.peer x)
  refine h.setPeer hself (hjoined.trans (h.joined x)) fun packet hp target msg he tr htr _ => ?_
  rcases VSOPeer.ofOutputs_tick t now known (h.joined x) rfl (s.closestTo_view x) with ⟨-, hout⟩ | hout
  · rw [ids, hout] at hp
    cases hp
  · rw [ids, hout, List.mem_singleton] at hp
    rw [hp] at he
    obtain ⟨rfl, rfl⟩ := OwnershipPacket.transfer.inj he
    rw [VSOPeer.transfersIn_announced hc] at htr
    obtain ⟨k, -, rfl⟩ := List.mem_map.mp htr
    exact ⟨x.other, rfl, by rw [Side.other_other]; exact hperiodic⟩

theorem Wired.processTransfer (h : s.Wired id) (msg : Message) :
    (s.setPeer now x ((s.peer x).processTransfer now msg)).Wired id := by
  obtain ⟨hself, hjoined⟩ := VSOPeer.processTransfer_frame (s.peer x) now msg
  refine h.setPeer hself (hjoined.trans (h.joined x)) fun packet hp target _ he => ?_
  obtain ⟨target', k, rfl, -⟩ := ack_of_reply (VSOPeer.reply_processTransfer msg) hp
  cases he

theorem Wired.receive (h : s.Wired id) (packet : OwnershipPacket) : (s.receive now packet).Wired id := by
  cases packet with
  | transfer target msg =>
    rw [OwnershipPair.receive]
    split
    · exact h.processTransfer msg
    · exact ⟨h.distinct, h.assigned, h.joined, h.named⟩
  | ack target objId =>
    rw [OwnershipPair.receive]
    split
    · exact h.setPeer rfl (h.joined _) fun packet hp => absurd hp List.not_mem_nil
    · exact ⟨h.distinct, h.assigned, h.joined, h.named⟩

theorem Wired.step {e : Nat × PairEvent} (h : s.Wired id) (ht : s.Timely t region b place id e) :
    (s.step t region e).Wired id := by
  obtain ⟨now, e⟩ := e
  cases e with
  | update x k aoi => exact h.setPeer rfl (h.joined x) fun packet hp => absurd hp List.not_mem_nil
  | tick x known =>
    have hw : (s.setPeer now x ((s.peer x).tick t (s.view region x) now known)).Wired id :=
      h.tick known (ht.counted x known rfl)
    exact ⟨hw.distinct, hw.assigned, hw.joined, hw.named⟩
  | deliver i =>
    rw [OwnershipPair.step]
    dsimp only
    split
    · exact (h.shrink i).receive _
    · exact ⟨h.distinct, h.assigned, h.joined, h.named⟩

theorem Wired.oldOwner (h : s.Wired id) {m : Nat × OwnershipPacket} (hm : m ∈ s.network) {msg : Message}
    (he : m.2 = .transfer (s.ids x) msg) :
    ∀ tr ∈ VSOPeer.transfersIn msg, tr.objId = id → tr.newOwner = s.ids x → tr.oldOwner = s.ids x.other := by
  intro tr htr hid hto
  obtain ⟨y, hy, hold⟩ := h.named m hm _ msg he tr htr hid hto
  rw [hold, h.ids_inj hy]

/-- What a peer answers to a transfer: an acknowledgement to the other, if it took the object over. -/
theorem letters_processTransfer (now : Nat) (h : s.Wired id) {msg : Message}
    (hold : ∀ tr ∈ VSOPeer.transfersIn msg, tr.objId = id → tr.newOwner = s.ids x →
      tr.oldOwner = s.ids x.other) :
    ∃ acks : Multiset Side,
    OwnershipPacket.lettersOf s.ids id now (s.ids x) ((s.peer x).processTransfer now msg).2 =
      acks.map (fun y => (now, Letter.ack y)) ∧
    (OwnershipPacket.carries id (.transfer (s.ids x) msg) = true ∧ (s.peer x).record id ≠ none →
      x.other ∈ acks) ∧
    (OwnershipPacket.carries id (.transfer (s.ids x) msg) = false ∨ (s.peer x).record id = none →
      acks = 0) := by
  have hcarry : OwnershipPacket.carries id (.transfer (s.ids x) msg) = true ↔
      ∃ tr ∈ VSOPeer.transfersIn msg, tr.objId = id ∧ tr.newOwner = s.ids x := by
    simp [OwnershipPacket.carries, List.any_eq_true]
  have hack (target k : UInt64) := VSOPeer.ack_mem_processTransfer (h.joined x) now msg target k
  refine ⟨_, OwnershipPacket.letters_acks fun packet hp => ?_, ?_, ?_⟩
  · obtain ⟨target, k, he, -⟩ := ack_of_reply (VSOPeer.reply_processTransfer msg) hp
    exact ⟨target, k, he⟩
  · rintro ⟨hc, hr⟩
    obtain ⟨tr, htr, hid, hto⟩ := hcarry.mp hc
    have hback := hold tr htr hid hto
    have hout : VSOOutput.ack (s.ids x.other) id ∈ ((s.peer x).processTransfer now msg).2 := by
      refine (hack _ _).mpr ⟨tr, htr, hto, ?_, ?_⟩
      · rw [hid]
        exact fun hnone => hr (VSOPeer.record_eq_none.mpr hnone)
      · rw [VSOOwnerTransfer.acks, hback, hid, if_pos (h.assigned x.other)]
        exact List.mem_singleton_self _
    refine Multiset.mem_coe.mpr (List.mem_filterMap.mpr ⟨.ack (s.ids x.other) id, ?_, ?_⟩)
    · exact List.mem_flatMap.mpr ⟨_, hout, List.mem_singleton_self _⟩
    · rw [OwnershipPacket.answer, if_pos rfl, OwnershipPacket.sideOf_ids h.distinct]
  · intro hno
    refine (Multiset.coe_eq_zero _).mpr (List.filterMap_eq_nil_iff.mpr fun packet hp => ?_)
    obtain ⟨target, k, rfl, hout⟩ := ack_of_reply (VSOPeer.reply_processTransfer msg) hp
    refine if_neg fun hk => ?_
    obtain ⟨tr, htr, hto, hobj, hmem⟩ := (hack target k).mp hout
    have hobjId : tr.objId = id := by
      rw [VSOOwnerTransfer.acks] at hmem
      split at hmem
      · rw [← hk]
        exact (VSOOutput.ack.inj (List.mem_singleton.mp hmem)).2.symm
      · cases hmem
    rcases hno with hc | hr
    · rw [hcarry.mpr ⟨tr, htr, hobjId, hto⟩] at hc
      cases hc
    · exact hobj (hobjId ▸ VSOPeer.record_eq_none.mp hr)

/-- Where a peer sends nothing about the object and its record stays, only time has passed. -/
theorem handover_still (hself : r.1.self = s.ids x) (hrecord : r.1.record id = (s.peer x).record id)
    (hout : OwnershipPacket.lettersOf s.ids id now (s.ids x) r.2 = 0) :
    (s.setPeer now x r).handover id = { s.handover id with clock := now } := by
  rw [handover_setPeer hself, hrecord, hout, add_zero]
  exact Handover.State.received_self

theorem step_tick (hw : s.Wired id) (ht : 0 < t.transfer) {known : UInt64 → Bool}
    (h : s.Timely t region b place id (now, .tick x known)) :
    Handover.Step t.handover b place now (s.handover id)
      ((s.step t region (now, .tick x known)).handover id) := by
  obtain ⟨hself, -⟩ := VSOPeer.tick_frame t (s.view region x) now known (s.peer x)
  have hset : (s.setPeer now x ((s.peer x).tick t (s.view region x) now known)).handover id = _ :=
    handover_setPeer hself
  have hsame : (s.step t region (now, .tick x known)).handover id =
      (s.handover id).turned x now (((s.peer x).tick t (s.view region x) now known).1.record id)
        (OwnershipPacket.lettersOf s.ids id now (s.ids x)
          ((s.peer x).tick t (s.view region x) now known).2) :=
    congrArg (fun u : Handover.State => { u with lastTick := Function.update s.lastTick x now }) hset
  have hletters : OwnershipPacket.lettersOf s.ids id now (s.ids x)
      ((s.peer x).tick t (s.view region x) now known).2 = _ :=
    VSOPeer.letters_tick hw.distinct (hw.joined x) rfl (s.closestTo_view x) (h.counted x known rfl)
  rw [hsame, hletters]
  refine .tick (fun hr => ?_) (VSOPeer.turn_tick ht (hw.joined x) x.other (s.closestTo_ne x))
  have hr' : (s.peer x).objects[id]? ≠ none := fun hnone => hr (VSOPeer.record_eq_none.mpr hnone)
  obtain ⟨so, hso⟩ := Option.ne_none_iff_exists'.mp hr'
  obtain ⟨u, hu, hlag, hplace⟩ := h.seen x known rfl so hso
  refine ⟨u, hu, hlag, ?_⟩
  rw [VSOPeer.custody, hso, Option.map_some, Option.any_some, hw.contains_view, hplace]

/-- A packet that says nothing about the object. -/
theorem step_silent {packet : OwnershipPacket} {sent : Nat} {s' : OwnershipPair}
    (h : OwnershipPacket.letter s.ids id packet = none)
    (hs : s'.handover id = { s.handover id with clock := now }) :
    Handover.Step t.handover b place now
      { s.handover id with flight := OwnershipPacket.letters s.ids id ((sent, packet) :: s.network) }
      (s'.handover id) := by
  rw [OwnershipPacket.letters_cons, h, hs]
  exact .pass

theorem step_ack (target k : UInt64) (sent : Nat) :
    Handover.Step t.handover b place now
      { s.handover id with flight := OwnershipPacket.letters s.ids id ((sent, .ack target k) :: s.network) }
      ((s.receive now (.ack target k)).handover id) := by
  rw [OwnershipPair.receive]
  cases hside : OwnershipPacket.sideOf s.ids target with
  | none =>
    refine step_silent ?_ rfl
    rw [OwnershipPacket.letter, hside, Option.map_none, ite_self]
  | some x =>
    have hquiet (q : VSOPeer) :
        OwnershipPacket.lettersOf s.ids id now (s.ids x) (q, ([] : List VSOOutput)).2 = 0 := rfl
    have hrecord := VSOPeer.record_handleAck (s.peer x) k id
    dsimp only
    by_cases hk : k = id
    · have hletter : OwnershipPacket.letter s.ids id (.ack target k) = some (.ack x) := by
        rw [OwnershipPacket.letter, if_pos hk, hside, Option.map_some]
      rw [if_pos hk] at hrecord
      rw [OwnershipPacket.letters_cons, hletter, handover_setPeer rfl, hquiet, add_zero, hrecord]
      exact .ack rfl
    · have hletter : OwnershipPacket.letter s.ids id (.ack target k) = none := if_neg hk
      rw [if_neg hk] at hrecord
      exact step_silent hletter (handover_still rfl hrecord (hquiet _))

theorem Wired.step_transfer (hw : s.Wired id) {target : UInt64} {msg : Message} {sent : Nat}
    (hold : ∀ x, target = s.ids x → ∀ tr ∈ VSOPeer.transfersIn msg, tr.objId = id → tr.newOwner = s.ids x →
      tr.oldOwner = s.ids x.other) :
    Handover.Step t.handover b place now
      { s.handover id with
        flight := OwnershipPacket.letters s.ids id ((sent, .transfer target msg) :: s.network) }
      ((s.receive now (.transfer target msg)).handover id) := by
  rw [OwnershipPair.receive]
  cases hside : OwnershipPacket.sideOf s.ids target with
  | none =>
    refine step_silent ?_ rfl
    rw [OwnershipPacket.letter, hside, Option.map_none, ite_self]
  | some x =>
    obtain rfl := OwnershipPacket.eq_of_sideOf hside
    obtain ⟨hself, -⟩ := VSOPeer.processTransfer_frame (s.peer x) now msg
    obtain ⟨acks, hacks, hanswer, hsilent⟩ := letters_processTransfer now hw (hold x rfl)
    have hrecord : ((s.peer x).processTransfer now msg).1.record id = _ :=
      VSOPeer.record_processTransfer (hw.joined x) msg
    dsimp only
    by_cases hc : OwnershipPacket.carries id (.transfer (s.ids x) msg) = true
    · have hletter : OwnershipPacket.letter s.ids id (.transfer (s.ids x) msg) = some (.token x) := by
        rw [OwnershipPacket.letter, if_pos hc, hside, Option.map_some]
      rw [OwnershipPacket.letters_cons, hletter, handover_setPeer hself, hrecord.trans (if_pos hc), hacks]
      cases hr : (s.peer x).record id with
      | none =>
        have hlost : (s.handover id).received x now none (s.handover id).flight =
            { s.handover id with clock := now } :=
          (congrArg (fun r => (s.handover id).received x now r _) hr.symm).trans
            Handover.State.received_self
        rw [hsilent (.inr hr), Multiset.map_zero, add_zero, Option.map_none, hlost]
        exact .lost rfl hr
      | some r =>
        exact .token rfl hr (hanswer ⟨hc, by rw [hr]; exact Option.some_ne_none r⟩)
    · have hletter : OwnershipPacket.letter s.ids id (.transfer (s.ids x) msg) = none := if_neg hc
      refine step_silent hletter (handover_still hself (hrecord.trans (if_neg hc)) ?_)
      rw [hacks, hsilent (.inl (Bool.not_eq_true _ ▸ hc)), Multiset.map_zero]

/-- The arrival of a message that is no longer in the network. -/
theorem Wired.step_receive (hw : s.Wired id) {m : Nat × OwnershipPacket}
    (hold : ∀ x msg, m.2 = .transfer (s.ids x) msg → ∀ tr ∈ VSOPeer.transfersIn msg, tr.objId = id →
      tr.newOwner = s.ids x → tr.oldOwner = s.ids x.other) :
    Handover.Step t.handover b place now
      { s.handover id with flight := OwnershipPacket.letters s.ids id (m :: s.network) }
      ((s.receive now m.2).handover id) := by
  obtain ⟨sent, packet⟩ := m
  cases packet with
  | ack target k => exact step_ack target k sent
  | transfer target msg => exact hw.step_transfer fun x hx => hold x msg (by rw [hx])

theorem step_deliver (hw : s.Wired id) {i : Nat} {m : Nat × OwnershipPacket} (hm : s.network[i]? = some m) :
    Handover.Step t.handover b place now (s.handover id)
      (({ s with network := s.network.eraseIdx i }.receive now m.2).handover id) := by
  have hperm : s.network.Perm (m :: s.network.eraseIdx i) := by
    obtain ⟨hi, rfl⟩ := List.getElem?_eq_some_iff.mp hm
    exact (List.getElem_cons_eraseIdx_perm hi).symm
  have hflight : OwnershipPacket.letters s.ids id (m :: s.network.eraseIdx i) = (s.handover id).flight :=
    (OwnershipPacket.letters_perm hperm).symm
  have hstep : Handover.Step t.handover b place now _ _ :=
    (hw.shrink i).step_receive (m := m) fun x msg he => hw.oldOwner (List.mem_of_getElem? hm) he
  have hids : ({ s with network := s.network.eraseIdx i } : OwnershipPair).ids = s.ids := rfl
  rw [hids, hflight] at hstep
  exact hstep

/-- What a step does to the object is a step of the handover. -/
theorem handover_step {e : Nat × PairEvent} (hw : s.Wired id) (ht : 0 < t.transfer)
    (h : s.Timely t region b place id e) :
    Handover.Step t.handover b place e.1 (s.handover id) ((s.step t region e).handover id) := by
  obtain ⟨now, e⟩ := e
  cases e with
  | update x k aoi =>
    have hstill : (s.setPeer now x ((s.peer x).updateSharedObject now k aoi none, [])).handover id =
        { s.handover id with clock := now } :=
      handover_still rfl (VSOPeer.record_updateSharedObject _ now k id aoi) rfl
    change Handover.Step _ _ _ _ _ ((s.setPeer now x _).handover id)
    rw [hstill]
    exact .pass
  | tick x known => exact step_tick hw ht h
  | deliver i =>
    rw [step]
    dsimp only
    cases hm : s.network[i]? with
    | none => exact .pass
    | some m => exact step_deliver hw hm

theorem Settled.inv (h : s.Settled t id) : Handover.Inv t.handover b place (s.handover id) := by
  have htokens : (s.handover id).tokens = 1 := by
    rw [Handover.State.tokens, Handover.State.owns, Handover.State.owns]
    show ((s.peer .a).record id |>.any Handover.Record.owner).toNat + ((s.peer .b).record id |>.any _).toNat +
      (OwnershipPacket.letters s.ids id s.network).countP _ = 1
    rw [VSOPeer.any_owner_record, VSOPeer.any_owner_record, h.owned, h.quiet]
    cases (s.peer .b).isOwner id <;> rfl
  refine .start h.ticked (by rw [handover, h.quiet]; rfl) htokens fun x r hr => ?_
  obtain ⟨c, hc, rfl⟩ := Option.map_eq_some_iff.mp hr
  obtain ⟨so, hso, rfl⟩ := Option.map_eq_some_iff.mp hc
  exact ⟨h.unclaimed x, if_pos (h.landed x so hso), h.leaving x⟩

/-- Two peers that divide the plane never both own the object when nothing is in flight, as long as
messages, updates and ticks are fast enough for the countdowns. -/
theorem one_owner_at_rest (hb : b.Suffice t.handover) (hsteady : Handover.Steady place (b.lag + b.period))
    (hs : s.Settled t id) {es : List (Nat × PairEvent)}
    (h : StepRun.Along (step t region) (Timely t region b place id) s es) :
    StepRun.Always (step t region) (fun s => s.network = [] → s.AtMostOneOwner id) s es := by
  have ht : 0 < t.transfer := by
    have hanswered : 2 * b.delay < t.transfer * 3 := hb.answered
    omega
  have hinv : StepRun.Always (step t region)
      (fun s => s.Wired id ∧ Handover.Inv t.handover b place (s.handover id)) s es := by
    refine StepRun.always_of_along (fun s e hi he => ?_) ⟨?_, hs.inv⟩ h
    · refine ⟨hi.1.step he,
        hi.2.step hb hsteady ⟨he.clock, fun m hm => ?_, he.ticked⟩ (handover_step hi.1 ht he)⟩
      obtain ⟨sent, hsent, hm⟩ := OwnershipPacket.mem_letters hm
      exact hm ▸ he.delivered sent hsent
    · exact ⟨hs.distinct, hs.assigned, hs.joined, fun m hm => absurd (hs.quiet ▸ hm) List.not_mem_nil⟩
  intro pre hpre _ hboth
  refine (hinv pre hpre).2.not_both ?_
  exact ⟨(VSOPeer.any_owner_record _ id).trans hboth.1, (VSOPeer.any_owner_record _ id).trans hboth.2⟩

def beforeHandover : OwnershipPair where
  peer
    | .a => { self := 1, objects := (∅ : Std.ExtTreeMap UInt64 VSOSharedObject).insert 7 { isOwner := true } }
    | .b => { self := 2, objects := (∅ : Std.ExtTreeMap UInt64 VSOSharedObject).insert 7 {} }

def leftIsA (p : Position) : Side := if p.x == 0 then .a else .b

theorem settled_beforeHandover : beforeHandover.Settled tens 7 where
  distinct := by decide
  assigned x := by cases x <;> decide
  joined x := by cases x <;> rfl
  known x := by cases x <;> decide
  owned := by decide
  quiet := rfl
  unclaimed x := by cases x <;> rfl
  landed x so h := by
    cases x with
    | a => rw [← Option.some.inj (h : some _ = some so)]
    | b => rw [← Option.some.inj (h : some _ = some so)]
  leaving x due h := by cases x <;> cases (h : none = some due)
  ticked x := Nat.le_refl 0

/-- The object moves into the region of peer 2, which hears of it at 2, and is released at 15. -/
def handoverRun : List (Nat × PairEvent) :=
  [(1, .update .a 7 beyond), (1, .tick .a (fun _ => true)), (1, .tick .b (fun _ => true)),
    (2, .update .b 7 beyond), (8, .tick .a (fun _ => true)), (8, .tick .b (fun _ => true)),
    (15, .tick .a (fun _ => true)), (15, .tick .b (fun _ => true)), (17, .deliver 0), (18, .deliver 0)]

def fastEnough : Bounds := { delay := 3, lag := 2, period := 8 }

def crossing (u : Nat) : Side := if u = 0 then .a else .b

theorem steady_crossing (d : Nat) : Handover.Steady crossing d := by
  intro u w huw _ he v huv hvw
  simp only [crossing] at he ⊢
  split at he
  · rw [if_pos (by omega), if_pos (by omega)]
  · split at he
    · cases he
    · rw [if_neg (by omega), if_neg (by omega)]

/-- A step that is no tick is in time as soon as nothing is late. -/
theorem Timely.of_quiet {e : Nat × PairEvent} (he : ∀ x known, e.2 ≠ .tick x known) (hclock : s.clock ≤ e.1)
    (hdelivered : ∀ m ∈ s.network, e.1 ≤ m.1 + b.delay) (hticked : ∀ x, e.1 ≤ s.lastTick x + b.period) :
    s.Timely t region b place id e :=
  ⟨hclock, hdelivered, hticked, fun x known hx => absurd hx (he x known),
    fun x known hx => absurd hx (he x known)⟩

theorem Timely.of_tick {known : UInt64 → Bool} (u : Nat) (hclock : s.clock ≤ now)
    (hdelivered : ∀ m ∈ s.network, now ≤ m.1 + b.delay) (hticked : ∀ x, now ≤ s.lastTick x + b.period)
    (hseen : u ≤ now ∧ now ≤ u + b.lag ∧
      (s.peer x).objects[id]?.all (fun so => decide (region so.aoi.center = place u)) = true)
    (hcounted :
      (((s.peer x).periodic t now known).leaving (s.view region x) now (s.ids x.other)).length ≤ 255) :
    s.Timely t region b place id (now, .tick x known) := by
  refine ⟨hclock, hdelivered, hticked, fun y known' hy so hso => ?_, fun y known' hy => ?_⟩
  · obtain ⟨rfl, rfl⟩ := PairEvent.tick.inj hy
    obtain ⟨hu, hlag, hall⟩ := hseen
    rw [hso, Option.all_some, decide_eq_true_eq] at hall
    exact ⟨u, hu, hlag, hall⟩
  · obtain ⟨rfl, rfl⟩ := PairEvent.tick.inj hy
    exact hcounted

theorem timely_handoverRun : StepRun.Along (step tens leftIsA) (Timely tens leftIsA fastEnough crossing 7)
    beforeHandover handoverRun := by
  refine ⟨.of_quiet ?_ ?_ ?_ ?_, .of_tick 1 ?_ ?_ ?_ ?_ ?_, .of_tick 0 ?_ ?_ ?_ ?_ ?_, .of_quiet ?_ ?_ ?_ ?_,
    .of_tick 8 ?_ ?_ ?_ ?_ ?_, .of_tick 8 ?_ ?_ ?_ ?_ ?_, .of_tick 15 ?_ ?_ ?_ ?_ ?_,
    .of_tick 15 ?_ ?_ ?_ ?_ ?_, .of_quiet ?_ ?_ ?_ ?_, .of_quiet ?_ ?_ ?_ ?_, trivial⟩
  all_goals first
    | decide
    | exact fun x known hx => PairEvent.noConfusion hx
    | exact fun x => by cases x <;> decide

/-- Peer 2 owns the object in the end. -/
theorem one_owner_handover : StepRun.Always (step tens leftIsA) (fun s => s.network = [] → s.AtMostOneOwner 7)
      beforeHandover handoverRun ∧
    (handoverRun.foldl (step tens leftIsA) beforeHandover).network.length = 0 ∧
    ((handoverRun.foldl (step tens leftIsA) beforeHandover).peer .b).isOwner 7 = true :=
  ⟨one_owner_at_rest (b := fastEnough) ⟨by decide, by decide, by decide⟩ (steady_crossing _)
    settled_beforeHandover timely_handoverRun, by decide, by decide⟩

/-- The object is released at 11 and accepted at 12, and the acknowledgement arrives after the deadline. -/
def lateAnswer : List (Nat × PairEvent) :=
  [(1, .update .a 7 beyond), (1, .update .b 7 beyond), (1, .tick .a (fun _ => true)),
    (11, .tick .a (fun _ => true)), (12, .deliver 0), (41, .tick .a (fun _ => true)), (42, .deliver 0)]

/-- Nothing is late, but the object is on the side of peer 2 at its ticks only. -/
def backAndForth : List (Nat × PairEvent) :=
  [(1, .update .a 7 beyond), (1, .update .b 7 beyond), (1, .tick .b (fun _ => true)), (2, .update .a 7 {}),
    (2, .update .b 7 {}), (2, .tick .a (fun _ => true)), (51, .update .a 7 beyond), (51, .update .b 7 beyond),
    (51, .tick .b (fun _ => true))]

/-- At a deadline the object is claimed, whoever owns it by then. -/
theorem ownership_split : beforeHandover.Settled tens 7 ∧
    ∀ es ∈ [lateAnswer, backAndForth], ¬ StepRun.Always (step tens leftIsA)
      (fun s => s.network = [] → s.AtMostOneOwner 7) beforeHandover es := by
  refine ⟨settled_beforeHandover, fun es hes h => ?_⟩
  rcases List.mem_pair.mp hes with rfl | rfl
  · exact h _ (List.prefix_refl _) rfl ⟨by decide, by decide⟩
  · exact h _ (List.prefix_refl _) rfl ⟨by decide, by decide⟩

end OwnershipPair

end VastNC
