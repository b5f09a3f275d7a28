import VastNC.VsoPeer

/-! When a `VSOPeer` owns an object, the object is not also on its way to another peer; and
when a countdown runs, its object is there. -/

namespace VastNC

open Message

/-- An owned object is not in transit. -/
def VSOSharedObject.Settled (so : VSOSharedObject) : Prop := so.isOwner = true → so.inTransit = 0

/-- What is put out has no claim of an object that is owned already. -/
def ClaimsUnowned (outs : List VSOOutput) : Prop := ∀ id b, .claimed id b ∈ outs → b = false

theorem ClaimsUnowned.append {xs ys : List VSOOutput} (hx : ClaimsUnowned xs) (hy : ClaimsUnowned ys) :
    ClaimsUnowned (xs ++ ys) := by
  intro id b hm
  rcases List.mem_append.mp hm with hm | hm
  · exact hx id b hm
  · exact hy id b hm

namespace Custody

variable {t : VSOTiming} {v : VSOView} {self id : UInt64} {now : Nat} {c : Custody}

theorem settled_claim (c : Custody) (now : Nat) : (c.claimOwnership now).object.Settled := fun _ => rfl

theorem settled_outside (hs : c.object.Settled) :
    (c.checkOutside t v self id now).1.object.Settled ∧ ClaimsUnowned (c.checkOutside t v self id now).2 := by
  have hnil : ClaimsUnowned [] := fun _ _ h => nomatch h
  rw [checkOutside]
  split
  · split
    · exact ⟨hs, hnil⟩
    · split
      · refine ⟨fun h => absurd h Bool.false_ne_true, fun i b hm => ?_⟩
        rw [release, List.mem_singleton] at hm
        cases hm
      · exact ⟨hs, hnil⟩
  · exact ⟨hs, hnil⟩

theorem settled_inside (hs : c.object.Settled) :
    (c.checkInside t id now).1.object.Settled ∧ ClaimsUnowned (c.checkInside t id now).2 := by
  have hnil : ClaimsUnowned [] := fun _ _ h => nomatch h
  rw [checkInside]
  split
  · exact ⟨hs, hnil⟩
  · rename_i hno
    dsimp only
    split
    · refine ⟨settled_claim _ now, fun i b hm => ?_⟩
      rw [claim, List.mem_singleton, VSOOutput.claimed.injEq] at hm
      rw [hm.2]
      exact Bool.not_eq_true _ ▸ hno
    · exact ⟨hs, hnil⟩

theorem settled_transit (id : UInt64) (now : Nat) (hs : c.object.Settled) :
    (c.checkTransit id now).1.object.Settled ∧ ClaimsUnowned (c.checkTransit id now).2 := by
  rw [checkTransit]
  split
  · rename_i hdue
    refine ⟨settled_claim c now, fun i b hm => ?_⟩
    rw [claim, List.mem_singleton, VSOOutput.claimed.injEq] at hm
    rw [hm.2, ← Bool.not_eq_true]
    exact fun hown => hdue.1 (hs hown)
  · exact ⟨hs, fun _ _ h => absurd h List.not_mem_nil⟩

theorem settled_check (hs : c.object.Settled) :
    (c.check t v self id now).1.object.Settled ∧ ClaimsUnowned (c.check t v self id now).2 := by
  have hmid : (if v.contains c.object.aoi.center = false then c.checkOutside t v self id now
      else c.checkInside t id now).1.object.Settled ∧
      ClaimsUnowned (if v.contains c.object.aoi.center = false then c.checkOutside t v self id now
        else c.checkInside t id now).2 := by
    split
    · exact settled_outside hs
    · exact settled_inside hs
  obtain ⟨hend, hclaims⟩ := settled_transit id now hmid.1
  exact ⟨hend, ClaimsUnowned.append hmid.2 hclaims⟩

end Custody

namespace VSOHistory

/-- No owned object is in transit, and none has been claimed while it was owned. -/
structure OwnedSettled (h : VSOHistory) : Prop where
  settled : ∀ (id : UInt64) (so : VSOSharedObject), h.peer.objects[id]? = some so → so.Settled
  claims : ClaimsUnowned h.outs

/-- Ownership is not given to this peer of an object that it is passing on. -/
def KeepsSettled (h : VSOHistory) (e : Nat × VSOEvent) : Prop :=
  match e.2 with
  | .update id _ (some true) => ∀ so, h.peer.objects[id]? = some so → so.inTransit = 0
  | .transfer msg => h.peer.joined = true → ∀ tr ∈ VSOPeer.transfersIn msg, tr.newOwner = h.peer.self →
      ∀ so, h.peer.objects[tr.objId]? = some so → so.inTransit = 0
  | _ => True

variable {t : VSOTiming} {h : VSOHistory} {now : Nat}

/-- The objects after a step whose outputs claim nothing. -/
theorem ownedSettled_step {e : Nat × VSOEvent} (hh : h.OwnedSettled)
    (hout : ClaimsUnowned (h.peer.handle t e.1 e.2).2) : (h.step t e).OwnedSettled ↔
      ∀ (id : UInt64) (so : VSOSharedObject), (h.peer.handle t e.1 e.2).1.objects[id]? = some so → so.Settled :=
  ⟨fun hs => hs.settled, fun hs => ⟨hs, ClaimsUnowned.append hh.claims hout⟩⟩

theorem settled_update (hh : h.OwnedSettled) (id : UInt64) (aoi : Area) (isOwner : Option Bool) :
    (∀ (j : UInt64) (so : VSOSharedObject),
      (h.peer.updateSharedObject now id aoi isOwner).objects[j]? = some so → so.Settled) ↔
      (isOwner = some true → ∀ so, h.peer.objects[id]? = some so → so.inTransit = 0) := by
  have hslot (j : UInt64) := congrArg Prod.fst (h.peer.slot_updateSharedObject now id aoi isOwner j)
  simp only [← VSOPeer.objects_eq_slot] at hslot
  constructor
  · rintro hs rfl so hso
    have hnew := hslot id
    rw [if_pos rfl, hso] at hnew
    have hset := hs id _ hnew
    exact hset rfl
  · intro hk j so hso hown
    rw [hslot] at hso
    split at hso
    · rename_i hid
      subst hid
      obtain ⟨o, ho, rfl⟩ := Option.map_eq_some_iff.mp hso
      cases isOwner with
      | none => exact hh.settled id o ho hown
      | some b =>
        obtain rfl : b = true := hown
        exact hk rfl o ho
    · exact hh.settled j so hso hown

theorem settled_transfer (hh : h.OwnedSettled) (msg : Message) :
    (∀ (j : UInt64) (so : VSOSharedObject),
      (h.peer.processTransfer now msg).1.objects[j]? = some so → so.Settled) ↔
      h.KeepsSettled (now, .transfer msg) := by
  have hslot (j : UInt64) := congrArg Prod.fst (h.peer.slot_processTransfer now msg j)
  simp only [← VSOPeer.objects_eq_slot] at hslot
  constructor
  · intro hs hj tr htr hme so hso
    have hnew := hslot tr.objId
    rw [if_pos ⟨hj, tr, htr, rfl, hme⟩, VSOPeer.slot, hso] at hnew
    have hset := hs tr.objId _ hnew
    exact hset rfl
  · intro hk j so hso hown
    rw [hslot] at hso
    split at hso
    · rename_i hacc
      obtain ⟨hj, tr, htr, rfl, hme⟩ := hacc
      cases ho : h.peer.objects[tr.objId]? with
      | none =>
        rw [VSOPeer.slot, ho] at hso
        cases hso
      | some o =>
        rw [VSOPeer.slot, ho] at hso
        rw [← Option.some.inj hso]
        exact hk hj tr htr hme o ho
    · exact hh.settled j so hso hown

theorem settled_insert (hh : h.OwnedSettled) (id : UInt64) (aoi : Area) (isOwner : Bool) (j : UInt64)
    (so : VSOSharedObject)
    (hso : (h.peer.insertSharedObject now id aoi isOwner).1.objects[j]? = some so) : so.Settled := by
  rw [VSOPeer.objects_eq_slot, VSOPeer.slot_insertSharedObject] at hso
  split at hso
  · split at hso
    all_goals
      rw [← Option.some.inj hso]
      exact fun _ => rfl
  · exact hh.settled j so hso

theorem settled_tick (hh : h.OwnedSettled) (v : VSOView) (known : UInt64 → Bool) (j : UInt64)
    (so : VSOSharedObject) (hso : (h.peer.tick t v now known).1.objects[j]? = some so) : so.Settled := by
  obtain ⟨c, hc, c', hc', rfl, -⟩ := VSOPeer.slot_tick_some (x := ((h.peer.tick t v now known).1.slot j).2)
    (Prod.ext hso rfl)
  have hs : c.object.Settled := hh.settled j c.object (congrArg Prod.fst hc)
  split at hc'
  · subst hc'
    exact (Custody.settled_check hs).1
  · subst hc'
    exact hs

theorem claims_tick (hh : h.OwnedSettled) (v : VSOView) (known : UInt64 → Bool) :
    ClaimsUnowned (h.peer.tick t v now known).2 := by
  intro id b hm
  rcases VSOPeer.mem_tick hm with ⟨msg, he⟩ | ⟨j, c, -, hc, hout⟩
  · cases he
  · exact (Custody.settled_check (hh.settled j c.object (congrArg Prod.fst hc))).2 id b hout

theorem claims_handle (hh : h.OwnedSettled) (e : VSOEvent) : ClaimsUnowned (h.peer.handle t now e).2 := by
  by_cases he : ∃ v known, e = .tick v known
  · obtain ⟨v, known, rfl⟩ := he
    exact claims_tick hh v known
  · intro id b hm
    have hch := VSOPeer.changes_handle (fun v known hk => he ⟨v, known, hk⟩) _ hm
    cases hch

theorem keepsSettled_iff (hh : h.OwnedSettled) (e : Nat × VSOEvent) :
    (h.step t e).OwnedSettled ↔ h.KeepsSettled e := by
  rw [ownedSettled_step hh (claims_handle hh e.2)]
  obtain ⟨now, e⟩ := e
  cases e with
  | insert id aoi isOwner => exact iff_of_true (settled_insert hh id aoi isOwner) trivial
  | update id aoi isOwner =>
    refine (settled_update hh id aoi isOwner).trans ?_
    obtain _ | _ | _ := isOwner
    all_goals simp [KeepsSettled]
  | delete id =>
    refine iff_of_true (fun j so hso => ?_) trivial
    change (h.peer.deleteSharedObject id).objects[j]? = some so at hso
    rw [VSOPeer.objects_eq_slot, VSOPeer.slot_deleteSharedObject] at hso
    split at hso
    · cases hso
    · exact hh.settled j so hso
  | transfer msg => exact settled_transfer hh msg
  | ack id =>
    refine iff_of_true (fun j so hso => ?_) trivial
    change (h.peer.handleAck id).objects[j]? = some so at hso
    rw [VSOPeer.objects_eq_slot, VSOPeer.slot_handleAck] at hso
    split at hso
    · obtain ⟨o, -, rfl⟩ := Option.map_eq_some_iff.mp hso
      exact fun _ => rfl
    · exact hh.settled j so hso
  | disconnect peer => exact iff_of_true hh.settled trivial
  | tick v known => exact iff_of_true (settled_tick hh v known) trivial
  | joined joined => exact iff_of_true hh.settled trivial

/-- In every state that a peer without objects reaches, no owned object is in transit and none
has been claimed while it was owned, exactly when no step gives it the ownership of an object
that it is passing on. -/
theorem ownedSettled_always_iff (t : VSOTiming) (self : UInt64) (es : List (Nat × VSOEvent)) :
    StepRun.Always (step t) OwnedSettled ⟨{ self }, []⟩ es ↔
      StepRun.Along (step t) KeepsSettled ⟨{ self }, []⟩ es := by
  have hstart : OwnedSettled ⟨{ self }, []⟩ :=
    ⟨fun id so h => by simp at h, fun _ _ h => absurd h List.not_mem_nil⟩
  rw [StepRun.always_iff_along (fun h e hh => keepsSettled_iff hh e)]
  exact and_iff_right hstart

/-- An object moves away and is released at 11; before an acknowledgement has come, its client
subscribes anew from where it was. -/
def takenBack : List (Nat × VSOEvent) :=
  [(1, .insert 7 {} true), (1, .update 7 beyond none), (1, .tick (.ofPartition halfPlane 1 2) (fun _ => true)),
    (11, .tick (.ofPartition halfPlane 1 2) (fun _ => true)), (12, .update 7 {} (some true))]

theorem takenBack_inTransit : ¬ StepRun.Always (step tens) OwnedSettled ⟨{ self := 1 }, []⟩
    takenBack := by
  have hobj : ((takenBack.foldl (step tens) ⟨{ self := 1 }, []⟩).peer.objects[(7 : UInt64)]?).map
      (fun so => (so.isOwner, so.inTransit)) = some (true, 41) := by decide
  intro h
  obtain ⟨so, hso, he⟩ := Option.map_eq_some_iff.mp hobj
  rw [Prod.mk.injEq] at he
  have hset := (h takenBack (List.prefix_refl _)).settled 7 so hso he.1
  rw [he.2] at hset
  exact absurd hset (by decide)

end VSOHistory

end VastNC
