import VastNC.VsoPeer

/-! The countdowns of a `VSOPeer`: which of them run for an object that is not there, and what
this means for an object that is inserted again. -/

namespace VastNC

open Message

/-- No countdown runs for an object that is not there. -/
def Accounted (s : VSOSlot) : Prop := s.1 = none → s.2 = (none, none)

/-- The object is not in transit, and its countdowns are not due before `due`. -/
structure Young (due : Nat) (s : VSOSlot) : Prop where
  inTransit : ∀ so, s.1 = some so → so.inTransit = 0
  transfer : ∀ d, s.2.1 = some d → due ≤ d
  reclaim : ∀ d, s.2.2 = some d → due ≤ d

namespace Custody

variable {t : VSOTiming} {v : VSOView} {self id : UInt64} {due now : Nat} {c : Custody}

theorem young_outside (h : Young due c.slot) (hnow : now < due) (hdue : due ≤ now + t.transfer) :
    Young due (c.checkOutside t v self id now).1.slot ∧ (c.checkOutside t v self id now).2 = [] := by
  rw [checkOutside]
  split
  · split
    · refine ⟨⟨h.inTransit, fun d hd => ?_, h.reclaim⟩, rfl⟩
      rw [← Option.some.inj hd]
      exact hdue
    · rename_i d hd
      have hlate : ¬ (now ≥ d ∧ v.closestTo c.object.aoi.center ≠ self) := fun hc =>
        absurd hc.1 (Nat.not_le.mpr (lt_of_lt_of_le hnow (h.transfer d hd)))
      rw [if_neg hlate]
      exact ⟨h, rfl⟩
  · exact ⟨⟨h.inTransit, h.transfer, fun d hd => absurd hd.symm (Option.some_ne_none d)⟩, rfl⟩

theorem young_inside (h : Young due c.slot) (hnow : now < due) (hdue : due ≤ now + t.transfer) :
    Young due (c.checkInside t id now).1.slot ∧ (c.checkInside t id now).2 = [] := by
  rw [checkInside]
  split
  · exact ⟨⟨h.inTransit, fun d hd => absurd hd.symm (Option.some_ne_none d), h.reclaim⟩, rfl⟩
  · have hd : due ≤ c.reclaimTimeout.getD (now + t.transfer * 5) := by
      cases hr : c.reclaimTimeout with
      | none => simp only [Option.getD_none]; omega
      | some d => exact h.reclaim d hr
    dsimp only
    rw [if_neg (Nat.not_le.mpr (lt_of_lt_of_le hnow hd))]
    refine ⟨⟨h.inTransit, h.transfer, fun d he => ?_⟩, rfl⟩
    rw [← Option.some.inj he]
    exact hd

theorem young_check (h : Young due c.slot) (hnow : now < due) (hdue : due ≤ now + t.transfer) :
    Young due (c.check t v self id now).1.slot ∧ (c.check t v self id now).2 = [] := by
  have hmid : Young due (if v.contains c.object.aoi.center = false then c.checkOutside t v self id now
      else c.checkInside t id now).1.slot ∧
      (if v.contains c.object.aoi.center = false then c.checkOutside t v self id now
        else c.checkInside t id now).2 = [] := by
    split
    · exact young_outside h hnow hdue
    · exact young_inside h hnow hdue
  have hrest := hmid.1.inTransit _ rfl
  rw [check, checkTransit, if_neg (fun hc => hc.1 hrest)]
  exact ⟨hmid.1, by rw [hmid.2, List.nil_append]⟩

end Custody

namespace VSOPeer

def NoCountdown (p : VSOPeer) (id : UInt64) : Prop :=
  p.transferTimeout[id]? = none ∧ p.reclaimTimeout[id]? = none

/-- Every id with a countdown is the id of an object. -/
def CountdownsLive (p : VSOPeer) : Prop := ∀ id : UInt64, p.objects[id]? = none → p.NoCountdown id

theorem accounted_none {p : VSOPeer} {id : UInt64} : Accounted (none, (p.slot id).2) ↔ p.NoCountdown id := by
  simp [Accounted, slot, NoCountdown]

theorem countdownsLive_iff {p : VSOPeer} : p.CountdownsLive ↔ ∀ id, Accounted (p.slot id) :=
  forall_congr' fun _ => imp_congr_right fun _ => Prod.mk.injEq .. ▸ Iff.rfl

/-- No object is removed while a countdown of it runs. -/
def KeepsCountdowns (t : VSOTiming) (now : Nat) (p : VSOPeer) : VSOEvent → Prop
  | .delete id => p.NoCountdown id
  | .tick _ known => now ≥ p.nextPeriodic → ∀ (id : UInt64) (so : VSOSharedObject),
      p.objects[id]? = some so → isObsolete t now so = true → known id = true → p.NoCountdown id
  | _ => True

variable {t : VSOTiming} {now : Nat} {p : VSOPeer}

theorem accounted_tick (v : VSOView) (known : UInt64 → Bool) (id : UInt64) :
    Accounted ((p.tick t v now known).1.slot id) ↔ Accounted ((p.periodic t now known).slot id) := by
  rw [slot_tick, tickSlot]
  rcases (p.periodic t now known).slot id with ⟨_ | so, x⟩
  all_goals cases p.joined <;> simp [Accounted, checkSlot, Custody.slot]

theorem accounted_periodic (t : VSOTiming) (now : Nat) (known : UInt64 → Bool) {id : UInt64}
    (h : Accounted (p.slot id)) :
    Accounted ((p.periodic t now known).slot id) ↔ (now ≥ p.nextPeriodic →
      ∀ so, p.objects[id]? = some so → isObsolete t now so = true → known id = true → p.NoCountdown id) := by
  rw [← accounted_none]
  rcases slot_periodic t now known p id with ⟨⟨hdue, so, hso, hold, hknown⟩, hp⟩ | ⟨hstay, hp⟩
  · rw [hp]
    exact ⟨fun hs _ _ _ _ _ => hs, fun hs => hs hdue so hso hold hknown⟩
  · rw [hp]
    exact iff_of_true h fun hdue so hso hold hknown => absurd ⟨hdue, so, hso, hold, hknown⟩ hstay

theorem accounted_accept {s : VSOSlot} (h : Accounted s) (now : Nat) : Accounted (acceptSlot now s) := by
  obtain ⟨_ | so, x⟩ := s
  · exact h
  · exact fun hn => nomatch hn

theorem accounted_modify (h : p.CountdownsLive) (id : UInt64) (f : VSOSharedObject → VSOSharedObject)
    (j : UInt64) : Accounted (slot { p with objects := p.objects.modify id f } j) := by
  rw [slot_modify]
  split
  · exact fun hn => countdownsLive_iff.mp h j (Option.map_eq_none_iff.mp hn)
  · exact countdownsLive_iff.mp h j

theorem accounted_insert (h : p.CountdownsLive) (id : UInt64) (aoi : Area) (isOwner : Bool) (j : UInt64) :
    Accounted ((p.insertSharedObject now id aoi isOwner).1.slot j) := by
  rw [slot_insertSharedObject]
  split
  · split
    · exact fun hn => nomatch hn
    · exact fun hn => nomatch hn
  · exact countdownsLive_iff.mp h j

theorem accounted_disconnect (h : p.CountdownsLive) (peer j : UInt64) :
    Accounted ((p.handleDisconnect peer).slot j) := by
  rw [slot_handleDisconnect]
  intro hn
  have hlive := countdownsLive_iff.mp h j hn
  have hany : ¬ p.objects[j]?.any (fun so => so.closest == peer) = true := by
    rw [show p.objects[j]? = none from hn]
    exact Bool.false_ne_true
  rw [if_neg hany]
  exact hlive

theorem countdownsLive_delete (h : p.CountdownsLive) (id : UInt64) :
    (p.deleteSharedObject id).CountdownsLive ↔ p.KeepsCountdowns t now (.delete id) := by
  simp only [countdownsLive_iff, slot_deleteSharedObject]
  constructor
  · intro hs
    have hid := hs id
    rw [if_pos rfl] at hid
    exact accounted_none.mp hid
  · intro hk j
    split
    · rename_i hid
      exact hid ▸ accounted_none.mpr hk
    · exact countdownsLive_iff.mp h j

theorem countdownsLive_tick (h : p.CountdownsLive) (v : VSOView) (known : UInt64 → Bool) :
    (p.tick t v now known).1.CountdownsLive ↔ p.KeepsCountdowns t now (.tick v known) := by
  simp only [countdownsLive_iff, accounted_tick]
  have hrem (id : UInt64) := accounted_periodic t now known (countdownsLive_iff.mp h id)
  exact ⟨fun hs hdue id => (hrem id).mp (hs id) hdue, fun hk id => (hrem id).mpr fun hdue => hk hdue id⟩

theorem countdownsLive_handle (h : p.CountdownsLive) (e : VSOEvent) :
    (p.handle t now e).1.CountdownsLive ↔ p.KeepsCountdowns t now e := by
  cases e with
  | insert id aoi isOwner =>
    exact iff_of_true (countdownsLive_iff.mpr (accounted_insert h id aoi isOwner)) trivial
  | update id aoi isOwner => exact iff_of_true (countdownsLive_iff.mpr (accounted_modify h id _)) trivial
  | delete id => exact countdownsLive_delete h id
  | transfer msg =>
    refine iff_of_true (countdownsLive_iff.mpr fun j => ?_) trivial
    rw [handle, slot_processTransfer]
    split
    · exact accounted_accept (countdownsLive_iff.mp h j) now
    · exact countdownsLive_iff.mp h j
  | ack id => exact iff_of_true (countdownsLive_iff.mpr (accounted_modify h id _)) trivial
  | disconnect peer => exact iff_of_true (countdownsLive_iff.mpr (accounted_disconnect h peer)) trivial
  | tick v known => exact countdownsLive_tick h v known
  | joined joined => exact iff_of_true h trivial

end VSOPeer

namespace VSOHistory

variable {t : VSOTiming} {h : VSOHistory} {t₀ now : Nat} {id : UInt64}

/-- Within a period after `t₀`, and the peer that manages the object does not depart. -/
def WithinPeriod (t : VSOTiming) (t₀ : Nat) (id : UInt64) (h : VSOHistory) (e : Nat × VSOEvent) : Prop :=
  match e.2 with
  | .tick _ _ => t₀ ≤ e.1 ∧ e.1 < t₀ + t.transfer
  | .disconnect peer => ∀ so, h.peer.objects[id]? = some so → so.closest ≠ peer
  | _ => True

/-- An object inserted anew has no countdown, and for a period no tick passes on or claims its
ownership. -/
def FreshStart (t : VSOTiming) (p : VSOPeer) : Prop :=
  ∀ (id : UInt64) (aoi : Area) (isOwner : Bool) (t₀ : Nat) (es : List (Nat × VSOEvent)),
    p.objects[id]? = none → (p.insertSharedObject t₀ id aoi isOwner).1.NoCountdown id ∧
      (StepRun.Along (step t) (WithinPeriod t t₀ id) ⟨(p.insertSharedObject t₀ id aoi isOwner).1, []⟩ es →
        ∀ out ∈ (es.foldl (step t) ⟨(p.insertSharedObject t₀ id aoi isOwner).1, []⟩).outs,
          out.changes ≠ some id)

theorem young_accept {due : Nat} {s : VSOSlot} (hs : Young due s) (now : Nat) :
    Young due (VSOPeer.acceptSlot now s) := by
  obtain ⟨_ | so, tt, rt⟩ := s
  · exact hs
  · exact ⟨fun o ho => Option.some.inj ho ▸ hs.inTransit so rfl, hs.transfer, fun d hd => nomatch hd⟩

theorem young_modify {due : Nat} {p : VSOPeer} (hs : Young due (p.slot id)) (i : UInt64)
    {f : VSOSharedObject → VSOSharedObject} (hf : ∀ so, so.inTransit = 0 → (f so).inTransit = 0) :
    Young due (VSOPeer.slot { p with objects := p.objects.modify i f } id) := by
  rw [VSOPeer.slot_modify]
  split
  · refine ⟨fun o ho => ?_, hs.transfer, hs.reclaim⟩
    obtain ⟨so, hso, rfl⟩ := Option.map_eq_some_iff.mp ho
    exact hf so (hs.inTransit so hso)
  · exact hs

theorem young_none {due : Nat} {s : VSOSlot} (hs : Young due s) : Young due (none, s.2) :=
  ⟨fun _ ho => (nomatch ho), hs.transfer, hs.reclaim⟩

theorem young_tick {p : VSOPeer} (hy : Young (t₀ + t.transfer) (p.slot id)) (hle : t₀ ≤ now)
    (hlt : now < t₀ + t.transfer) (v : VSOView) (known : UInt64 → Bool) :
    Young (t₀ + t.transfer) ((p.tick t v now known).1.slot id) := by
  have hper : Young (t₀ + t.transfer) ((p.periodic t now known).slot id) := by
    rcases VSOPeer.slot_periodic t now known p id with ⟨-, hp⟩ | ⟨-, hp⟩
    · rw [hp]
      exact young_none hy
    · rw [hp]
      exact hy
  have hcheck : Young (t₀ + t.transfer) (p.tickSlot t v now known id) := by
    rw [VSOPeer.tickSlot]
    split
    · rcases hs : (p.periodic t now known).slot id with ⟨_ | so, tt, rt⟩
      · rw [hs] at hper
        exact hper
      · rw [hs] at hper
        exact (Custody.young_check (c := ⟨so, tt, rt⟩) hper hlt (Nat.add_le_add_right hle _)).1
    · exact hper
  rw [VSOPeer.slot_tick]
  refine ⟨fun o ho => ?_, hcheck.transfer, hcheck.reclaim⟩
  obtain ⟨so, hso, rfl⟩ := Option.map_eq_some_iff.mp ho
  exact hcheck.inTransit so hso

theorem quiet_tick {p : VSOPeer} (hy : Young (t₀ + t.transfer) (p.slot id)) (hle : t₀ ≤ now)
    (hlt : now < t₀ + t.transfer) (v : VSOView) (known : UInt64 → Bool) :
    ∀ out ∈ (p.tick t v now known).2, out.changes ≠ some id := by
  intro out hout hch
  rcases VSOPeer.mem_tick hout with ⟨msg, rfl⟩ | ⟨j, c, -, hc, hmem⟩
  · cases hch
  · have hj : j = id := Option.some.inj ((Custody.changes_check hmem).symm.trans hch)
    subst hj
    rw [hc] at hy
    rw [(Custody.young_check hy hlt (Nat.add_le_add_right hle _)).2] at hmem
    cases hmem

theorem young_insert {p : VSOPeer} {due : Nat} (hy : Young due (p.slot id)) (i : UInt64) (aoi : Area)
    (isOwner : Bool) : Young due ((p.insertSharedObject now i aoi isOwner).1.slot id) := by
  have hnew : Young due (some { aoi, isOwner, lastUpdate := now }, (p.slot id).2) :=
    ⟨fun o ho => Option.some.inj ho ▸ rfl, hy.transfer, hy.reclaim⟩
  rw [VSOPeer.slot_insertSharedObject]
  split
  · split
    · exact hnew
    · exact young_accept hnew now
  · exact hy

theorem young_handle {p : VSOPeer} {e : VSOEvent} (hy : Young (t₀ + t.transfer) (p.slot id))
    (hw : WithinPeriod t t₀ id ⟨p, []⟩ (now, e)) : Young (t₀ + t.transfer) ((p.handle t now e).1.slot id) := by
  cases e with
  | insert i aoi isOwner => exact young_insert hy i aoi isOwner
  | update i aoi isOwner => exact young_modify hy i fun so hso => hso
  | delete i =>
    rw [VSOPeer.handle, VSOPeer.slot_deleteSharedObject]
    split
    · exact young_none hy
    · exact hy
  | transfer msg =>
    rw [VSOPeer.handle, VSOPeer.slot_processTransfer]
    split
    · exact young_accept hy now
    · exact hy
  | ack i => exact young_modify hy i fun _ _ => rfl
  | disconnect peer =>
    have hstay : ¬ p.objects[id]?.any (fun so => so.closest == peer) = true := by
      intro hany
      obtain ⟨so, hso, hc⟩ := (Option.any_eq_true ..).mp hany
      exact hw so hso (eq_of_beq hc)
    rw [VSOPeer.handle, VSOPeer.slot_handleDisconnect, if_neg hstay]
    exact hy
  | tick v known => exact young_tick hy hw.1 hw.2 v known
  | joined joined => exact hy

theorem quiet_run {es : List (Nat × VSOEvent)} {h : VSOHistory} (hy : Young (t₀ + t.transfer) (h.peer.slot id))
    (hw : StepRun.Along (step t) (WithinPeriod t t₀ id) h es) (hq : ∀ out ∈ h.outs, out.changes ≠ some id) :
    ∀ out ∈ (es.foldl (step t) h).outs, out.changes ≠ some id := by
  induction es generalizing h with
  | nil => exact hq
  | cons e es ih =>
    refine ih (young_handle hy hw.1) hw.2 fun out hout => ?_
    rcases List.mem_append.mp hout with hout | hout
    · exact hq out hout
    · by_cases he : ∃ v known, e.2 = .tick v known
      · obtain ⟨now, e⟩ := e
        obtain ⟨v, known, rfl⟩ := he
        exact quiet_tick hy hw.1.1 hw.1.2 v known out hout
      · rw [VSOPeer.changes_handle (fun v known hk => he ⟨v, known, hk⟩) out hout]
        exact fun hch => nomatch hch

theorem freshStart {p : VSOPeer} (hlive : p.CountdownsLive) : FreshStart t p := by
  intro id aoi isOwner t₀ es habs
  have hnone : p.slot id = (none, none, none) := Prod.ext habs (VSOPeer.countdownsLive_iff.mp hlive id habs)
  have hslot : ((p.insertSharedObject t₀ id aoi isOwner).1.slot id).2 = (none, none) := by
    rw [VSOPeer.slot_insertSharedObject, if_pos ⟨rfl, habs⟩]
    split
    · exact congrArg Prod.snd hnone
    · rw [hnone]
      rfl
  have hyoung : Young (t₀ + t.transfer) (p.slot id) := by
    rw [hnone]
    exact ⟨fun _ ho => (nomatch ho), fun _ hd => (nomatch hd), fun _ hd => nomatch hd⟩
  refine ⟨VSOPeer.accounted_none.mp fun _ => hslot, fun hw => ?_⟩
  refine quiet_run (young_insert hyoung id aoi isOwner) hw ?_
  exact fun _ hout => absurd hout List.not_mem_nil

/-- In every state that a peer without objects reaches, countdowns run only for objects that are
there and an object inserted anew starts afresh, exactly when no object with a running countdown
is removed. -/
theorem countdownsLive_always_iff (t : VSOTiming) (self : UInt64) (es : List (Nat × VSOEvent)) :
    StepRun.Always (step t) (fun h => h.peer.CountdownsLive ∧ FreshStart t h.peer) ⟨{ self }, []⟩ es ↔
      StepRun.Along (step t) (fun h e => h.peer.KeepsCountdowns t e.1 e.2) ⟨{ self }, []⟩ es := by
  have hstep (h : VSOHistory) (e : Nat × VSOEvent) (hh : h.peer.CountdownsLive ∧ FreshStart t h.peer) :
      ((h.step t e).peer.CountdownsLive ∧ FreshStart t (h.step t e).peer) ↔
        h.peer.KeepsCountdowns t e.1 e.2 :=
    (and_iff_left_of_imp freshStart).trans (VSOPeer.countdownsLive_handle hh.1 e.2)
  have hstart : VSOPeer.CountdownsLive { self } := fun id _ => by simp [VSOPeer.NoCountdown]
  rw [StepRun.always_iff_along hstep]
  exact and_iff_right ⟨hstart, freshStart hstart⟩

/-- An object outside the region is deleted while its transfer is being counted down, and inserted
again long after. -/
def returning : List (Nat × VSOEvent) :=
  [(1, .insert 7 beyond true), (1, .tick (.ofPartition halfPlane 1 2) (fun _ => true)), (2, .delete 7),
    (100, .insert 7 beyond true), (100, .tick (.ofPartition halfPlane 1 2) (fun _ => true))]

theorem returning_transferred : ¬ StepRun.Always (step tens)
    (fun h => h.peer.CountdownsLive ∧ FreshStart tens h.peer) ⟨{ self := 1 }, []⟩ returning := by
  intro h
  obtain ⟨-, hfresh⟩ := h (returning.take 3) (List.take_prefix 3 returning)
  obtain ⟨-, hquiet⟩ := hfresh 7 beyond true 100 (returning.drop 4) (by decide)
  have hch : (((returning.drop 4).foldl (step tens)
      ⟨(((returning.take 3).foldl (step tens) ⟨{ self := 1 }, []⟩).peer.insertSharedObject 100 7
        beyond true).1, []⟩).outs.filterMap VSOOutput.changes) = [7] := by decide
  obtain ⟨out, hout, hseven⟩ := List.mem_filterMap.mp (hch ▸ List.mem_singleton_self 7 : (7 : UInt64) ∈ _)
  exact hquiet ⟨⟨by decide, by decide⟩, trivial⟩ out hout hseven

end VSOHistory

end VastNC
