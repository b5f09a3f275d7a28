import VastNC.Subscription
import VastNC.Lib.PairScan

/-! `VASTMatcher::refreshSubscriptionNeighbors`. One pass over the pairs of subscriptions
updates both ends of each pair, and the neighbours that were not met again are dropped while
the pass goes on. -/

namespace VastNC

open PairScan Subscription

/-- What the pass asks of its surroundings: `Area::overlaps`, `Voronoi::contains` for the own
region, `Area::operator!=` and `VSOPeer::isOwner`. -/
structure Vision where
  overlaps : Area → Position → Bool
  contains : Position → Bool
  differs : Area → Area → Bool
  isOwner : UInt64 → Bool

namespace Vision

variable (v : Vision)

def prepare (s : Subscription) : Subscription :=
  { s.clearStates with inRegion := v.contains s.aoi.center }

def covers (s t : Subscription) : Bool :=
  s.layer == 0 && t.inRegion || s.layer == t.layer && v.overlaps s.aoi t.aoi.center

def sees (s t : Subscription) : Bool := v.isOwner s.id && v.covers s t

/-- One direction of the test of a pair. -/
def meet (s t : Subscription) : Subscription := if v.sees s t then s.addNeighbor v.differs t else s

/-- The subscription itself is added before the others are cleared. -/
def close (s : Subscription) : Subscription := (s.addNeighbor v.differs s).clearInvisibleNeighbors

def refreshEntries (l : List Subscription) : List Subscription :=
  scan v.meet v.close l.length (l.map v.prepare)

def refreshSubscriptionNeighbors (m : Subscriptions) : Subscriptions :=
  .ofEntries (v.refreshEntries m.entries)

/-- The plain definition of a neighbour. -/
def Visible (s t : Subscription) : Prop :=
  t.id = s.id ∨ v.isOwner s.id = true ∧ (s.layer = 0 ∧ v.contains t.aoi.center = true ∨
    s.layer = t.layer ∧ v.overlaps s.aoi t.aoi.center = true)

structure Refreshed (m : Subscriptions) (s s' : Subscription) : Prop where
  frame : ∃ inRegion neighborStates neighbors, s' = { s with inRegion, neighborStates, neighbors }
  visible : ∀ t, m.find t.id = some t → v.Visible s t →
    s'.neighbors[t.id]? = some (recordedArea v.differs s.neighbors[t.id]? t.aoi) ∧
      s'.neighborStates[t.id]? = some (recordedStatus v.differs s.neighbors[t.id]? t.aoi)
  invisible : ∀ k : UInt64, (∀ t, m.find k = some t → ¬ v.Visible s t) → s'.neighbors[k]? = none ∧
    s'.neighborStates[k]? = if s.neighbors[k]? = none then none else some .deleted

variable {v}

theorem meet_eq (s t : Subscription) :
    ∃ neighborStates neighbors, v.meet s t = { s with neighborStates, neighbors } := by
  rw [meet]
  split
  · exact addNeighbor_eq v.differs s t
  · exact ⟨s.neighborStates, s.neighbors, rfl⟩

theorem meet_meet (a b c : Subscription) : v.meet a (v.meet b c) = v.meet a b := by
  obtain ⟨states, neighbors, h⟩ := meet_eq (v := v) b c
  rw [h]
  rfl

theorem refreshEntries_eq (l : List Subscription) : v.refreshEntries l =
    mapOthers (fun a others => v.close (others.foldl v.meet a)) [] (l.map v.prepare) := by
  rw [refreshEntries, ← List.length_map (f := v.prepare), scan_eq_mapOthers meet_meet]

section Element

variable {s t : Subscription} {others : List Subscription}

theorem sees_meet (s u t : Subscription) : v.sees (v.meet s u) t = v.sees s t := by
  obtain ⟨states, neighbors, h⟩ := meet_eq (v := v) s u
  rw [h]
  rfl

theorem neighbors_meet (k : UInt64) : (v.meet s t).neighbors[k]? =
    if v.sees s t = true ∧ t.id = k then some (recordedArea v.differs s.neighbors[t.id]? t.aoi)
    else s.neighbors[k]? := by
  rw [meet]
  by_cases h : v.sees s t = true
  · simp only [h, if_true, true_and, neighbors_addNeighbor]
  · simp [h]

theorem states_meet (k : UInt64) : (v.meet s t).neighborStates[k]? =
    if v.sees s t = true ∧ t.id = k then some (recordedStatus v.differs s.neighbors[t.id]? t.aoi)
    else s.neighborStates[k]? := by
  rw [meet]
  by_cases h : v.sees s t = true
  · simp only [h, if_true, true_and, states_addNeighbor]
  · simp [h]

theorem foldl_meet_eq (others : List Subscription) (s : Subscription) :
    ∃ neighborStates neighbors, others.foldl v.meet s = { s with neighborStates, neighbors } := by
  induction others generalizing s with
  | nil => exact ⟨s.neighborStates, s.neighbors, rfl⟩
  | cons u others ih =>
    obtain ⟨states₁, neighbors₁, h₁⟩ := meet_eq (v := v) s u
    obtain ⟨states, neighbors, h⟩ := ih (v.meet s u)
    rw [List.foldl_cons, h, h₁]
    exact ⟨states, neighbors, rfl⟩

theorem foldl_meet_unseen {k : UInt64} (h : ∀ t ∈ others, t.id = k → v.sees s t = false) :
    (others.foldl v.meet s).neighbors[k]? = s.neighbors[k]? ∧
      (others.foldl v.meet s).neighborStates[k]? = s.neighborStates[k]? := by
  induction others generalizing s with
  | nil => exact ⟨rfl, rfl⟩
  | cons u others ih =>
    have hu : ¬ (v.sees s u = true ∧ u.id = k) := by
      rintro ⟨hsee, hk⟩
      rw [h u List.mem_cons_self hk] at hsee
      cases hsee
    have hrest : ∀ t ∈ others, t.id = k → v.sees (v.meet s u) t = false := fun t ht hk => by
      rw [sees_meet, h t (List.mem_cons_of_mem _ ht) hk]
    rw [List.foldl_cons, (ih hrest).1, (ih hrest).2, neighbors_meet, states_meet, if_neg hu, if_neg hu]
    exact ⟨rfl, rfl⟩

theorem foldl_meet_seen (hl : (others.map Subscription.id).Nodup) (ht : t ∈ others)
    (hsee : v.sees s t = true) : (others.foldl v.meet s).neighbors[t.id]? =
        some (recordedArea v.differs s.neighbors[t.id]? t.aoi) ∧
      (others.foldl v.meet s).neighborStates[t.id]? =
        some (recordedStatus v.differs s.neighbors[t.id]? t.aoi) := by
  induction others generalizing s with
  | nil => cases ht
  | cons u others ih =>
    rw [List.map_cons, List.nodup_cons] at hl
    rw [List.foldl_cons]
    rcases List.mem_cons.mp ht with rfl | ht
    · obtain ⟨hn, hs⟩ := foldl_meet_unseen (v := v) (s := v.meet s t) (k := t.id)
        (fun w hw he => absurd (List.mem_map.mpr ⟨w, hw, he⟩) hl.1)
      rw [hn, hs, neighbors_meet, states_meet, if_pos ⟨hsee, rfl⟩, if_pos ⟨hsee, rfl⟩]
      exact ⟨rfl, rfl⟩
    · have hne : ¬ (v.sees s u = true ∧ u.id = t.id) := fun h =>
        hl.1 (List.mem_map.mpr ⟨t, ht, h.2.symm⟩)
      obtain ⟨hn, hs⟩ := ih hl.2 ht (s := v.meet s u) (by rwa [sees_meet])
      rw [hn, hs, neighbors_meet, if_neg hne]
      exact ⟨rfl, rfl⟩

theorem close_eq (s : Subscription) :
    ∃ neighborStates neighbors, v.close s = { s with neighborStates, neighbors } := by
  obtain ⟨states₁, neighbors₁, h₁⟩ := addNeighbor_eq v.differs s s
  obtain ⟨states, neighbors, h, -, -⟩ := clearInvisibleNeighbors_spec (s.addNeighbor v.differs s)
  rw [close, h, h₁]
  exact ⟨states, neighbors, rfl⟩

theorem close_self (s : Subscription) : (v.close s).neighbors[s.id]? =
      some (recordedArea v.differs s.neighbors[s.id]? s.aoi) ∧
    (v.close s).neighborStates[s.id]? = some (recordedStatus v.differs s.neighbors[s.id]? s.aoi) := by
  obtain ⟨states, neighbors, h, hn, hs⟩ := clearInvisibleNeighbors_spec (s.addNeighbor v.differs s)
  rw [close, h]
  simp [hn, hs, neighbors_addNeighbor, states_addNeighbor]

theorem close_other {k : UInt64} (hk : s.id ≠ k) :
    (v.close s).neighbors[k]? = (if s.neighborStates[k]? = none then none else s.neighbors[k]?) ∧
      (v.close s).neighborStates[k]? = if s.neighborStates[k]? = none ∧ s.neighbors[k]? ≠ none then
        some .deleted else s.neighborStates[k]? := by
  obtain ⟨states, neighbors, h, hn, hs⟩ := clearInvisibleNeighbors_spec (s.addNeighbor v.differs s)
  rw [close, h]
  simp [hn, hs, neighbors_addNeighbor, states_addNeighbor, hk]

end Element

section Pass

variable {m : Subscriptions} {s : Subscription} {l₁ l₂ : List Subscription}

theorem sees_prepare {t : Subscription} (hne : t.id ≠ s.id) :
    v.sees (v.prepare s) (v.prepare t) = true ↔ v.Visible s t := by
  simp [sees, covers, prepare, clearStates, Visible, hne]

theorem map_id_prepare (l : List Subscription) :
    (l.map v.prepare).map Subscription.id = l.map Subscription.id := by
  rw [List.map_map]
  rfl

theorem others_of_entries (he : m.entries = l₁ ++ s :: l₂) :
    ((l₁ ++ l₂).map Subscription.id).Nodup ∧ ∀ t ∈ l₁ ++ l₂, t.id ≠ s.id := by
  have hp : m.entries.Perm (s :: (l₁ ++ l₂)) := he ▸ List.perm_middle
  have hnd := (hp.map Subscription.id).nodup_iff.mp m.nodup_ids
  rw [List.map_cons, List.nodup_cons] at hnd
  exact ⟨hnd.2, fun t ht h => hnd.1 (List.mem_map.mpr ⟨t, ht, h⟩)⟩

/-- The other subscriptions that `s` meets have all been met when `s` is closed. -/
theorem refreshed_element (he : m.entries = l₁ ++ s :: l₂) :
    v.Refreshed m s (v.close (((l₁ ++ l₂).map v.prepare).foldl v.meet (v.prepare s))) := by
  obtain ⟨hnd, hne⟩ := others_of_entries he
  have hmem (t : Subscription) : m.find t.id = some t ↔ t = s ∨ t ∈ l₁ ++ l₂ := by
    rw [← Subscriptions.mem_entries, he]
    simp only [List.mem_append, List.mem_cons]
    tauto
  have hseen (t : Subscription) (ht : t ∈ l₁ ++ l₂) (hv : v.Visible s t) :
      (((l₁ ++ l₂).map v.prepare).foldl v.meet (v.prepare s)).neighbors[t.id]? =
          some (recordedArea v.differs s.neighbors[t.id]? t.aoi) ∧
        (((l₁ ++ l₂).map v.prepare).foldl v.meet (v.prepare s)).neighborStates[t.id]? =
          some (recordedStatus v.differs s.neighbors[t.id]? t.aoi) :=
    foldl_meet_seen (v := v) (s := v.prepare s) (t := v.prepare t) (by rwa [map_id_prepare])
      (List.mem_map_of_mem (f := v.prepare) ht) ((sees_prepare (hne t ht)).mpr hv)
  have hunseen (k : UInt64) (hk : ∀ t ∈ l₁ ++ l₂, t.id = k → ¬ v.Visible s t) :
      (((l₁ ++ l₂).map v.prepare).foldl v.meet (v.prepare s)).neighbors[k]? = s.neighbors[k]? ∧
        (((l₁ ++ l₂).map v.prepare).foldl v.meet (v.prepare s)).neighborStates[k]? = none := by
    have hsees (u : Subscription) (hu : u ∈ (l₁ ++ l₂).map v.prepare) (hid : u.id = k) :
        v.sees (v.prepare s) u = false := by
      obtain ⟨t, ht, rfl⟩ := List.mem_map.mp hu
      rw [← Bool.not_eq_true, sees_prepare (hne t ht)]
      exact hk t ht hid
    obtain ⟨hn, hs⟩ := foldl_meet_unseen hsees
    rw [hn, hs]
    simp [prepare, clearStates]
  obtain ⟨states, neighbors, hfold⟩ := foldl_meet_eq (v := v) ((l₁ ++ l₂).map v.prepare) (v.prepare s)
  have hid : (((l₁ ++ l₂).map v.prepare).foldl v.meet (v.prepare s)).id = s.id := by rw [hfold]; rfl
  have haoi : (((l₁ ++ l₂).map v.prepare).foldl v.meet (v.prepare s)).aoi = s.aoi := by rw [hfold]; rfl
  refine ⟨?_, fun t ht hv => ?_, fun k hk => ?_⟩
  · obtain ⟨states', neighbors', hclose⟩ := close_eq (v := v)
      (((l₁ ++ l₂).map v.prepare).foldl v.meet (v.prepare s))
    rw [hclose, hfold]
    exact ⟨v.contains s.aoi.center, states', neighbors', rfl⟩
  · rcases (hmem t).mp ht with rfl | ht
    · have hself := close_self (v := v) (((l₁ ++ l₂).map v.prepare).foldl v.meet (v.prepare t))
      rwa [hid, haoi, (hunseen t.id (fun u hu h => absurd h (hne u hu))).1] at hself
    · obtain ⟨hn, hs⟩ := hseen t ht hv
      have hother := close_other (v := v) (k := t.id) (hid.trans_ne (hne t ht).symm)
      rw [hn, hs] at hother
      simpa using hother
  · have hk' : s.id ≠ k := fun h => hk s (h ▸ (hmem s).mpr (.inl rfl)) (.inl rfl)
    obtain ⟨hn, hs⟩ := hunseen k (fun t ht h => hk t (h ▸ (hmem t).mpr (.inr ht)))
    have hother := close_other (v := v) (hid.trans_ne hk')
    rw [hn, hs] at hother
    by_cases ho : s.neighbors[k]? = none
    · simpa [ho] using hother
    · simpa [ho] using hother

theorem map_id_refreshEntries (l : List Subscription) :
    (v.refreshEntries l).map Subscription.id = l.map Subscription.id := by
  rw [refreshEntries_eq, map_mapOthers Subscription.id Subscription.id, map_id_prepare]
  intro a others
  obtain ⟨states, neighbors, hclose⟩ := close_eq (v := v) (others.foldl v.meet a)
  obtain ⟨states', neighbors', hfold⟩ := foldl_meet_eq (v := v) others a
  rw [hclose, hfold]

theorem mem_refreshEntries (he : m.entries = l₁ ++ s :: l₂) :
    v.close (((l₁ ++ l₂).map v.prepare).foldl v.meet (v.prepare s)) ∈ v.refreshEntries m.entries := by
  rw [refreshEntries_eq, mem_mapOthers]
  exact ⟨l₁.map v.prepare, v.prepare s, l₂.map v.prepare, by rw [he, List.map_append, List.map_cons],
    by rw [List.nil_append, List.map_append]⟩

/-- The pass equals the plain definition of neighbours and of the changes since the last pass,
where a kept neighbour whose area compares equal keeps the recorded area. -/
theorem refreshSubscriptionNeighbors_spec (v : Vision) (m : Subscriptions) (k : UInt64) :
    match m.find k with
    | some s => ∃ s', (v.refreshSubscriptionNeighbors m).find k = some s' ∧ v.Refreshed m s s'
    | none => (v.refreshSubscriptionNeighbors m).find k = none := by
  have hnd : ((v.refreshEntries m.entries).map Subscription.id).Nodup := by
    rw [map_id_refreshEntries]
    exact m.nodup_ids
  cases hs : m.find k with
  | none =>
    refine Subscriptions.find_ofEntries_none hnd (fun t ht h => ?_)
    have hid := List.mem_map_of_mem (f := Subscription.id) ht
    rw [map_id_refreshEntries, h] at hid
    obtain ⟨u, hu, rfl⟩ := List.mem_map.mp hid
    rw [Subscriptions.mem_entries.mp hu] at hs
    cases hs
  | some s =>
    obtain rfl : s.id = k := m.keyed k s hs
    obtain ⟨l₁, l₂, he⟩ := List.append_of_mem (Subscriptions.mem_entries.mpr hs)
    have href := refreshed_element (v := v) he
    refine ⟨_, ?_, href⟩
    have hfind := Subscriptions.find_ofEntries hnd (mem_refreshEntries (v := v) he)
    obtain ⟨inRegion, states, neighbors, hframe⟩ := href.frame
    rw [hframe] at hfind ⊢
    exact hfind

end Pass

def wide : Vision := ⟨fun _ _ => true, fun _ => true, Area.differs, fun _ => true⟩

/-- A subscription at -0, recorded at +0. -/
def atNegativeZero : Subscription :=
  { id := 1, aoi := { center := { x := ⟨0x80000000⟩ } }
    neighbors := (∅ : Std.ExtTreeMap UInt64 Area).insert 1 {} }

/-- The two zeros compare equal, so the record keeps the area of before. -/
theorem refresh_keeps_recorded_zero :
    (Subscriptions.empty.insert atNegativeZero).find 1 = some atNegativeZero ∧
      wide.Visible atNegativeZero atNegativeZero ∧
      ((wide.refreshSubscriptionNeighbors (Subscriptions.empty.insert atNegativeZero)).find 1).map
        (fun s => s.neighbors[(1 : UInt64)]?) = some (some {}) ∧
      ({} : Area) ≠ atNegativeZero.aoi :=
  ⟨rfl, .inl rfl, rfl, by decide⟩

end Vision

end VastNC
