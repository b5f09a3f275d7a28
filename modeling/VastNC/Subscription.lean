import VastNC.Area
import VastNC.Lib.Tables

/-! `Vast::Subscription`, its record of visible neighbours, and the map of subscriptions that a
matcher keeps. -/

namespace VastNC

inductive NeighborUpdateStatus where
  | inserted
  | deleted
  | unchanged
  | updated
  deriving DecidableEq, Repr

structure Subscription where
  hostId : UInt64 := 0
  id : UInt64 := 0
  layer : UInt16 := 0
  aoi : Area := {}
  relay : Addr := {}
  dirty : Bool := false
  inRegion : Bool := false
  time : UInt64 := 0
  neighborStates : Std.ExtTreeMap UInt64 NeighborUpdateStatus := ∅
  neighbors : Std.ExtTreeMap UInt64 Area := ∅

namespace Subscription

/-- `differs` is `Area::operator!=`. -/
def addNeighbor (differs : Area → Area → Bool) (s neighbor : Subscription) : Subscription :=
  match s.neighbors[neighbor.id]? with
  | some aoi =>
    if differs aoi neighbor.aoi then
      { s with
        neighborStates := s.neighborStates.insert neighbor.id .updated
        neighbors := s.neighbors.insert neighbor.id neighbor.aoi }
    else { s with neighborStates := s.neighborStates.insert neighbor.id .unchanged }
  | none =>
    { s with
      neighborStates := s.neighborStates.insert neighbor.id .inserted
      neighbors := s.neighbors.insert neighbor.id neighbor.aoi }

def dropNeighbor (s : Subscription) (id : UInt64) : Subscription :=
  { s with
    neighbors := s.neighbors.erase id
    neighborStates := s.neighborStates.insert id .deleted }

def clearInvisibleNeighbors (s : Subscription) : Subscription :=
  (s.neighbors.keys.filter (fun id => !s.neighborStates.contains id)).foldl dropNeighbor s

def clearStates (s : Subscription) : Subscription := { s with neighborStates := ∅, inRegion := false }

/-- The area that `addNeighbor` leaves in the record: an area that compares equal stays. -/
def recordedArea (differs : Area → Area → Bool) (old : Option Area) (aoi : Area) : Area :=
  match old with
  | some a => if differs a aoi then aoi else a
  | none => aoi

def recordedStatus (differs : Area → Area → Bool) (old : Option Area) (aoi : Area) :
    NeighborUpdateStatus :=
  match old with
  | some a => if differs a aoi then .updated else .unchanged
  | none => .inserted

section Record

variable {differs : Area → Area → Bool} {s t : Subscription}

theorem addNeighbor_eq (differs : Area → Area → Bool) (s t : Subscription) :
    ∃ neighborStates neighbors, s.addNeighbor differs t = { s with neighborStates, neighbors } := by
  rw [addNeighbor]
  split
  · split
    · exact ⟨_, _, rfl⟩
    · exact ⟨_, s.neighbors, rfl⟩
  · exact ⟨_, _, rfl⟩

theorem neighbors_addNeighbor (k : UInt64) : (s.addNeighbor differs t).neighbors[k]? =
    if t.id = k then some (recordedArea differs s.neighbors[t.id]? t.aoi) else s.neighbors[k]? := by
  rw [addNeighbor]
  cases h : s.neighbors[t.id]? with
  | none => simp [Std.ExtTreeMap.getElem?_insert, recordedArea]
  | some a =>
    by_cases hd : differs a t.aoi = true
    · simp [Std.ExtTreeMap.getElem?_insert, recordedArea, hd]
    · by_cases hk : t.id = k
      · subst hk
        simp [recordedArea, hd, h]
      · simp [hd, hk]

theorem states_addNeighbor (k : UInt64) : (s.addNeighbor differs t).neighborStates[k]? =
    if t.id = k then some (recordedStatus differs s.neighbors[t.id]? t.aoi)
    else s.neighborStates[k]? := by
  rw [addNeighbor]
  cases h : s.neighbors[t.id]? with
  | none => simp [Std.ExtTreeMap.getElem?_insert, recordedStatus]
  | some a =>
    by_cases hd : differs a t.aoi = true
    · simp [Std.ExtTreeMap.getElem?_insert, recordedStatus, hd]
    · simp [Std.ExtTreeMap.getElem?_insert, recordedStatus, hd]

theorem foldl_dropNeighbor (l : List UInt64) (s : Subscription) :
    ∃ neighborStates neighbors, l.foldl dropNeighbor s = { s with neighborStates, neighbors } ∧
      (∀ k : UInt64, neighbors[k]? = if k ∈ l then none else s.neighbors[k]?) ∧
      ∀ k : UInt64, neighborStates[k]? = if k ∈ l then some .deleted else s.neighborStates[k]? := by
  induction l generalizing s with
  | nil => exact ⟨s.neighborStates, s.neighbors, rfl, by simp, by simp⟩
  | cons id l ih =>
    obtain ⟨states, neighbors, he, hn, hs⟩ := ih (s.dropNeighbor id)
    refine ⟨states, neighbors, he, fun k => ?_, fun k => ?_⟩
    · rw [hn, dropNeighbor, Std.ExtTreeMap.getElem?_erase]
      by_cases hk : id = k
      · simp [hk]
      · simp [hk, Ne.symm hk]
    · rw [hs, dropNeighbor, Std.ExtTreeMap.getElem?_insert]
      by_cases hk : id = k
      · simp [hk]
      · simp [hk, Ne.symm hk]

theorem clearInvisibleNeighbors_spec (s : Subscription) :
    ∃ neighborStates neighbors, s.clearInvisibleNeighbors = { s with neighborStates, neighbors } ∧
      (∀ k : UInt64, neighbors[k]? = if s.neighborStates[k]? = none then none else s.neighbors[k]?) ∧
      ∀ k : UInt64, neighborStates[k]? = if s.neighborStates[k]? = none ∧ s.neighbors[k]? ≠ none then
        some .deleted else s.neighborStates[k]? := by
  obtain ⟨states, neighbors, he, hn, hs⟩ := foldl_dropNeighbor
    (s.neighbors.keys.filter (fun id => !s.neighborStates.contains id)) s
  have hmem (k : UInt64) : k ∈ s.neighbors.keys.filter (fun id => !s.neighborStates.contains id) ↔
      s.neighbors[k]? ≠ none ∧ s.neighborStates[k]? = none := by
    rw [List.mem_filter, Std.ExtTreeMap.mem_keys, Std.ExtTreeMap.mem_iff_isSome_getElem?,
      Std.ExtTreeMap.contains_eq_isSome_getElem?, Option.isSome_iff_ne_none]
    cases s.neighborStates[k]? <;> simp
  refine ⟨states, neighbors, he, fun k => ?_, fun k => ?_⟩
  · simp only [hn, hmem]
    by_cases h : s.neighborStates[k]? = none
    · by_cases hk : s.neighbors[k]? = none
      · simp [h, hk]
      · simp [h, hk]
    · simp [h]
  · simp only [hs, hmem, and_comm]

end Record

end Subscription

/-- `_subscriptions`: every subscription stands under its own id. -/
structure Subscriptions where
  table : Std.ExtTreeMap UInt64 Subscription
  keyed : ∀ (id : UInt64) (s : Subscription), table[id]? = some s → s.id = id

namespace Subscriptions

def empty : Subscriptions := ⟨∅, by simp⟩

def find (m : Subscriptions) (id : UInt64) : Option Subscription := m.table[id]?

def insert (m : Subscriptions) (s : Subscription) : Subscriptions where
  table := m.table.insert s.id s
  keyed id t h := by
    rw [Std.ExtTreeMap.getElem?_insert] at h
    split at h
    · rename_i he
      rw [← Option.some.inj h]
      exact Std.compare_eq_iff_eq.mp he
    · exact m.keyed id t h

def erase (m : Subscriptions) (id : UInt64) : Subscriptions where
  table := m.table.erase id
  keyed k t h := by
    rw [Std.ExtTreeMap.getElem?_erase] at h
    split at h
    · cases h
    · exact m.keyed k t h

def entries (m : Subscriptions) : List Subscription := m.table.toList.map Prod.snd

def ofEntries (l : List Subscription) : Subscriptions := l.foldl insert empty

theorem find_insert (m : Subscriptions) (s : Subscription) (k : UInt64) :
    (m.insert s).find k = if s.id = k then some s else m.find k := by
  simp [find, insert, Std.ExtTreeMap.getElem?_insert]

theorem find_erase (m : Subscriptions) (id k : UInt64) :
    (m.erase id).find k = if id = k then none else m.find k := by
  simp [find, erase, Std.ExtTreeMap.getElem?_erase]

theorem mem_entries {m : Subscriptions} {s : Subscription} : s ∈ m.entries ↔ m.find s.id = some s := by
  simp only [entries, List.mem_map, Prod.exists, exists_eq_right,
    Std.ExtTreeMap.mem_toList_iff_getElem?_eq_some, find]
  constructor
  · rintro ⟨id, h⟩
    rwa [m.keyed id s h]
  · intro h
    exact ⟨s.id, h⟩

theorem nodup_ids (m : Subscriptions) : (m.entries.map Subscription.id).Nodup := by
  have hids : m.entries.map Subscription.id = m.table.toList.map Prod.fst := by
    rw [entries, List.map_map]
    apply List.map_congr_left
    rintro ⟨id, s⟩ h
    exact m.keyed id s (Std.ExtTreeMap.mem_toList_iff_getElem?_eq_some.mp h)
  rw [hids]
  exact Tables.nodup_keys m.table

theorem find_foldl_insert {l : List Subscription} (hl : (l.map Subscription.id).Nodup)
    (m : Subscriptions) (k : UInt64) : (∀ s ∈ l, s.id = k → (l.foldl insert m).find k = some s) ∧
      ((∀ s ∈ l, s.id ≠ k) → (l.foldl insert m).find k = m.find k) := by
  induction l generalizing m with
  | nil => simp
  | cons t l ih =>
    rw [List.map_cons, List.nodup_cons] at hl
    obtain ⟨hin, hout⟩ := ih hl.2 (m.insert t)
    refine ⟨fun s hs hk => ?_, fun h => ?_⟩
    · rcases List.mem_cons.mp hs with rfl | hs
      · have hnot : ∀ u ∈ l, u.id ≠ k := fun u hu he =>
          hl.1 (List.mem_map.mpr ⟨u, hu, he.trans hk.symm⟩)
        rw [List.foldl_cons, hout hnot, find_insert, if_pos hk]
      · exact hin s hs hk
    · rw [List.foldl_cons, hout (fun s hs => h s (List.mem_cons_of_mem _ hs)), find_insert,
        if_neg (h t List.mem_cons_self)]

theorem find_ofEntries {l : List Subscription} (hl : (l.map Subscription.id).Nodup) {s : Subscription}
    (hs : s ∈ l) : (ofEntries l).find s.id = some s := (find_foldl_insert hl empty s.id).1 s hs rfl

theorem find_ofEntries_none {l : List Subscription} (hl : (l.map Subscription.id).Nodup) {k : UInt64}
    (h : ∀ s ∈ l, s.id ≠ k) : (ofEntries l).find k = none := by
  rw [ofEntries, (find_foldl_insert hl empty k).2 h]
  simp [find, empty]

theorem mem_entries_ofEntries {l : List Subscription} (hl : (l.map Subscription.id).Nodup)
    {s : Subscription} : s ∈ (ofEntries l).entries ↔ s ∈ l := by
  rw [mem_entries]
  constructor
  · intro h
    by_contra hnot
    by_cases he : ∃ t ∈ l, t.id = s.id
    · obtain ⟨t, ht, hid⟩ := he
      have hfind := find_ofEntries hl ht
      rw [hid, h, Option.some.injEq] at hfind
      rw [hfind] at hnot
      exact hnot ht
    · rw [find_ofEntries_none hl (fun t ht hid => he ⟨t, ht, hid⟩)] at h
      cases h
  · intro h
    exact find_ofEntries hl h

theorem length_entries_ofEntries {l : List Subscription} (hl : (l.map Subscription.id).Nodup) :
    (ofEntries l).entries.length = l.length := by
  have hperm : (ofEntries l).entries.Perm l :=
    (List.perm_ext_iff_of_nodup (ofEntries l).nodup_ids.of_map hl.of_map).mpr
      (fun _ => mem_entries_ofEntries hl)
  exact hperm.length_eq

end Subscriptions

end VastNC
