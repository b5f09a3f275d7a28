import VastNC.ClockSync
import VastNC.ReportedNeighbors

/-! `removeGhosts` over runs of a client: whom it takes for a ghost while the clock is adjusted between the
reports. -/

namespace VastNC

namespace ClientNeighbors

variable {c : ClientNeighbors} {id now timeout : UInt64}

theorem knows_iff : c.knows id = true ↔ id ∈ c.neighbors.nodes.map Node.id := by
  rw [← not_iff_not, ← NeighborList.find_eq_none, knows, Bool.not_eq_true, Option.isSome_eq_false_iff,
    Option.isNone_iff_eq_none]

theorem mem_ghosts : id ∈ c.ghosts now timeout ↔
    c.knows id = true ∧ timeout ≤ now - c.lastUpdate[id]?.getD 0 := by
  rw [ghosts, List.mem_filter, ← knows_iff]
  simp

@[simp] theorem neighbors_touch (c : ClientNeighbors) (id : UInt64) :
    (c.touch id).neighbors = c.neighbors := by
  rw [touch]
  split <;> rfl

theorem knows_removeNeighbor (c : ClientNeighbors) (k id : UInt64) :
    (c.removeNeighbor k).knows id = (c.knows id && k != id) :=
  @knows_apply c id 0 (.deleted k) (by simp)

def dropGhost (subId : UInt64) (c : ClientNeighbors) (id : UInt64) : ClientNeighbors :=
  (if id = subId then c else c.removeNeighbor id).touch id

theorem knows_dropGhost (subId : UInt64) (c : ClientNeighbors) (k id : UInt64) :
    (c.dropGhost subId k).knows id = true ↔ c.knows id = true ∧ ¬ (k = id ∧ k ≠ subId) := by
  have htouch (c : ClientNeighbors) : (c.touch k).knows id = c.knows id := by
    rw [knows, neighbors_touch, knows]
  rw [dropGhost, htouch]
  by_cases hs : k = subId
  · simp [hs]
  · simp [hs, knows_removeNeighbor]

theorem knows_dropGhosts (subId : UInt64) (gs : List UInt64) (c : ClientNeighbors) (id : UInt64) :
    (gs.foldl (dropGhost subId) c).knows id = true ↔ c.knows id = true ∧ ¬ (id ∈ gs ∧ id ≠ subId) := by
  induction gs generalizing c with
  | nil => simp
  | cons g gs ih =>
    rw [List.foldl_cons, ih, knows_dropGhost]
    grind

theorem heard_touch {v : UInt64} (h : c.lastUpdate[id]? = some v) (k : UInt64) :
    (c.touch k).lastUpdate[id]? = some v := by
  by_cases hk : k ∈ c.lastUpdate
  · rwa [touch, if_pos hk]
  · have hne : k ≠ id := by
      rintro rfl
      exact hk (Std.ExtTreeMap.mem_iff_isSome_getElem?.mpr (by rw [h]; rfl))
    rw [touch, if_neg hk]
    simp [Std.ExtTreeMap.getElem?_insert, hne, h]

theorem heard_removeNeighbor {v k : UInt64} (h : c.lastUpdate[id]? = some v) (hk : k ≠ id) :
    (c.removeNeighbor k).lastUpdate[id]? = some v := by
  rw [removeNeighbor]
  split
  · exact h
  · simp [Std.ExtTreeMap.getElem?_erase, hk, h]

theorem heard_dropGhosts {v subId : UInt64} {gs : List UInt64} (h : c.lastUpdate[id]? = some v)
    (hkept : ¬ (id ∈ gs ∧ id ≠ subId)) : (gs.foldl (dropGhost subId) c).lastUpdate[id]? = some v := by
  induction gs generalizing c with
  | nil => exact h
  | cons g gs ih =>
    have hrest : ¬ (id ∈ gs ∧ id ≠ subId) := fun hmem => hkept ⟨List.mem_cons_of_mem g hmem.1, hmem.2⟩
    refine ih ?_ hrest
    rw [dropGhost]
    split
    · exact heard_touch h g
    · rename_i hg
      have hne : g ≠ id := by
        rintro rfl
        exact hkept ⟨List.mem_cons_self, hg⟩
      exact heard_touch (heard_removeNeighbor h hne) g

theorem removeGhosts_eq (c : ClientNeighbors) (subId now timeout : UInt64) :
    c.removeGhosts subId now timeout =
      (c.ghosts now timeout).foldl (dropGhost subId) ((c.neighbors.nodes.map Node.id).foldl touch c) := rfl

theorem foldl_touch (ids : List UInt64) (c : ClientNeighbors) :
    (ids.foldl touch c).neighbors = c.neighbors ∧
      ∀ id v : UInt64, c.lastUpdate[id]? = some v → (ids.foldl touch c).lastUpdate[id]? = some v := by
  induction ids generalizing c with
  | nil => exact ⟨rfl, fun _ _ h => h⟩
  | cons k ids ih =>
    obtain ⟨hn, hv⟩ := ih (c.touch k)
    exact ⟨hn.trans (neighbors_touch c k), fun id v h => hv id v (heard_touch h k)⟩

theorem knows_removeGhosts (c : ClientNeighbors) (subId now timeout id : UInt64) :
    (c.removeGhosts subId now timeout).knows id = true ↔
      c.knows id = true ∧ ¬ (id ∈ c.ghosts now timeout ∧ id ≠ subId) := by
  rw [removeGhosts_eq, knows_dropGhosts, knows, (foldl_touch _ c).1]
  rfl

theorem heard_removeGhosts {v subId : UInt64} (hk : (c.removeGhosts subId now timeout).knows id = true)
    (h : c.lastUpdate[id]? = some v) : (c.removeGhosts subId now timeout).lastUpdate[id]? = some v :=
  heard_dropGhosts ((foldl_touch _ c).2 id v h) ((knows_removeGhosts c subId now timeout id).mp hk).2

end ClientNeighbors

/-- When an id was last reported: the local time, and the adjustment of the clock then. -/
structure LastReport where
  clock : Nat
  adjust : Int32
  deriving DecidableEq

/-- A client with its own clock, which only goes forward. `reports` is a history. -/
structure WatchingClient where
  client : AreaClient
  table : ClientNeighbors := { neighbors := ⟨[], List.nodup_nil⟩ }
  absent : Bool := true
  matcherId : UInt64 := netIdUnassigned
  closestId : UInt64 := netIdUnassigned
  timeoutSubscribe : UInt64 := 0
  nextPeriodic : UInt64 := 0
  sec2timestamp : UInt64
  msPerTimestep : Int
  clock : Nat := 0
  reports : UInt64 → Option LastReport := fun _ => none

inductive WatchEvent where
  | tick (time : Nat)
  | neighbor (entries : List NeighborChange)
  | subscribed (subNo matcher : UInt64)
  | syncClock (sent gateway : UInt64)
  | matcherLost
  | relayLost
  | join
  | leave
  | postHandling

def NeighborChange.reportedId : NeighborChange → Option UInt64
  | .inserted _ node => some node.id
  | .deleted _ => none
  | .unchanged id => some id
  | .updated id _ _ => some id

theorem NeighborView.heard_apply {now id : UInt64} {w : NeighborView} {e : NeighborChange}
    (h : ((w.apply now e).nodes id).isSome = true) :
    if e.reportedId = some id then (w.apply now e).heard id = some now
    else (w.nodes id).isSome = true ∧ (w.apply now e).heard id = w.heard id := by
  cases e with
  | inserted k node =>
    by_cases hk : node.id = id
    · simp [NeighborView.apply, NeighborChange.reportedId, hk]
    · simpa [NeighborView.apply, NeighborChange.reportedId, hk, Function.update, Ne.symm hk] using h
  | deleted k =>
    simp only [NeighborView.apply, NeighborChange.reportedId] at h ⊢
    cases hw : w.nodes k with
    | none => simpa [hw] using h
    | some n =>
      by_cases hk : id = k
      · simp [hw, hk] at h
      · simpa [hw, Function.update, hk] using h
  | unchanged k =>
    by_cases hk : k = id
    · simp [NeighborView.apply, NeighborChange.reportedId, hk]
    · simpa [NeighborView.apply, NeighborChange.reportedId, hk, Function.update, Ne.symm hk] using h
  | updated k aoi time =>
    simp only [NeighborView.apply, NeighborChange.reportedId] at h ⊢
    cases hw : w.nodes k with
    | none =>
      have hk : k ≠ id := fun hk => by simp [hw, ← hk] at h
      simpa [hw, hk] using h
    | some n =>
      by_cases hk : k = id
      · simp [hk]
      · simpa [hw, hk, Function.update, Ne.symm hk] using h

namespace WatchingClient

def localTime (s : WatchingClient) : UInt64 := UInt64.ofNat s.clock

/-- `_net->getTimestamp ()`. -/
def now (s : WatchingClient) : UInt64 := s.client.getTimestamp s.localTime

/-- `_TIMEOUT_REMOVE_GHOST_` seconds in units of the clock. -/
def timeout (s : WatchingClient) : UInt64 :=
  UInt64.ofInt ((500 * s.msPerTimestep).tdiv 1000) * s.sec2timestamp

def report (s : WatchingClient) (id : UInt64) : WatchingClient :=
  { s with reports := Function.update s.reports id (some ⟨s.clock, s.client.timeAdjust⟩) }

def applyEntry (s : WatchingClient) (e : NeighborChange) : WatchingClient :=
  let s := { s with table := s.table.apply s.now e }
  match e.reportedId with
  | some id => s.report id
  | none => s

def subscribed (s : WatchingClient) (subNo matcher : UInt64) : WatchingClient :=
  if s.client.active then s
  else
    { s with
      client := { s.client with sub := { s.client.sub with id := subNo }, active := true }
      table := { s.table with lastUpdate := s.table.lastUpdate.insert subNo s.now }
      matcherId := matcher }.report subNo

def handleMatcherDisconnect (s : WatchingClient) : WatchingClient :=
  { s with
    matcherId := s.closestId
    closestId := 0
    client := { s.client with active := false }
    timeoutSubscribe := 1 }

def removeGhosts (s : WatchingClient) : WatchingClient :=
  if s.client.active = false then s
  else
    let table := s.table.removeGhosts s.client.sub.id s.now s.timeout
    let s := if s.client.sub.id ∈ s.table.ghosts s.now s.timeout then s.handleMatcherDisconnect else s
    { s with table }

/-- The part of `postHandling` that is done once a second. -/
def postHandling (s : WatchingClient) : WatchingClient :=
  if s.absent then s
  else if s.now ≥ s.nextPeriodic then { s with nextPeriodic := s.now + s.sec2timestamp }.removeGhosts
  else s

/-- Messages are handled unless the client is absent. -/
def step (s : WatchingClient) : WatchEvent → WatchingClient
  | .tick time => { s with clock := s.clock + time }
  | .neighbor entries => if s.absent then s else entries.foldl applyEntry s
  | .subscribed subNo matcher => if s.absent then s else s.subscribed subNo matcher
  | .syncClock sent gateway =>
    if s.absent then s else { s with client := s.client.syncClock s.localTime sent gateway }
  | .matcherLost => if s.absent then s else s.handleMatcherDisconnect
  | .relayLost =>
    if s.absent then s else { s with client := { s.client with active := false }, timeoutSubscribe := 1 }
  | .join => { s with absent := false }
  | .leave => if s.absent then s else { s with absent := true, timeoutSubscribe := 0 }
  | .postHandling => s.postHandling

def run (s : WatchingClient) (events : List WatchEvent) : WatchingClient := events.foldl step s

def start (sub : Subscription) (adjust : Int32) (sec2timestamp : UInt64) (msPerTimestep : Int) (clock : Nat) :
    WatchingClient where
  client := { sub, timeAdjust := adjust }
  sec2timestamp
  msPerTimestep
  clock

/-- What `id` has for its last update is what the clock showed at its last report. -/
structure Heard (s : WatchingClient) (id : UInt64) (r : LastReport) : Prop where
  report : s.reports id = some r
  clock_le : r.clock ≤ s.clock
  lastUpdate : s.table.lastUpdate[id]? = some (UInt64.ofNat r.clock + UInt64.ofInt r.adjust.toInt)

def Timed (s : WatchingClient) : Prop := ∀ id : UInt64, s.table.knows id = true → ∃ r, s.Heard id r

variable {s s' : WatchingClient}

theorem Timed.of_same (h : s.Timed) (htable : s'.table = s.table) (hreports : s'.reports = s.reports)
    (hclock : s.clock ≤ s'.clock) : s'.Timed := by
  intro id hid
  rw [htable] at hid
  obtain ⟨r, hr⟩ := h id hid
  exact ⟨r, by rw [hreports, hr.report], hr.clock_le.trans hclock, by rw [htable, hr.lastUpdate]⟩

theorem applyEntry_spec (s : WatchingClient) (e : NeighborChange) :
    (s.applyEntry e).table = s.table.apply s.now e ∧ (s.applyEntry e).client = s.client ∧
    (s.applyEntry e).clock = s.clock := by
  rw [applyEntry]
  cases e.reportedId with
  | none => exact ⟨rfl, rfl, rfl⟩
  | some id => exact ⟨rfl, rfl, rfl⟩

theorem reports_applyEntry (s : WatchingClient) (e : NeighborChange) (id : UInt64) :
    (s.applyEntry e).reports id =
      if e.reportedId = some id then some ⟨s.clock, s.client.timeAdjust⟩ else s.reports id := by
  rw [applyEntry]
  cases e.reportedId with
  | none => rfl
  | some k => simp [report, Function.update, eq_comm]

theorem table_entries (s : WatchingClient) (entries : List NeighborChange) :
    (entries.foldl applyEntry s).table = entries.foldl (fun c e => c.apply s.now e) s.table := by
  induction entries generalizing s with
  | nil => rfl
  | cons e entries ih =>
    obtain ⟨htable, hclient, hclock⟩ := applyEntry_spec s e
    have hnow : (s.applyEntry e).now = s.now := by rw [now, now, localTime, localTime, hclient, hclock]
    rw [List.foldl_cons, List.foldl_cons, ih, htable, hnow]

/-- The event stands for the message: the table is the one that `handleNeighbor` makes of its bytes. -/
theorem handleNeighbor_step (h : s.absent = false) (r : NeighborReport) (m : Message) :
    s.table.handleNeighbor s.now (r.received m) = some (s.step (.neighbor r.entries)).table := by
  rw [r.handleNeighbor_received, step, if_neg (by simp [h]), table_entries]

theorem timed_applyEntry (h : s.Timed) (e : NeighborChange) : (s.applyEntry e).Timed := by
  intro id hid
  obtain ⟨htable, -, hclock⟩ := applyEntry_spec s e
  have hreports := reports_applyEntry s e id
  have hview := ClientNeighbors.view_apply s.now s.table e
  have hheard : (s.applyEntry e).table.lastUpdate[id]? = (s.table.view.apply s.now e).heard id := by
    rw [htable, ← hview]
    rfl
  have hknown : ((s.table.view.apply s.now e).nodes id).isSome = true := by
    rw [← hview, ← htable]
    exact hid
  have happly := NeighborView.heard_apply hknown
  by_cases he : e.reportedId = some id
  · rw [if_pos he] at happly hreports
    exact ⟨_, hreports, hclock.ge, hheard.trans happly⟩
  · rw [if_neg he] at happly hreports
    obtain ⟨r, hr⟩ := h id happly.1
    exact ⟨r, hreports.trans hr.report, hclock.ge.trans' hr.clock_le,
      (hheard.trans happly.2).trans hr.lastUpdate⟩

theorem timed_entries (h : s.Timed) (entries : List NeighborChange) : (entries.foldl applyEntry s).Timed := by
  induction entries generalizing s with
  | nil => exact h
  | cons e entries ih => exact ih (timed_applyEntry h e)

theorem timed_subscribed (h : s.Timed) (subNo matcher : UInt64) : (s.subscribed subNo matcher).Timed := by
  rw [subscribed]
  split
  · exact h
  · intro id hid
    by_cases hsub : id = subNo
    · subst hsub
      exact ⟨⟨s.clock, s.client.timeAdjust⟩, by simp [report], le_rfl,
        by simp [report, now, localTime, AreaClient.getTimestamp]⟩
    · obtain ⟨r, hr⟩ := h id hid
      exact ⟨r, by simp [report, hsub, hr.report], hr.clock_le,
        by simp [report, Std.ExtTreeMap.getElem?_insert, Ne.symm hsub, hr.lastUpdate]⟩

def ChecksGhosts (s : WatchingClient) : Prop :=
  s.absent = false ∧ s.nextPeriodic ≤ s.now ∧ s.client.active = true

theorem postHandling_of_not_checks (h : ¬ s.ChecksGhosts) :
    s.postHandling.table = s.table ∧ s.postHandling.client = s.client ∧
    s.postHandling.reports = s.reports ∧ s.postHandling.clock = s.clock := by
  rw [postHandling]
  split
  · exact ⟨rfl, rfl, rfl, rfl⟩
  · rename_i habsent
    split
    · rename_i hnow
      have hactive : s.client.active = false := by
        rw [← Bool.not_eq_true]
        exact fun hactive => h ⟨Bool.not_eq_true _ ▸ habsent, hnow, hactive⟩
      rw [removeGhosts, if_pos hactive]
      exact ⟨rfl, rfl, rfl, rfl⟩
    · exact ⟨rfl, rfl, rfl, rfl⟩

def ghosts (s : WatchingClient) : List UInt64 := s.table.ghosts s.now s.timeout

theorem removeGhosts_of_active (h : s.client.active = true) :
    s.removeGhosts.table = s.table.removeGhosts s.client.sub.id s.now s.timeout ∧
    (s.removeGhosts.client.active = false ↔ s.client.sub.id ∈ s.ghosts) ∧
    s.removeGhosts.reports = s.reports ∧ s.removeGhosts.clock = s.clock := by
  rw [removeGhosts, if_neg (by simp [h])]
  by_cases hghost : s.client.sub.id ∈ s.ghosts
  · have hif : s.client.sub.id ∈ s.table.ghosts s.now s.timeout := hghost
    simp [hif, hghost, handleMatcherDisconnect]
  · have hif : s.client.sub.id ∉ s.table.ghosts s.now s.timeout := hghost
    simp [hif, hghost, h]

theorem postHandling_of_checks (h : s.ChecksGhosts) :
    s.postHandling.table = s.table.removeGhosts s.client.sub.id s.now s.timeout ∧
    (s.postHandling.client.active = false ↔ s.client.sub.id ∈ s.ghosts) ∧
    s.postHandling.reports = s.reports ∧ s.postHandling.clock = s.clock := by
  obtain ⟨habsent, hnow, hactive⟩ := h
  rw [postHandling, if_neg (by simp [habsent]), if_pos hnow]
  exact removeGhosts_of_active (s := { s with nextPeriodic := s.now + s.sec2timestamp }) hactive

theorem timed_postHandling (h : s.Timed) : s.postHandling.Timed := by
  by_cases hchecks : s.ChecksGhosts
  · obtain ⟨htable, -, hreports, hclock⟩ := postHandling_of_checks hchecks
    intro id hid
    rw [htable] at hid
    obtain ⟨r, hr⟩ := h id ((ClientNeighbors.knows_removeGhosts _ _ _ _ _).mp hid).1
    exact ⟨r, by rw [hreports, hr.report], by rw [hclock]; exact hr.clock_le,
      by rw [htable]; exact ClientNeighbors.heard_removeGhosts hid hr.lastUpdate⟩
  · obtain ⟨htable, -, hreports, hclock⟩ := postHandling_of_not_checks hchecks
    exact h.of_same htable hreports hclock.ge

theorem timed_step (h : s.Timed) (event : WatchEvent) : (s.step event).Timed := by
  cases event with
  | tick time => exact h.of_same rfl rfl (Nat.le_add_right s.clock time)
  | neighbor entries =>
    rw [step]
    split
    · exact h
    · exact timed_entries h entries
  | subscribed subNo matcher =>
    rw [step]
    split
    · exact h
    · exact timed_subscribed h subNo matcher
  | join => exact h.of_same rfl rfl le_rfl
  | postHandling => exact timed_postHandling h
  | _ =>
    rw [step]
    split
    · exact h
    · exact h.of_same rfl rfl le_rfl

theorem timed_run (h : s.Timed) (events : List WatchEvent) : (s.run events).Timed := by
  induction events generalizing s with
  | nil => exact h
  | cons event events ih => exact ih (timed_step h event)

/-- How long ago, by the local clock. -/
def age (s : WatchingClient) (r : LastReport) : Nat := s.clock - r.clock

/-- How far the adjustment of the clock has moved since. -/
def drift (s : WatchingClient) (r : LastReport) : Int := s.client.timeAdjust.toInt - r.adjust.toInt

theorem toNat_elapsed {id : UInt64} {r : LastReport} (h : s.Heard id r) :
    ((s.now - s.table.lastUpdate[id]?.getD 0).toNat : Int) = (s.age r + s.drift r) % 2 ^ 64 := by
  have hclock : ((s.localTime - UInt64.ofNat r.clock).toNat : Int) = (s.age r : Int) % 2 ^ 64 := by
    rw [localTime, ← UInt64.ofNat_sub h.clock_le, UInt64.toNat_ofNat', age]
    exact Int.natCast_mod _ _
  rw [h.lastUpdate, Option.getD_some, now, AreaClient.getTimestamp, AreaClient.toNat_elapsed, hclock]
  exact Int.emod_add_emod _ _ _

/-- The adjusted clock shows less than the timeout for whatever was reported within the timeout. -/
def SeesFresh (s : WatchingClient) : Prop :=
  ∀ (id : UInt64) (r : LastReport), s.table.knows id = true → s.reports id = some r →
    s.age r < s.timeout.toNat → (s.age r + s.drift r) % 2 ^ 64 < s.timeout.toNat

/-- For a timeout below 2^63: since the report the clock has been put neither back by more than the age nor
forward by what the timeout leaves. -/
theorem seesFresh_iff (h : s.timeout.toNat ≤ 2 ^ 63) : s.SeesFresh ↔
    ∀ (id : UInt64) (r : LastReport), s.table.knows id = true → s.reports id = some r →
      s.age r < s.timeout.toNat → -(s.age r : Int) ≤ s.drift r ∧ s.drift r < s.timeout.toNat - s.age r := by
  have hrange (r : LastReport) : -2 ^ 32 ≤ s.drift r ∧ s.drift r < 2 ^ 32 := by
    have hlo := s.client.timeAdjust.le_toInt
    have hhi := s.client.timeAdjust.toInt_lt
    have hlo' := r.adjust.le_toInt
    have hhi' := r.adjust.toInt_lt
    rw [drift]
    omega
  have hshown (r : LastReport) (hage : s.age r < s.timeout.toNat) :
      (s.age r + s.drift r) % 2 ^ 64 < s.timeout.toNat ↔
        -(s.age r : Int) ≤ s.drift r ∧ s.drift r < s.timeout.toNat - s.age r := by
    obtain ⟨hlo, hhi⟩ := hrange r
    omega
  constructor
  · intro hsees id r hid hr hage
    exact (hshown r hage).mp (hsees id r hid hr hage)
  · intro hdrift id r hid hr hage
    exact (hshown r hage).mpr (hdrift id r hid hr hage)

def Old (s : WatchingClient) (id : UInt64) : Prop := ∃ r, s.reports id = some r ∧ s.timeout.toNat ≤ s.age r

/-- `postHandling` removes a neighbour or gives up the matcher only where the id is old. -/
structure NoFalseGhost (s : WatchingClient) : Prop where
  neighbor : ∀ id : UInt64, s.table.knows id = true → s.postHandling.table.knows id = false → s.Old id
  matcher : s.client.active = true → s.postHandling.client.active = false → s.Old s.client.sub.id

theorem mem_ghosts {id : UInt64} {r : LastReport} (h : s.Heard id r) : id ∈ s.ghosts ↔
    s.table.knows id = true ∧ s.timeout.toNat ≤ (s.age r + s.drift r) % 2 ^ 64 := by
  rw [ghosts, ClientNeighbors.mem_ghosts, UInt64.le_iff_toNat_le, ← toNat_elapsed h, Int.ofNat_le]

theorem knows_of_ghost {id : UInt64} (h : id ∈ s.ghosts) : s.table.knows id = true :=
  (ClientNeighbors.mem_ghosts.mp h).1

theorem ghosts_old_iff (h : s.Timed) : (∀ id ∈ s.ghosts, s.Old id) ↔ s.SeesFresh := by
  constructor
  · intro hold id r hid hr hage
    by_contra hshown
    obtain ⟨r', hheard⟩ := h id hid
    have hsame : r' = r := Option.some.inj (hheard.report.symm.trans hr)
    subst hsame
    obtain ⟨q, hq, hqage⟩ := hold id ((mem_ghosts hheard).mpr ⟨hid, not_lt.mp hshown⟩)
    have hsame : r' = q := Option.some.inj (hr.symm.trans hq)
    subst hsame
    omega
  · intro hsees id hghost
    obtain ⟨r, hheard⟩ := h id (knows_of_ghost hghost)
    refine ⟨r, hheard.report, ?_⟩
    by_contra hage
    have hshown := hsees id r (knows_of_ghost hghost) hheard.report (not_le.mp hage)
    have hghost := ((mem_ghosts hheard).mp hghost).2
    omega

theorem noFalseGhost_iff (hchecks : s.ChecksGhosts) : s.NoFalseGhost ↔ ∀ id ∈ s.ghosts, s.Old id := by
  obtain ⟨htable, hactive, -, -⟩ := postHandling_of_checks hchecks
  have hknows (id : UInt64) : s.postHandling.table.knows id = true ↔
      s.table.knows id = true ∧ ¬ (id ∈ s.ghosts ∧ id ≠ s.client.sub.id) := by
    rw [htable, ClientNeighbors.knows_removeGhosts]
    rfl
  constructor
  · intro h id hghost
    by_cases hsub : id = s.client.sub.id
    · subst hsub
      exact h.matcher hchecks.2.2 (hactive.mpr hghost)
    · apply h.neighbor id (knows_of_ghost hghost)
      rw [← Bool.not_eq_true, hknows]
      exact fun hkept => hkept.2 ⟨hghost, hsub⟩
  · intro hold
    constructor
    · intro id hid hgone
      by_contra hnot
      rw [← Bool.not_eq_true, hknows] at hgone
      exact hgone ⟨hid, fun hghost => hnot (hold id hghost.1)⟩
    · intro _ hgone
      exact hold _ (hactive.mp hgone)

theorem noFalseGhost_of_not_checks (h : ¬ s.ChecksGhosts) : s.NoFalseGhost := by
  obtain ⟨htable, hclient, -, -⟩ := postHandling_of_not_checks h
  constructor
  · intro id hid hgone
    rw [htable, hid] at hgone
    cases hgone
  · intro hactive hgone
    rw [hclient, hactive] at hgone
    cases hgone

/-- In every run `postHandling` takes no fresh id for a ghost exactly when the adjustments made since its
report leave its age below the timeout. -/
theorem no_false_ghost_iff (sub : Subscription) (adjust : Int32) (sec2timestamp : UInt64)
    (msPerTimestep : Int) (clock : Nat) (events : List WatchEvent) :
    ((start sub adjust sec2timestamp msPerTimestep clock).run events).NoFalseGhost ↔
      (((start sub adjust sec2timestamp msPerTimestep clock).run events).ChecksGhosts →
        ((start sub adjust sec2timestamp msPerTimestep clock).run events).SeesFresh) := by
  have hstart : (start sub adjust sec2timestamp msPerTimestep clock).Timed := fun id hid => by cases hid
  have htimed := timed_run hstart events
  by_cases hchecks : ((start sub adjust sec2timestamp msPerTimestep clock).run events).ChecksGhosts
  · rw [noFalseGhost_iff hchecks, ghosts_old_iff htimed]
    simp [hchecks]
  · simp [hchecks, noFalseGhost_of_not_checks hchecks]

/-- Subscribed, with neighbour 4 reported half a second before the gateway's clock is adopted. -/
def adjustedClient : WatchingClient :=
  (start {} 0 1000 100 1000).run [.join, .subscribed 7 9, .neighbor [.inserted 4 { id := 4 }], .tick 500,
    .syncClock 1400 90000]

theorem fresh_neighbor_removed : ¬ adjustedClient.NoFalseGhost := by
  intro h
  obtain ⟨r, hr, hage⟩ := h.neighbor 4 (by decide +kernel) (by decide +kernel)
  have hreport : adjustedClient.reports 4 = some ⟨1000, 0⟩ := by decide +kernel
  have hr' : r = ⟨1000, 0⟩ := Option.some.inj (hr.symm.trans hreport)
  subst hr'
  have hfresh : adjustedClient.age ⟨1000, 0⟩ < adjustedClient.timeout.toNat := by decide +kernel
  exact not_lt.mpr hage hfresh

end WatchingClient

end VastNC
