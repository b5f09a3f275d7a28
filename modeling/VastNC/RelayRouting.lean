import VastNC.Relay
import VastNC.Lib.Walk
import Mathlib

/-! Where a `RELAY_QUERY` goes that every relay hands on to the closest relay it knows. -/

namespace VastNC

section Metric

variable {K : Type} [Field K] [LinearOrder K]

def equalDistance : K := 1 / 1000000

def exactMetric (distance : Position → Position → K) : RelayMetric K where
  distance := distance
  lt dist minDist := decide (dist < minDist)
  close dist minDist := decide (dist - minDist < equalDistance)

end Metric

def nextHop {K : Type} (m : RelayMetric K) (known : Node → List Node) (pos : Position) (relay : Node) :
    Option Node :=
  let closest := closestRelay m relay (known relay) pos
  if closest.id = relay.id then none else some closest

structure RelaySet where
  relays : List Node
  nodup : (relays.map Node.id).Nodup

structure RelaySet.Tables (s : RelaySet) where
  known : Node → List Node
  nodup : ∀ x, (known x).Nodup
  others : ∀ x, ∀ y ∈ known x, y ∈ s.relays ∧ y ≠ x

theorem RelaySet.eq_of_id (s : RelaySet) {x y : Node} (hx : x ∈ s.relays) (hy : y ∈ s.relays)
    (h : x.id = y.id) : x = y :=
  List.inj_on_of_nodup_map s.nodup hx hy h

section Handler

variable {K : Type} {p : VASTRelay K} {joiner : Node} {forwarder : Addr}

/-- The handler of a `RELAY_QUERY` makes this hop, or replies. -/
theorem handleQuery_net (hf : ∀ n id, p.fails n id = false) (fuel : Nat) :
    (VASTRelay.handleQuery joiner forwarder (fuel + 1) p).net = p.net ++
      [match nextHop p.metric (fun _ => p.dist2relay.map fun e => p.nodeOf e.2) joiner.aoi.center p.self with
        | some closest => .query closest.id joiner forwarder
        | none => .queryR forwarder.hostId joiner (closestRelay p.metric p.self
            (p.dist2relay.map fun e => p.nodeOf e.2) joiner.aoi.center)] := by
  have hsend (id : UInt64) (call : RelayCall) : p.sendRelay [id] call = (p.send call, 1) := by
    simp [VASTRelay.sendRelay, hf]
  rw [VASTRelay.handleQuery, nextHop]
  dsimp only
  split
  · rw [hsend]
    rfl
  · rw [hsend]
    rfl

end Handler

section Order

variable {K : Type} [LinearOrder K] (distance : Position → Position → K) (pos : Position)

def Below (y x : Node) : Prop :=
  distance y.aoi.center pos < distance x.aoi.center pos ∨
    distance y.aoi.center pos = distance x.aoi.center pos ∧ y.id < x.id

/-- A relay that is farther away from the position than one of greater id is so by
`EQUAL_DISTANCE` at least. -/
def Separated [Field K] (relays : List Node) : Prop :=
  ∀ x ∈ relays, ∀ y ∈ relays, y.id < x.id → distance x.aoi.center pos < distance y.aoi.center pos →
    equalDistance ≤ distance y.aoi.center pos - distance x.aoi.center pos

variable {distance pos} {x y z : Node} {relays : List Node}

theorem Below.trans (hxy : Below distance pos x y) (hyz : Below distance pos y z) : Below distance pos x z := by
  rcases hxy with hxy | ⟨hxy, hid⟩
  · rcases hyz with hyz | ⟨hyz, -⟩
    · exact .inl (hxy.trans hyz)
    · exact .inl (hyz ▸ hxy)
  · rcases hyz with hyz | ⟨hyz, hid'⟩
    · exact .inl (hxy ▸ hyz)
    · exact .inr ⟨hxy.trans hyz, UInt64.lt_trans hid hid'⟩

theorem Below.irrefl (h : Below distance pos x x) : False := by
  rcases h with h | ⟨-, h⟩
  · exact lt_irrefl _ h
  · exact UInt64.lt_irrefl _ h

variable [Field K]

theorem Separated.below (h : Separated distance pos relays) (hx : x ∈ relays) (hy : y ∈ relays)
    (hc : ((exactMetric distance).lt (distance y.aoi.center pos) (distance x.aoi.center pos) ||
      (exactMetric distance).close (distance y.aoi.center pos) (distance x.aoi.center pos) && y.id < x.id) = true) :
    Below distance pos y x := by
  simp only [exactMetric, Bool.or_eq_true, Bool.and_eq_true, decide_eq_true_eq] at hc
  rcases hc with hlt | ⟨hclose, hid⟩
  · exact .inl hlt
  · have hle : distance y.aoi.center pos ≤ distance x.aoi.center pos := by
      by_contra hgt
      exact absurd hclose (not_lt.mpr (h x hx y hy hid (not_le.mp hgt)))
    rcases hle.lt_or_eq with hlt | heq
    · exact .inl hlt
    · exact .inr ⟨heq, hid⟩

theorem Separated.closestRelay (h : Separated distance pos relays) (hx : x ∈ relays) {known : List Node}
    (hk : ∀ y ∈ known, y ∈ relays) :
    closestRelay (exactMetric distance) x known pos ∈ relays ∧
      (closestRelay (exactMetric distance) x known pos = x ∨
        Below distance pos (closestRelay (exactMetric distance) x known pos) x) := by
  refine List.foldlRecOn (motive := fun c => c ∈ relays ∧ (c = x ∨ Below distance pos c x)) known _
    ⟨hx, .inl rfl⟩ fun c hc y hy => ?_
  dsimp only
  split
  · rename_i htake
    have hb := h.below hc.1 (hk y hy) htake
    refine ⟨hk y hy, .inr ?_⟩
    rcases hc.2 with rfl | hcx
    · exact hb
    · exact hb.trans hcx
  · exact hc

theorem Separated.nextHop (h : Separated distance pos relays) (hx : x ∈ relays) {known : Node → List Node}
    (hk : ∀ y ∈ known x, y ∈ relays) (hy : nextHop (exactMetric distance) known pos x = some y) :
    y ∈ relays ∧ Below distance pos y x := by
  obtain ⟨hmem, hc⟩ := h.closestRelay hx hk
  rw [VastNC.nextHop] at hy
  split at hy
  · cases hy
  · rename_i hne
    obtain rfl := Option.some.inj hy
    exact ⟨hmem, hc.resolve_left fun he => hne (congrArg Node.id he)⟩

def RelaySet.pair (s : RelaySet) (hx : x ∈ s.relays) (hy : y ∈ s.relays) (hxy : x ≠ y) : s.Tables where
  known z := if z = x then [y] else if z = y then [x] else []
  nodup z := by
    split
    · exact List.nodup_singleton y
    · split
      · exact List.nodup_singleton x
      · exact List.nodup_nil
  others z w hw := by
    split at hw
    · rename_i hz
      rw [List.mem_singleton.mp hw, hz]
      exact ⟨hy, hxy.symm⟩
    · split at hw
      · rename_i hz
        rw [List.mem_singleton.mp hw, hz]
        exact ⟨hx, hxy⟩
      · cases hw

theorem relay_queries_end_iff (distance : Position → Position → K) (s : RelaySet) (pos : Position) :
    (∀ t : s.Tables, ∀ x ∈ s.relays,
      (∀ n, ((Walk.trace (nextHop (exactMetric distance) t.known pos) n x).map Node.id).Nodup) ∧
        ∃ n, ∃ y ∈ Walk.trace (nextHop (exactMetric distance) t.known pos) n x,
          nextHop (exactMetric distance) t.known pos y = none) ↔ Separated distance pos s.relays := by
  constructor
  · intro h x hx y hy hid hfar
    by_contra hclose
    have hxy : x ≠ y := fun he => UInt64.lt_irrefl _ (he ▸ hid)
    have hne : y.id ≠ x.id := fun he => UInt64.lt_irrefl _ (he ▸ hid)
    have hnd := (h (s.pair hx hy hxy) x hx).1 2
    have hto : nextHop (exactMetric distance) (s.pair hx hy hxy).known pos x = some y := by
      simp [nextHop, RelaySet.pair, closestRelay, exactMetric, not_le.mp hclose, hid, hne]
    have hback : nextHop (exactMetric distance) (s.pair hx hy hxy).known pos y = some x := by
      simp [nextHop, RelaySet.pair, closestRelay, exactMetric, hfar, hxy.symm, hne.symm]
    rw [Walk.trace_succ_some hto, Walk.trace_succ_some hback] at hnd
    exact (List.nodup_cons.mp hnd).1 (by simp [Walk.trace])
  · intro h t x hx
    have hhop : ∀ y z, y ∈ s.relays → nextHop (exactMetric distance) t.known pos y = some z →
        z ∈ s.relays ∧ Below distance pos z y :=
      fun y z hy hz => h.nextHop hy (fun w hw => (t.others y w hw).1) hz
    have hpair (n : Nat) := Walk.pairwise_trace (n := n) (r := fun y z => Below distance pos z y)
      (fun a b c hab hbc => hbc.trans hab) hhop hx
    have hnd (n : Nat) : (Walk.trace (nextHop (exactMetric distance) t.known pos) n x).Nodup :=
      (hpair n).imp fun hb he => by
        rw [he] at hb
        exact hb.irrefl
    refine ⟨fun n => ?_, Walk.exists_end (fun y z hy hz => (hhop y z hy hz).1) hnd hx⟩
    refine List.Nodup.map_on (fun y hy z hz he => s.eq_of_id ?_ ?_ he) (hnd n)
    · exact Walk.forall_mem_trace (fun y z hy hz => (hhop y z hy hz).1) hx y hy
    · exact Walk.forall_mem_trace (fun y z hy hz => (hhop y z hy hz).1) hx z hz

end Order

def Coord.toRat (c : Coord) : ℚ :=
  let mantissa := (c.bits &&& 0x7FFFFF).toNat
  let exponent := (c.bits >>> 23 &&& 0xFF).toNat
  let magnitude : ℚ := if exponent = 0 then mantissa / 2 ^ 149 else (2 ^ 23 + mantissa) * 2 ^ exponent / 2 ^ 150
  if c.bits >>> 31 = 0 then magnitude else -magnitude

def axisDistance (p q : Position) : ℚ := |p.x.toRat - q.x.toRat|

def twoRelays : RelaySet where
  relays := [{ id := 2, aoi := { center := { x := ⟨0x3F800000⟩ } } }, { id := 1, aoi := { center := { x := ⟨0x3F800001⟩ } } }]
  nodup := by decide

def eachOther : twoRelays.Tables :=
  twoRelays.pair List.mem_cons_self (List.mem_cons_of_mem _ (List.mem_singleton_self _)) (by decide)

theorem relay_query_circles :
    ¬ ((Walk.trace (nextHop (exactMetric axisDistance) eachOther.known {}) 2
      { id := 2, aoi := { center := { x := ⟨0x3F800000⟩ } } }).map Node.id).Nodup := by
  decide +kernel

end VastNC
