import VastNC.Lib.ToleranceScan
import VastNC.RelayRouting
import VastNC.VonPeer

/-! `VoronoiSF::closest_to`: the site that a request is forwarded to, and whether it depends on
the order in which the sites were inserted. -/

namespace VastNC

namespace VoronoiSF

open ToleranceScan

variable {K : Type}

/-- One turn of the loop; the second part of `closest` is `min`. -/
def closer (m : RelayMetric K) (pt : Position) (closest : UInt64 × K) (site : UInt64 × Position) :
    UInt64 × K :=
  let d := m.distance pt site.2
  if m.lt d closest.2 || m.close d closest.2 && site.1 < closest.1 then (site.1, d) else closest

def closestTo (m : RelayMetric K) (v : VoronoiSF) (pt : Position) : UInt64 :=
  match v.sites with
  | [] => 0
  | first :: _ => (v.sites.foldl (closer m pt) (first.1, m.distance pt first.2)).1

def siteKey (s : UInt64 × Position) : Nat := s.1.toNat

def siteDistance (distance : Position → Position → K) (pt : Position) (s : UInt64 × Position) : K :=
  distance pt s.2

theorem nodup_siteKeys (v : VoronoiSF) : (v.sites.map siteKey).Nodup := by
  have h := v.nodup.map fun _ _ => UInt64.toNat_inj.mp
  rwa [List.map_map] at h

variable [Field K] [LinearOrder K] {distance : Position → Position → K} {v : VoronoiSF} {pt : Position}

theorem closer_eq (c s : UInt64 × Position) :
    closer (exactMetric distance) pt (c.1, distance pt c.2) s =
      if Beats (siteDistance distance pt) siteKey equalDistance s c then (s.1, distance pt s.2)
      else (c.1, distance pt c.2) := by
  have hb : ((exactMetric distance).lt (distance pt s.2) (distance pt c.2) ||
      (exactMetric distance).close (distance pt s.2) (distance pt c.2) && s.1 < c.1) = true ↔
        Beats (siteDistance distance pt) siteKey equalDistance s c := by
    simp only [exactMetric, Bool.or_eq_true, Bool.and_eq_true, decide_eq_true_eq, UInt64.lt_iff_toNat_lt]
    rfl
  by_cases h : Beats (siteDistance distance pt) siteKey equalDistance s c
  · rw [if_pos h]
    exact if_pos (hb.mpr h)
  · rw [if_neg h]
    exact if_neg fun ht => h (hb.mp ht)

theorem foldl_closer (l : List (UInt64 × Position)) (c : UInt64 × Position) :
    (l.foldl (closer (exactMetric distance) pt) (c.1, distance pt c.2)).1 =
      (scan (siteDistance distance pt) siteKey equalDistance c l).1 := by
  induction l generalizing c with
  | nil => rfl
  | cons s l ih =>
    rw [scan, List.foldl_cons, List.foldl_cons, closer_eq]
    split
    · exact ih s
    · exact ih c

/-- The first site is compared with itself before the others. -/
theorem closestTo_cons {first : UInt64 × Position} {rest : List (UInt64 × Position)}
    (h : v.sites = first :: rest) : v.closestTo (exactMetric distance) pt =
      (scan (siteDistance distance pt) siteKey equalDistance first rest).1 := by
  have hself : ¬ Beats (siteDistance distance pt) siteKey equalDistance first first := by
    simp [Beats]
  rw [closestTo, h]
  dsimp only
  rw [List.foldl_cons]
  have hfirst : closer (exactMetric distance) pt (first.1, distance pt first.2) first = _ :=
    closer_eq first first
  rw [if_neg hself] at hfirst
  exact (congrArg (fun c => (rest.foldl (closer (exactMetric distance) pt) c).1) hfirst).trans
    (foldl_closer rest first)

theorem settled_iff : Settled (siteDistance distance pt) siteKey equalDistance v.sites ↔
    ∃ m ∈ v.sites, (∀ s ∈ v.sites, distance pt m.2 ≤ distance pt s.2) ∧
      ∀ s ∈ v.sites, distance pt s.2 - distance pt m.2 < equalDistance → m.1 ≤ s.1 := by
  simp only [Settled, siteDistance, siteKey, UInt64.le_iff_toNat_le]

variable [IsStrictOrderedRing K]

theorem equalDistance_pos : (0 : K) < equalDistance := by
  rw [equalDistance]
  positivity

/-- The closest site does not depend on the order of the sites, and is at the least distance but
for `EQUAL_DISTANCE`, exactly when a nearest site has the smallest id of all that are nearer than
`EQUAL_DISTANCE` to the least distance. -/
theorem closest_site_iff (distance : Position → Position → K) (v : VoronoiSF) (pt : Position) :
    ((∀ w : VoronoiSF, w.sites.Perm v.sites →
        w.closestTo (exactMetric distance) pt = v.closestTo (exactMetric distance) pt) ∧
      ∀ e ∈ v.sites, e.1 = v.closestTo (exactMetric distance) pt →
        ∀ s ∈ v.sites, distance pt e.2 - distance pt s.2 ≤ equalDistance) ↔
    (v.sites ≠ [] → ∃ m ∈ v.sites, (∀ s ∈ v.sites, distance pt m.2 ≤ distance pt s.2) ∧
      ∀ s ∈ v.sites, distance pt s.2 - distance pt m.2 < equalDistance → m.1 ≤ s.1) := by
  rw [← settled_iff]
  constructor
  · rintro ⟨horder, -⟩ hne
    by_contra hs
    obtain ⟨c, l₁, d, l₂, h₁, h₂, hdiff⟩ :=
      exists_orders hs hne equalDistance_pos v.nodup_siteKeys
    let w₁ : VoronoiSF := ⟨c :: l₁, (h₁.map Prod.fst).nodup_iff.mpr v.nodup⟩
    let w₂ : VoronoiSF := ⟨d :: l₂, (h₂.map Prod.fst).nodup_iff.mpr v.nodup⟩
    have hids := (horder w₁ h₁).trans (horder w₂ h₂).symm
    rw [closestTo_cons (v := w₁) rfl, closestTo_cons (v := w₂) rfl] at hids
    exact hdiff (List.inj_on_of_nodup_map v.nodup (h₁.mem_iff.mp (scan_mem c l₁))
      (h₂.mem_iff.mp (scan_mem d l₂)) hids)
  · intro h
    have hfound : ∀ w : VoronoiSF, w.sites.Perm v.sites → v.sites ≠ [] → ∃ m ∈ v.sites,
        (∀ s ∈ v.sites, distance pt m.2 ≤ distance pt s.2) ∧
          w.closestTo (exactMetric distance) pt = m.1 ∧ v.closestTo (exactMetric distance) pt = m.1 := by
      intro w hw hne
      obtain ⟨m, hm, hleast, hscan⟩ := (h hne).scan_perm equalDistance_pos v.nodup_siteKeys
      have hclosest : ∀ u : VoronoiSF, u.sites.Perm v.sites →
          u.closestTo (exactMetric distance) pt = m.1 := by
        intro u hu
        cases hsites : u.sites with
        | nil => exact absurd (hsites ▸ hu).nil_eq.symm hne
        | cons first rest => rw [closestTo_cons hsites, hscan first rest (hsites ▸ hu)]
      exact ⟨m, hm, hleast, hclosest w hw, hclosest v (.refl _)⟩
    constructor
    · intro w hw
      by_cases hne : v.sites = []
      · have hnil : w.sites = [] := (hne ▸ hw).eq_nil
        rw [closestTo, closestTo, hne, hnil]
      · obtain ⟨m, -, -, hwm, hvm⟩ := hfound w hw hne
        rw [hwm, hvm]
    · intro e he hid s hs
      obtain ⟨m, hm, hleast, -, hvm⟩ := hfound v (.refl _) (List.ne_nil_of_mem he)
      have hem : e = m := List.inj_on_of_nodup_map v.nodup he hm (hid.trans hvm)
      rw [hem]
      exact (sub_nonpos.mpr (hleast s hs)).trans equalDistance_pos.le

def siteAt (bits : UInt32) : Position := { x := ⟨bits⟩ }

/-- Two sites at 1 and 2. -/
def apart : VoronoiSF where
  sites := [(3, siteAt 0x3F800000), (1, siteAt 0x40000000)]
  nodup := by decide

def apartBack : VoronoiSF where
  sites := [(1, siteAt 0x40000000), (3, siteAt 0x3F800000)]
  nodup := by decide

theorem closest_site_apart :
    apartBack.closestTo (exactMetric axisDistance) {} = apart.closestTo (exactMetric axisDistance) {} := by
  have hleast := (closest_site_iff axisDistance apart {}).mpr fun _ =>
    ⟨(3, siteAt 0x3F800000), by decide +kernel⟩
  exact hleast.1 apartBack (List.reverse_perm apart.sites)

/-- Sites at 1, 1 + 7 / 2 ^ 23 and 1 + 14 / 2 ^ 23 on one axis, the farther the smaller the id. -/
def drifting : VoronoiSF where
  sites := [(3, siteAt 0x3F800000), (2, siteAt 0x3F800007), (1, siteAt 0x3F80000E)]
  nodup := by decide

def driftingBack : VoronoiSF where
  sites := [(1, siteAt 0x3F80000E), (2, siteAt 0x3F800007), (3, siteAt 0x3F800000)]
  nodup := by decide

/-- The first order ends at the farthest site, the second at the nearest. -/
theorem closest_site_drifts : driftingBack.sites.Perm drifting.sites ∧
    drifting.closestTo (exactMetric axisDistance) {} = 1 ∧
      driftingBack.closestTo (exactMetric axisDistance) {} = 3 ∧
      equalDistance < axisDistance {} (siteAt 0x3F80000E) - axisDistance {} (siteAt 0x3F800000) :=
  ⟨List.reverse_perm drifting.sites, by decide +kernel⟩

end VoronoiSF

end VastNC
