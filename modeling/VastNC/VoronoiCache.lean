import VastNC.DiagramAnswers
import VastNC.NeighborTables

/-! `VoronoiSF` as it is written: a diagram that is kept until the sites change. Its answers are those
that a diagram made for every question would give. -/

namespace VastNC

open Block

/-- The answers of a diagram, by the points of the sites. -/
structure Sites (K : Type) where
  /-- `coord_t` as a `double`. -/
  toDouble : Coord → K
  /-- `Position::distance` compared with a radius. -/
  within : Position → Position → UInt16 → Bool

namespace Sites

variable {K : Type} (g : Sites K)

def point (pt : Position) : Point K := ⟨g.toDouble pt.x, g.toDouble pt.y⟩

def diagram (ps : List Position) : Diagram K := .ofSites (ps.map g.point)

variable [Double K]

/-- `calsfv` of new sites. Its loop takes no more turns than this. -/
def calsfv (ps : List Position) : Except Fault (Diagram K) := (g.diagram ps).calsfv (3 * ps.length)

/-- A diagram for each question. -/
def geometry (base : Geometry) : Geometry :=
  let ask {α : Type} (none : α) (ps : List Position) (f : Diagram K → Except Fault α) : α :=
    ((g.calsfv ps).bind f).toOption.getD none
  { base with
    isPointInsideSiteRegion := fun ps idx pt => ask false ps (·.isPointInsideSiteRegion idx (g.point pt))
    enclosed := fun ps idx pt radius => ask false ps (·.enclosed idx (g.point pt) radius.toNat)
    collides := fun ps idx pt radius => ask false ps (·.collides idx (g.point pt) (radius.toNat + 5))
    getNeighborSet := fun ps idx => ask [] ps (·.getNeighborSet idx [])
    within := g.within }

end Sites

structure VoronoiCache (K : Type) where
  invalidated : Bool := false
  voronoi : Diagram K := {}
  sites : List (UInt64 × Position) := []

namespace VoronoiCache

variable {K : Type} (c : VoronoiCache K)

def getIdx (id : UInt64) : Option Nat := c.sites.findIdx? (fun s => s.1 == id)

def insert (id : UInt64) (pt : Position) : VoronoiCache K :=
  match c.getIdx id with
  | none => { c with invalidated := true, sites := c.sites ++ [(id, pt)] }
  | some _ => c

def remove (id : UInt64) : VoronoiCache K :=
  match c.getIdx id with
  | none => c
  | some idx => { c with invalidated := true, sites := c.sites.eraseIdx idx }

def update (id : UInt64) (pt : Position) : VoronoiCache K :=
  match c.getIdx id with
  | none => c
  | some idx => { c with invalidated := true, sites := c.sites.modify idx (fun s => (s.1, pt)) }

def clear : VoronoiCache K :=
  (List.range c.sites.length).foldl
    (fun c _ =>
      match c.sites.getLast? with
      | none => c
      | some s => c.remove s.1) c

section Used

variable {c : VoronoiCache K} {id : UInt64} {pt : Position}

/-- There is or was a site that no diagram was made without. -/
def Used (c : VoronoiCache K) : Prop := c.invalidated = true ∨ c.sites ≠ []

theorem used_insert : (c.insert id pt).Used := by
  unfold VoronoiCache.insert
  cases hidx : c.getIdx id with
  | none => exact .inl rfl
  | some idx =>
    refine .inr fun hnil => ?_
    rw [getIdx, hnil] at hidx
    exact nomatch hidx

theorem used_remove : (c.remove id).Used ↔ c.Used := by
  unfold VoronoiCache.remove
  cases hidx : c.getIdx id with
  | none => rfl
  | some idx =>
    refine iff_of_true (.inl rfl) (.inr fun hnil => ?_)
    rw [getIdx, hnil] at hidx
    exact nomatch hidx

theorem used_update : (c.update id pt).Used ↔ c.Used := by
  unfold VoronoiCache.update
  cases hidx : c.getIdx id with
  | none => rfl
  | some idx =>
    refine iff_of_true (.inl rfl) (.inr fun hnil => ?_)
    rw [getIdx, hnil] at hidx
    exact nomatch hidx

theorem used_clear : c.clear.Used ↔ c.Used := by
  unfold VoronoiCache.clear
  generalize List.range c.sites.length = l
  induction l generalizing c with
  | nil => rfl
  | cons n l ih =>
    rw [List.foldl_cons, ih]
    cases c.sites.getLast? with
    | none => rfl
    | some s => exact used_remove

end Used

variable [Double K] (g : Sites K)

def recompute : Except Fault (VoronoiCache K) :=
  if c.invalidated then do
    let d ← g.calsfv (c.sites.map Prod.snd)
    return { c with invalidated := false, voronoi := d }
  else .ok c

/-- A question about a site is put to the diagram, unless there is no such site. -/
def askSite (id : UInt64) (ask : Diagram K → Nat → Except Fault Bool) : Except Fault (Bool × VoronoiCache K) :=
  match c.getIdx id with
  | none => .ok (false, c)
  | some idx => do
    let c ← c.recompute g
    let result ← ask c.voronoi idx
    return (result, c)

def contains (id : UInt64) (pt : Position) : Except Fault (Bool × VoronoiCache K) :=
  c.askSite g id (fun d idx => d.isPointInsideSiteRegion idx (g.point pt))

def isBoundary (id : UInt64) (pt : Position) (radius : UInt16) : Except Fault (Bool × VoronoiCache K) :=
  c.askSite g id (fun d idx => do
    let result ← d.enclosed idx (g.point pt) radius.toNat
    return !result)

def overlaps (id : UInt64) (pt : Position) (radius : UInt16) (accurateMode : Bool) :
    Except Fault (Bool × VoronoiCache K) :=
  if accurateMode then c.askSite g id (fun d idx => d.collides idx (g.point pt) (radius.toNat + 5))
  else .ok ((c.getIdx id).any (fun idx => (c.sites[idx]?).any (fun s => g.within s.2 pt radius)), c)

def isEnclosing (id centerNodeId : UInt64) : Except Fault (Bool × VoronoiCache K) := do
  let c ← c.recompute g
  let idx := if centerNodeId = 0 - 1 then some 0 else c.getIdx centerNodeId
  let temp ← c.voronoi.getNeighborSet idx []
  let result ← temp.anyM (fun i => do
    let s ← deref "a site out of range" c.sites[i]?
    return s.1 == id)
  return (result, c)

/-- The loop of `get_en`. `remove_count` is the length of `_en_list` at the last turn. -/
def enLoop (id : UInt64) : Nat → List (UInt64 × Position) → Nat → List Nat → VoronoiCache K →
    Except Fault (List (UInt64 × Position) × Nat × VoronoiCache K)
  | 0, en, removeCount, _, c => .ok (en, removeCount, c)
  | level + 1, en, removeCount, idxlist, c => do
    let c := (en.drop removeCount).foldl (fun c s => c.remove s.1) c
    let removeCount := en.length
    let c ← c.recompute g
    let idxlist ← c.voronoi.getNeighborSet (c.getIdx id) idxlist
    let ring ← idxlist.mapM (fun i => deref "a site out of range" c.sites[i]?)
    enLoop id level (en ++ ring) removeCount idxlist c

def getEn (id : UInt64) (level : Nat) : Except Fault (List UInt64 × VoronoiCache K) := do
  let (en, removeCount, c) ← enLoop g id level [] 0 [] c
  return (en.map Prod.fst, (en.take removeCount).foldl (fun c s => c.insert s.1 s.2) c)

end VoronoiCache

inductive VoronoiCall where
  | insert (id : UInt64) (pt : Position)
  | remove (id : UInt64)
  | update (id : UInt64) (pt : Position)
  | clear
  | contains (id : UInt64) (pt : Position)
  | isBoundary (id : UInt64) (pt : Position) (radius : UInt16)
  | overlaps (id : UInt64) (pt : Position) (radius : UInt16) (accurateMode : Bool)
  | isEnclosing (id centerNodeId : UInt64)
  | getEn (id : UInt64)

namespace VoronoiCall

def isInsert : VoronoiCall → Bool
  | insert .. => true
  | _ => false

/-- The two questions that are put to the diagram whether or not their site is there. -/
def asksNeighbors : VoronoiCall → Bool
  | isEnclosing .. => true
  | getEn _ => true
  | _ => false

end VoronoiCall

inductive VoronoiAnswer where
  | done
  | truth (b : Bool)
  | ids (l : List UInt64)

namespace VoronoiSF

def call (g : Geometry) (v : VoronoiSF) : VoronoiCall → VoronoiAnswer × VoronoiSF
  | .insert id pt => (.done, v.insert id pt)
  | .remove id => (.done, v.remove id)
  | .update id pt => (.done, v.update id pt)
  | .clear => (.done, {})
  | .contains id pt => (.truth (v.contains g id pt), v)
  | .isBoundary id pt radius => (.truth (v.isBoundary g id pt radius), v)
  | .overlaps id pt radius accurateMode => (.truth (v.overlaps g id pt radius accurateMode), v)
  | .isEnclosing id centerNodeId => (.truth (v.isEnclosing g id centerNodeId), v)
  | .getEn id => (.ids (v.getEn g id), v)

def run (g : Geometry) : VoronoiSF → List VoronoiCall → List VoronoiAnswer × VoronoiSF
  | v, [] => ([], v)
  | v, q :: qs => ((v.call g q).1 :: (run g (v.call g q).2 qs).1, (run g (v.call g q).2 qs).2)

end VoronoiSF

namespace VoronoiCache

variable {K : Type} [Double K] (g : Sites K)

def call (c : VoronoiCache K) : VoronoiCall → Except Fault (VoronoiAnswer × VoronoiCache K)
  | .insert id pt => .ok (.done, c.insert id pt)
  | .remove id => .ok (.done, c.remove id)
  | .update id pt => .ok (.done, c.update id pt)
  | .clear => .ok (.done, c.clear)
  | .contains id pt => (c.contains g id pt).map (fun r => (.truth r.1, r.2))
  | .isBoundary id pt radius => (c.isBoundary g id pt radius).map (fun r => (.truth r.1, r.2))
  | .overlaps id pt radius accurateMode => (c.overlaps g id pt radius accurateMode).map (fun r => (.truth r.1, r.2))
  | .isEnclosing id centerNodeId => (c.isEnclosing g id centerNodeId).map (fun r => (.truth r.1, r.2))
  | .getEn id => (c.getEn g id 1).map (fun r => (.ids r.1, r.2))

def run : VoronoiCache K → List VoronoiCall → Except Fault (List VoronoiAnswer × VoronoiCache K)
  | c, [] => .ok ([], c)
  | c, q :: qs => do
    let (a, c) ← c.call g q
    let (as, c) ← run c qs
    return (a :: as, c)

/-- The cache holds the sites, and their diagram unless it is marked as out of date. -/
structure Holds (c : VoronoiCache K) (v : VoronoiSF) : Prop where
  sites : c.sites = v.sites
  diagram : c.invalidated = false →
    v.sites = [] ∧ c.voronoi = {} ∨ v.sites ≠ [] ∧ g.calsfv (v.sites.map Prod.snd) = .ok c.voronoi

section Sites

variable {g} {c : VoronoiCache K} {v : VoronoiSF} {id : UInt64} {pt : Position}

theorem Holds.getIdx (h : Holds g c v) : c.getIdx id = v.getIdx id := by
  rw [VoronoiCache.getIdx, VoronoiSF.getIdx, h.sites]

theorem getIdx_eq_none : v.getIdx id = none ↔ id ∉ v.sites.map Prod.fst := by
  rw [VoronoiSF.getIdx, List.findIdx?_eq_none_iff, List.mem_map, not_exists]
  exact forall_congr' fun s => by rw [not_and, beq_eq_false_iff_ne]

theorem split_getIdx {idx : Nat} (hidx : v.getIdx id = some idx) :
    ∃ l s r, v.sites = l ++ s :: r ∧ l.length = idx ∧ s.1 = id ∧ ∀ t ∈ l ++ r, t.1 ≠ id := by
  obtain ⟨hlt, hid, -⟩ := List.findIdx?_eq_some_iff_getElem.mp hidx
  have hsplit : v.sites = v.sites.take idx ++ v.sites[idx] :: v.sites.drop (idx + 1) := by
    rw [← List.drop_eq_getElem_cons hlt, List.take_append_drop]
  refine ⟨_, _, _, hsplit, List.length_take_of_le hlt.le, eq_of_beq hid, fun t ht he => ?_⟩
  have hnd := v.nodup
  rw [hsplit, List.map_append, List.map_cons] at hnd
  refine (List.nodup_cons.mp (List.perm_middle.nodup_iff.mp hnd)).1 ?_
  rw [eq_of_beq hid, ← he, ← List.map_append]
  exact List.mem_map_of_mem ht

theorem filter_ne {l : List (UInt64 × Position)} (h : ∀ t ∈ l, t.1 ≠ id) : l.filter (fun s => s.1 != id) = l :=
  List.filter_eq_self.mpr fun t ht => bne_iff_ne.mpr (h t ht)

theorem map_ne {l : List (UInt64 × Position)} (h : ∀ t ∈ l, t.1 ≠ id) :
    l.map (fun s => if s.1 = id then (s.1, pt) else s) = l :=
  (List.map_congr_left fun t ht => if_neg (h t ht)).trans (List.map_id l)

theorem modify_length {l r : List (UInt64 × Position)} {s : UInt64 × Position} (f : UInt64 × Position → UInt64 × Position) :
    (l ++ s :: r).modify l.length f = l ++ f s :: r := by
  induction l with
  | nil => rfl
  | cons a l ih => exact congrArg (a :: ·) ih

theorem Holds.insert (h : Holds g c v) : Holds g (c.insert id pt) (v.insert id pt) := by
  rw [VoronoiCache.insert, h.getIdx, VoronoiSF.insert]
  cases hidx : v.getIdx id with
  | none =>
    rw [dif_neg (getIdx_eq_none.mp hidx)]
    exact ⟨congrArg (· ++ [(id, pt)]) h.sites, fun hi => Bool.noConfusion hi⟩
  | some idx =>
    have hmem : id ∈ v.sites.map Prod.fst := by
      by_contra hn
      exact Option.some_ne_none idx (hidx.symm.trans (getIdx_eq_none.mpr hn))
    rw [dif_pos hmem]
    exact h

theorem Holds.remove (h : Holds g c v) : Holds g (c.remove id) (v.remove id) := by
  rw [VoronoiCache.remove, h.getIdx]
  cases hidx : v.getIdx id with
  | none =>
    have hne : ∀ t ∈ v.sites, t.1 ≠ id := fun t ht he => getIdx_eq_none.mp hidx (he ▸ List.mem_map_of_mem ht)
    have hsame : (v.remove id).sites = v.sites := filter_ne hne
    exact ⟨h.sites.trans hsame.symm, by rw [hsame]; exact h.diagram⟩
  | some idx =>
    obtain ⟨l, s, r, hsplit, rfl, hs, hne⟩ := split_getIdx hidx
    refine ⟨?_, fun hi => nomatch hi⟩
    show c.sites.eraseIdx l.length = v.sites.filter (fun s => s.1 != id)
    rw [h.sites, hsplit, List.filter_append, List.filter_cons_of_neg (by simp [hs]), ← List.filter_append, filter_ne hne,
      List.eraseIdx_append_of_length_le (Nat.le_refl _), Nat.sub_self, List.eraseIdx_cons_zero]

theorem Holds.update (h : Holds g c v) : Holds g (c.update id pt) (v.update id pt) := by
  rw [VoronoiCache.update, h.getIdx]
  cases hidx : v.getIdx id with
  | none =>
    have hne : ∀ t ∈ v.sites, t.1 ≠ id := fun t ht he => getIdx_eq_none.mp hidx (he ▸ List.mem_map_of_mem ht)
    have hsame : (v.update id pt).sites = v.sites := map_ne hne
    exact ⟨h.sites.trans hsame.symm, by rw [hsame]; exact h.diagram⟩
  | some idx =>
    obtain ⟨l, s, r, hsplit, rfl, hs, hne⟩ := split_getIdx hidx
    refine ⟨?_, fun hi => nomatch hi⟩
    show c.sites.modify l.length (fun s => (s.1, pt)) = v.sites.map (fun s => if s.1 = id then (s.1, pt) else s)
    rw [h.sites, hsplit, List.map_append, List.map_cons, map_ne (fun t ht => hne t (List.mem_append_left r ht)),
      map_ne (fun t ht => hne t (List.mem_append_right l ht)), if_pos hs, modify_length]

theorem Holds.clear (h : Holds g c v) : Holds g c.clear {} := by
  have hall : ∀ (l : List Nat) (c : VoronoiCache K) (v : VoronoiSF), Holds g c v → l.length = v.sites.length →
      Holds g (l.foldl (fun c _ =>
        match c.sites.getLast? with
        | none => c
        | some s => c.remove s.1) c) {} := by
    intro l
    induction l with
    | nil =>
      intro c v h hlen
      have hnil : v.sites = [] := List.eq_nil_of_length_eq_zero hlen.symm
      exact ⟨h.sites.trans hnil, fun hi => .inl ⟨rfl, ((h.diagram hi).resolve_right fun hd => hd.1 hnil).2⟩⟩
    | cons n l ih =>
      intro c v h hlen
      rw [List.foldl_cons]
      cases hlast : c.sites.getLast? with
      | none =>
        rw [List.getLast?_eq_none_iff, h.sites] at hlast
        rw [hlast] at hlen
        exact nomatch hlen
      | some s =>
        refine ih _ (v.remove s.1) h.remove ?_
        have hmem : s ∈ v.sites := h.sites ▸ List.mem_of_getLast? hlast
        obtain ⟨idx, hidx⟩ : ∃ idx, v.getIdx s.1 = some idx := by
          cases hidx : v.getIdx s.1 with
          | none => exact absurd (List.mem_map_of_mem hmem) (getIdx_eq_none.mp hidx)
          | some idx => exact ⟨idx, rfl⟩
        obtain ⟨l', t, r, hsplit, -, ht, hne⟩ := split_getIdx hidx
        show l.length = (v.sites.filter (fun t => t.1 != s.1)).length
        rw [hsplit, List.filter_append, List.filter_cons_of_neg (by simp [ht]), ← List.filter_append, filter_ne hne]
        rw [hsplit] at hlen
        simp only [List.length_cons, List.length_append] at hlen ⊢
        omega
  exact hall _ c v h (by rw [List.length_range, h.sites])

end Sites

section Questions

variable {g} {c : VoronoiCache K} {v : VoronoiSF} {id : UInt64} {pt : Position}

theorem Holds.recompute (h : Holds g c v) (hne : v.sites ≠ []) :
    ∃ c', c.recompute g = .ok c' ∧ Holds g c' v ∧ g.calsfv (v.sites.map Prod.snd) = .ok c'.voronoi ∧
      c'.voronoi.Tessellates ((v.sites.map Prod.snd).map g.point) := by
  have hne' : (v.sites.map Prod.snd).map g.point ≠ [] := by simpa using hne
  obtain ⟨d, hall, ht⟩ := Diagram.calsfv_tessellates hne'
  have hd : g.calsfv (v.sites.map Prod.snd) = .ok d := hall _ (by simp)
  unfold VoronoiCache.recompute
  cases hi : c.invalidated with
  | true =>
    refine ⟨{ c with invalidated := false, voronoi := d }, ?_, ⟨h.sites, fun _ => .inr ⟨hne, hd⟩⟩, hd, ht⟩
    rw [if_pos rfl, h.sites, hd, ok_bind]
    rfl
  | false =>
    have hcd := ((h.diagram hi).resolve_left fun he => hne he.1).2
    obtain rfl : d = c.voronoi := Except.ok.inj (hd.symm.trans hcd)
    exact ⟨c, if_neg Bool.false_ne_true, h, hd, ht⟩

theorem used_of_sites (h : Holds g c v) (hne : v.sites ≠ []) : c.Used := .inr (h.sites ▸ hne)

theorem Holds.askSite (h : Holds g c v) {ask : Diagram K → Nat → Except Fault Bool} {answer : Nat → Bool}
    (hask : ∀ d idx, g.calsfv (v.sites.map Prod.snd) = .ok d → idx < ((v.sites.map Prod.snd).map g.point).length →
      d.Tessellates ((v.sites.map Prod.snd).map g.point) → ask d idx = .ok (answer idx)) :
    ∃ c', c.askSite g id ask = .ok ((v.getIdx id).any answer, c') ∧ Holds g c' v ∧ (c'.Used ↔ c.Used) := by
  unfold VoronoiCache.askSite
  rw [h.getIdx]
  cases hidx : v.getIdx id with
  | none => exact ⟨c, rfl, h, Iff.rfl⟩
  | some idx =>
    obtain ⟨l, s, r, hsplit, rfl, -⟩ := split_getIdx hidx
    have hne : v.sites ≠ [] := by simp [hsplit]
    obtain ⟨c', ho, h', hd, ht⟩ := h.recompute hne
    refine ⟨c', ?_, h', iff_of_true (used_of_sites h' hne) (used_of_sites h hne)⟩
    dsimp only
    rw [ho, ok_bind, hask _ _ hd (by simp [hsplit]) ht]
    rfl

theorem ask_eq {α : Type} {d : Diagram K} {ps : List Position} {f : Diagram K → Except Fault α} {a none : α}
    (hd : g.calsfv ps = .ok d) (hf : f d = .ok a) : ((g.calsfv ps).bind f).toOption.getD none = a := by
  rw [hd]
  show (f d).toOption.getD none = a
  rw [hf]
  rfl

variable (base : Geometry)

theorem Holds.contains (h : Holds g c v) (id : UInt64) (pt : Position) :
    ∃ c', c.contains g id pt = .ok (v.contains (g.geometry base) id pt, c') ∧ Holds g c' v ∧ (c'.Used ↔ c.Used) := by
  refine h.askSite fun d idx hd hidx ht => ?_
  obtain ⟨b, hb⟩ := ht.isPointInsideSiteRegion hidx (g.point pt)
  exact hb.trans (congrArg Except.ok (ask_eq hd hb).symm)

theorem Holds.isBoundary (h : Holds g c v) (id : UInt64) (pt : Position) (radius : UInt16) :
    ∃ c', c.isBoundary g id pt radius = .ok (v.isBoundary (g.geometry base) id pt radius, c') ∧ Holds g c' v ∧
      (c'.Used ↔ c.Used) := by
  refine h.askSite fun d idx hd hidx ht => ?_
  obtain ⟨b, hb, -⟩ := ht.enclosed hidx (g.point pt) radius.toNat
  rw [hb, ok_bind]
  exact congrArg Except.ok (congrArg Bool.not (ask_eq hd hb).symm)

theorem Holds.overlaps (h : Holds g c v) (id : UInt64) (pt : Position) (radius : UInt16) (accurateMode : Bool) :
    ∃ c', c.overlaps g id pt radius accurateMode = .ok (v.overlaps (g.geometry base) id pt radius accurateMode, c') ∧
      Holds g c' v ∧ (c'.Used ↔ c.Used) := by
  unfold VoronoiCache.overlaps VoronoiSF.overlaps
  cases accurateMode with
  | false =>
    refine ⟨c, ?_, h, Iff.rfl⟩
    rw [if_neg Bool.false_ne_true, h.getIdx, h.sites]
    rfl
  | true =>
    simp only [if_true]
    refine h.askSite fun d idx hd hidx ht => ?_
    obtain ⟨b, hb⟩ := ht.collides hidx (g.point pt) (radius.toNat + 5)
    exact hb.trans (congrArg Except.ok (ask_eq hd hb).symm)

end Questions

section Neighbors

variable {g} {c : VoronoiCache K} {v : VoronoiSF} {id : UInt64} (base : Geometry)

/-- A diagram that is there, or none for no sites: the state in which neighbours can be asked for. -/
theorem Holds.neighbors (h : Holds g c v) (hask : ¬ (v.sites = [] ∧ c.invalidated = true)) :
    ∃ c', c.recompute g = .ok c' ∧ Holds g c' v ∧ (c'.Used ↔ c.Used) ∧
      ∀ idx, c'.voronoi.getNeighborSet idx [] = .ok ((g.geometry base).getNeighborSet (v.sites.map Prod.snd) idx) ∧
        ∀ i ∈ (g.geometry base).getNeighborSet (v.sites.map Prod.snd) idx, i < v.sites.length := by
  by_cases hne : v.sites = []
  · have hi : c.invalidated = false := by simpa using fun hi => hask ⟨hne, hi⟩
    have hd := ((h.diagram hi).resolve_right fun hd => hd.1 hne).2
    refine ⟨c, if_neg (by simp [hi]), h, Iff.rfl, fun idx => ?_⟩
    have hnil : (g.geometry base).getNeighborSet (v.sites.map Prod.snd) idx = [] := by
      rw [hne]
      rfl
    rw [hnil, hd]
    refine ⟨?_, fun i hi => absurd hi List.not_mem_nil⟩
    cases idx with
    | none => rfl
    | some i => rfl
  · obtain ⟨c', ho, h', hd, ht⟩ := h.recompute hne
    refine ⟨c', ho, h', iff_of_true (used_of_sites h' hne) (used_of_sites h hne), fun idx => ?_⟩
    obtain ⟨nset, hn, hlt⟩ := ht.getNeighborSet_lt idx
    have heq : (g.geometry base).getNeighborSet (v.sites.map Prod.snd) idx = nset := ask_eq hd hn
    rw [heq]
    exact ⟨hn, fun i hi => by simpa using hlt i hi⟩

theorem recompute_emptied (hs : c.sites = []) (hi : c.invalidated = true) : ∃ f, c.recompute g = .error f := by
  unfold VoronoiCache.recompute
  rw [if_pos hi, hs]
  exact ⟨_, rfl⟩

theorem mapM_deref {sites : List (UInt64 × Position)} {is : List Nat} (h : ∀ i ∈ is, i < sites.length) :
    is.mapM (fun i => deref "a site out of range" sites[i]?) = .ok (is.filterMap (fun i => sites[i]?)) := by
  induction is with
  | nil => rfl
  | cons i is ih =>
    obtain ⟨hi, his⟩ := List.forall_mem_cons.mp h
    rw [List.mapM_cons, List.getElem?_eq_getElem hi, deref_some, ok_bind, ih his, ok_bind,
      List.filterMap_cons_some (List.getElem?_eq_getElem hi)]
    rfl

theorem map_filterMap_sites (v : VoronoiSF) (is : List Nat) :
    (is.filterMap (fun i => v.sites[i]?)).map Prod.fst = is.filterMap (fun i => v.ids[i]?) := by
  rw [List.map_filterMap]
  refine List.filterMap_congr fun i _ => ?_
  rw [VoronoiSF.ids, List.getElem?_map]

theorem Holds.isEnclosing (h : Holds g c v) (id : UInt64) (centerNodeId : UInt64) (hask : ¬ (v.sites = [] ∧ c.invalidated = true)) :
    ∃ c', c.isEnclosing g id centerNodeId = .ok (v.isEnclosing (g.geometry base) id centerNodeId, c') ∧ Holds g c' v ∧
      (c'.Used ↔ c.Used) := by
  obtain ⟨c', ho, h', hused, hset⟩ := h.neighbors base hask
  refine ⟨c', ?_, h', hused⟩
  unfold VoronoiCache.isEnclosing VoronoiSF.isEnclosing
  rw [ho, ok_bind, h'.getIdx]
  dsimp only
  generalize (if centerNodeId = 0 - 1 then some 0 else v.getIdx centerNodeId) = idx
  obtain ⟨hn, hlt⟩ := hset idx
  rw [hn, ok_bind]
  generalize (g.geometry base).getNeighborSet (v.sites.map Prod.snd) idx = nset at hlt
  have hany : nset.anyM (fun i => do
      let s ← deref "a site out of range" c'.sites[i]?
      return s.1 == id) = (.ok (nset.any (fun i => v.ids[i]? == some id)) : Except Fault Bool) := by
    refine anyM_eq fun i hi => ?_
    have hi' := hlt i hi
    rw [h'.sites, List.getElem?_eq_getElem hi', deref_some, ok_bind, VoronoiSF.ids, List.getElem?_map,
      List.getElem?_eq_getElem hi']
    rfl
  rw [hany, ok_bind]
  refine congrArg (fun b => Except.ok (b, c')) ?_
  rw [Bool.eq_iff_iff, List.any_eq_true, List.contains_iff_mem, List.mem_filterMap]
  exact exists_congr fun i => and_congr_right fun _ => beq_iff_eq

theorem Holds.getEn_one (h : Holds g c v) (id : UInt64) (hask : ¬ (v.sites = [] ∧ c.invalidated = true)) :
    ∃ c', c.getEn g id 1 = .ok (v.getEn (g.geometry base) id, c') ∧ Holds g c' v ∧ (c'.Used ↔ c.Used) := by
  obtain ⟨c', ho, h', hused, hset⟩ := h.neighbors base hask
  refine ⟨c', ?_, h', hused⟩
  obtain ⟨hn, hlt⟩ := hset (v.getIdx id)
  unfold VoronoiCache.getEn
  rw [enLoop, List.drop_nil, List.foldl_nil, ho, ok_bind]
  dsimp only
  rw [h'.getIdx, hn, ok_bind, h'.sites, mapM_deref hlt, ok_bind]
  rw [enLoop, ok_bind, VoronoiSF.getEn, ← map_filterMap_sites]
  rfl

end Neighbors

section Runs

variable {g} {c : VoronoiCache K} {v : VoronoiSF} (base : Geometry)

/-- Every call is answered as by a diagram of the sites there are, but for a question about neighbours
when the last site is gone. -/
theorem Holds.call (h : Holds g c v) (q : VoronoiCall)
    (hask : ¬ (q.asksNeighbors = true ∧ v.sites = [] ∧ c.invalidated = true)) :
    ∃ c', c.call g q = .ok ((v.call (g.geometry base) q).1, c') ∧ Holds g c' (v.call (g.geometry base) q).2 ∧
      (c'.Used ↔ c.Used ∨ q.isInsert = true) := by
  have hsame : ∀ {c' : VoronoiCache K} {b : Bool}, b = false → (c'.Used ↔ c.Used) → (c'.Used ↔ c.Used ∨ b = true) := by
    rintro c' b rfl hu
    rw [hu]
    exact (or_iff_left Bool.false_ne_true).symm
  cases q with
  | insert id pt => exact ⟨_, rfl, h.insert, iff_of_true used_insert (.inr rfl)⟩
  | remove id => exact ⟨_, rfl, h.remove, hsame rfl used_remove⟩
  | update id pt => exact ⟨_, rfl, h.update, hsame rfl used_update⟩
  | clear => exact ⟨_, rfl, h.clear, hsame rfl used_clear⟩
  | contains id pt =>
    obtain ⟨c', ho, h', hu⟩ := h.contains base id pt
    exact ⟨c', by rw [VoronoiCache.call, ho]; rfl, h', hsame rfl hu⟩
  | isBoundary id pt radius =>
    obtain ⟨c', ho, h', hu⟩ := h.isBoundary base id pt radius
    exact ⟨c', by rw [VoronoiCache.call, ho]; rfl, h', hsame rfl hu⟩
  | overlaps id pt radius accurateMode =>
    obtain ⟨c', ho, h', hu⟩ := h.overlaps base id pt radius accurateMode
    exact ⟨c', by rw [VoronoiCache.call, ho]; rfl, h', hsame rfl hu⟩
  | isEnclosing id centerNodeId =>
    obtain ⟨c', ho, h', hu⟩ := h.isEnclosing base id centerNodeId (fun hs => hask ⟨rfl, hs⟩)
    exact ⟨c', by rw [VoronoiCache.call, ho]; rfl, h', hsame rfl hu⟩
  | getEn id =>
    obtain ⟨c', ho, h', hu⟩ := h.getEn_one base id (fun hs => hask ⟨rfl, hs⟩)
    exact ⟨c', by rw [VoronoiCache.call, ho]; rfl, h', hsame rfl hu⟩

theorem call_emptied {q : VoronoiCall} (hq : q.asksNeighbors = true) (hs : c.sites = []) (hi : c.invalidated = true) :
    ∃ f, c.call g q = .error f := by
  obtain ⟨f, hf⟩ := recompute_emptied (g := g) hs hi
  cases q with
  | isEnclosing id centerNodeId => exact ⟨f, by rw [VoronoiCache.call, VoronoiCache.isEnclosing, hf]; rfl⟩
  | getEn id =>
    refine ⟨f, ?_⟩
    rw [VoronoiCache.call, VoronoiCache.getEn, enLoop, List.drop_nil, List.foldl_nil, hf]
    rfl
  | _ => exact nomatch hq

/-- Neighbours are asked for when there were sites and none is left. -/
def AsksEmptied (geometry : Geometry) (v : VoronoiSF) (qs : List VoronoiCall) : Prop :=
  ∃ pre q post, qs = pre ++ q :: post ∧ q.asksNeighbors = true ∧ (v.run geometry pre).2.sites = [] ∧
    ∃ p ∈ pre, p.isInsert = true

theorem Holds.run (h : Holds g c v) (qs : List VoronoiCall) :
    let emptied := ∃ pre q post, qs = pre ++ q :: post ∧ q.asksNeighbors = true ∧
      (v.run (g.geometry base) pre).2.sites = [] ∧ (c.Used ∨ ∃ p ∈ pre, p.isInsert = true)
    ¬ emptied ∧ (∃ c', c.run g qs = .ok ((v.run (g.geometry base) qs).1, c') ∧ Holds g c' (v.run (g.geometry base) qs).2) ∨
      emptied ∧ ∃ f, c.run g qs = .error f := by
  intro emptied
  induction qs generalizing c v with
  | nil =>
    refine .inl ⟨?_, c, rfl, h⟩
    rintro ⟨pre, q, post, hqs, -⟩
    simp at hqs
  | cons q qs ih =>
    by_cases hask : q.asksNeighbors = true ∧ v.sites = [] ∧ c.invalidated = true
    · obtain ⟨hq, hs, hi⟩ := hask
      obtain ⟨f, hf⟩ := call_emptied (g := g) hq (h.sites.trans hs) hi
      refine .inr ⟨⟨[], q, qs, rfl, hq, hs, .inl (.inl hi)⟩, f, ?_⟩
      rw [VoronoiCache.run, hf]
      rfl
    · obtain ⟨c', ho, h', hu⟩ := h.call base q hask
      have hrun : c.run g (q :: qs) = do
          let (as, c) ← c'.run g qs
          return ((v.call (g.geometry base) q).1 :: as, c) := by
        rw [VoronoiCache.run, ho]
        rfl
      have hiff : emptied ↔ ∃ pre p post, qs = pre ++ p :: post ∧ p.asksNeighbors = true ∧
          ((v.call (g.geometry base) q).2.run (g.geometry base) pre).2.sites = [] ∧
            (c'.Used ∨ ∃ p ∈ pre, p.isInsert = true) := by
        constructor
        · rintro ⟨pre, p, post, hqs, hp, hs, hused⟩
          cases pre with
          | nil =>
            obtain ⟨rfl, rfl⟩ := List.cons.inj hqs
            have hc := hused.resolve_right (by simp)
            have hs' : v.sites = [] := hs
            exact absurd ⟨hp, hs', hc.resolve_right (not_not.mpr (h.sites.trans hs'))⟩ hask
          | cons x pre =>
            obtain ⟨rfl, rfl⟩ := List.cons.inj hqs
            refine ⟨pre, p, post, rfl, hp, hs, ?_⟩
            rw [hu]
            rcases hused with hc | ⟨y, hy, hyi⟩
            · exact .inl (.inl hc)
            · rcases List.mem_cons.mp hy with rfl | hy
              · exact .inl (.inr hyi)
              · exact .inr ⟨y, hy, hyi⟩
        · rintro ⟨pre, p, post, rfl, hp, hs, hused⟩
          refine ⟨q :: pre, p, post, rfl, hp, hs, ?_⟩
          rw [hu] at hused
          rcases hused with (hc | hq) | ⟨x, hx, hxi⟩
          · exact .inl hc
          · exact .inr ⟨q, List.mem_cons_self .., hq⟩
          · exact .inr ⟨x, List.mem_cons_of_mem q hx, hxi⟩
      rw [hiff, hrun]
      rcases ih h' with ⟨hno, c'', hc, h''⟩ | ⟨hyes, f, hf⟩
      · exact .inl ⟨hno, c'', by rw [hc]; rfl, h''⟩
      · exact .inr ⟨hyes, f, by rw [hf]; rfl⟩

theorem holds_empty : Holds g ({} : VoronoiCache K) {} := ⟨rfl, fun _ => .inl ⟨rfl, rfl⟩⟩

/-- Keeping the diagram changes no answer, and the code fails in one case only: it is asked for
neighbours after the last site was removed. -/
theorem cache_transparent (g : Sites K) (base : Geometry) (qs : List VoronoiCall) :
    (¬ AsksEmptied (g.geometry base) {} qs → ∃ c, run g {} qs = .ok ((VoronoiSF.run (g.geometry base) {} qs).1, c)) ∧
      (AsksEmptied (g.geometry base) {} qs → ∃ f, run g {} qs = .error f) := by
  have hunused : ¬ ({} : VoronoiCache K).Used := fun hu => hu.elim (fun hi => nomatch hi) (fun hs => hs rfl)
  have hrun := (holds_empty (g := g)).run base qs
  simp only [hunused, false_or] at hrun
  rcases hrun with ⟨hno, c, hc, -⟩ | ⟨hyes, hf⟩
  · exact ⟨fun _ => ⟨c, hc⟩, fun hyes => absurd hyes hno⟩
  · exact ⟨fun hno => absurd hyes hno, fun _ => hf⟩

theorem holds_of_run {as : List VoronoiAnswer} {qs : List VoronoiCall} (hrun : run g {} qs = .ok (as, c)) :
    Holds g c (VoronoiSF.run (g.geometry base) {} qs).2 := by
  rcases (holds_empty (g := g)).run base qs with ⟨-, c', hc, h⟩ | ⟨-, f, hf⟩
  · obtain ⟨-, rfl⟩ := Prod.mk.inj (Except.ok.inj (hc.symm.trans hrun))
    exact h
  · exact nomatch hf.symm.trans hrun

end Runs

end VoronoiCache

namespace VoronoiSF

/-- The enclosing neighbours with their positions. -/
def ring (g : Geometry) (v : VoronoiSF) (id : UInt64) : List (UInt64 × Position) :=
  (g.getNeighborSet (v.sites.map Prod.snd) (v.getIdx id)).filterMap (fun i => v.sites[i]?)

def removeAll (v : VoronoiSF) (l : List (UInt64 × Position)) : VoronoiSF := l.foldl (fun v s => v.remove s.1) v

/-- The enclosing neighbours, those of the site when they are gone, and so on. -/
def rings (g : Geometry) (id : UInt64) : Nat → VoronoiSF → List (UInt64 × Position)
  | 0, _ => []
  | level + 1, v => v.ring g id ++ rings g id level (v.removeAll (v.ring g id))

/-- No site comes out as its own neighbour, also when others are gone. -/
def Apart (g : Geometry) (v : VoronoiSF) : Prop :=
  ∀ l : List (UInt64 × Position), l.Sublist v.sites → ∀ i < l.length, i ∉ g.getNeighborSet (l.map Prod.snd) (some i)

variable {g : Geometry} {v : VoronoiSF} {id : UInt64} {l : List (UInt64 × Position)}

theorem sites_removeAll (v : VoronoiSF) (l : List (UInt64 × Position)) :
    (v.removeAll l).sites = v.sites.filter (fun s => s.1 ∉ l.map Prod.fst) := by
  induction l generalizing v with
  | nil => simp [removeAll]
  | cons s l ih =>
    show ((v.remove s.1).removeAll l).sites = _
    rw [ih]
    show (v.sites.filter (fun t => t.1 != s.1)).filter (fun t => t.1 ∉ l.map Prod.fst) = _
    rw [List.filter_filter]
    refine List.filter_congr fun t _ => ?_
    rw [Bool.eq_iff_iff]
    simp only [Bool.and_eq_true, decide_eq_true_eq, bne_iff_ne, List.map_cons, List.mem_cons, not_or]
    exact and_comm

theorem removeAll_append (v : VoronoiSF) (l m : List (UInt64 × Position)) :
    v.removeAll (l ++ m) = (v.removeAll l).removeAll m := List.foldl_append ..

theorem Apart.removeAll (h : v.Apart g) : (v.removeAll l).Apart g := by
  intro m hm
  rw [sites_removeAll] at hm
  exact h m (hm.trans List.filter_sublist)

/-- Sites that are taken out and put in again are all there. -/
theorem insert_removeAll (hl : l ⊆ v.sites) (hnd : (l.map Prod.fst).Nodup) :
    (l.foldl (fun v s => v.insert s.1 s.2) (v.removeAll l)).sites.Perm v.sites := by
  have hins : ∀ (m : List (UInt64 × Position)) (w : VoronoiSF), (m.map Prod.fst).Nodup → (∀ s ∈ m, s.1 ∉ w.ids) →
      (m.foldl (fun v s => v.insert s.1 s.2) w).sites = w.sites ++ m := by
    intro m
    induction m with
    | nil => exact fun w _ _ => (List.append_nil _).symm
    | cons s m ih =>
      intro w hnd hnot
      obtain ⟨hs, hm⟩ := List.forall_mem_cons.mp hnot
      obtain ⟨hsm, hnd⟩ := List.nodup_cons.mp hnd
      have hw : (w.insert s.1 s.2).sites = w.sites ++ [s] := by
        rw [VoronoiSF.insert, dif_neg (show s.1 ∉ w.sites.map Prod.fst from hs)]
      rw [List.foldl_cons, ih _ hnd (fun t ht => ?_), hw, List.append_assoc]
      · rfl
      · rw [ids, hw, List.map_append, List.mem_append, not_or]
        refine ⟨hm t ht, fun he => hsm ?_⟩
        have he : t.1 = s.1 := by simpa using he
        exact he ▸ List.mem_map_of_mem ht
  rw [hins l _ hnd, sites_removeAll]
  · have hvnd : v.sites.Nodup := List.Nodup.of_map _ v.nodup
    have hinj : ∀ s ∈ v.sites, ∀ t ∈ v.sites, s.1 = t.1 → s = t :=
      fun s hs t ht he => List.inj_on_of_nodup_map v.nodup hs ht he
    refine (List.perm_ext_iff_of_nodup ?_ hvnd).mpr fun s => ?_
    · refine List.nodup_append.mpr ⟨hvnd.filter _, List.Nodup.of_map _ hnd, fun s hs t ht he => ?_⟩
      have := (List.mem_filter.mp hs).2
      simp only [decide_eq_true_eq] at this
      exact this (he ▸ List.mem_map_of_mem ht)
    · rw [List.mem_append, List.mem_filter]
      constructor
      · rintro (⟨hs, -⟩ | hs)
        · exact hs
        · exact hl hs
      · intro hs
        by_cases hm : s.1 ∈ l.map Prod.fst
        · obtain ⟨t, ht, he⟩ := List.mem_map.mp hm
          exact .inr (hinj t (hl ht) s hs he ▸ ht)
        · exact .inl ⟨hs, by simpa using hm⟩
  · intro s hs hm
    rw [ids, sites_removeAll] at hm
    obtain ⟨t, ht, he⟩ := List.mem_map.mp hm
    have := (List.mem_filter.mp ht).2
    simp only [decide_eq_true_eq] at this
    exact this (he ▸ List.mem_map_of_mem hs)

end VoronoiSF

namespace VoronoiCache

open VoronoiSF

variable {K : Type} [Double K] {g : Sites K} {c : VoronoiCache K} {v w : VoronoiSF} {id : UInt64} {base : Geometry}

theorem mem_sites_removeAll {l : List (UInt64 × Position)} {s : UInt64 × Position} :
    s ∈ (v.removeAll l).sites ↔ s ∈ v.sites ∧ s.1 ∉ l.map Prod.fst := by
  rw [sites_removeAll, List.mem_filter, decide_eq_true_eq]

theorem mem_ids_removeAll {l : List (UInt64 × Position)} {k : UInt64} :
    k ∈ (v.removeAll l).ids ↔ k ∈ v.ids ∧ k ∉ l.map Prod.fst := by
  rw [ids, ids, List.mem_map, List.mem_map]
  constructor
  · rintro ⟨s, hs, rfl⟩
    exact ⟨⟨s, (mem_sites_removeAll.mp hs).1, rfl⟩, (mem_sites_removeAll.mp hs).2⟩
  · rintro ⟨⟨s, hs, rfl⟩, hk⟩
    exact ⟨s, mem_sites_removeAll.mpr ⟨hs, hk⟩, rfl⟩

theorem exists_getIdx (hid : id ∈ v.ids) : ∃ idx, v.getIdx id = some idx := by
  cases hidx : v.getIdx id with
  | none => exact absurd hid (getIdx_eq_none.mp hidx)
  | some idx => exact ⟨idx, rfl⟩

/-- The enclosing neighbours of a site are other sites, each of them once, and there are some unless it
is alone. -/
theorem ring_spec (g : Sites K) (hid : id ∈ v.ids) (hapart : v.Apart (g.geometry base)) :
    ((v.ring (g.geometry base) id).map Prod.fst).Nodup ∧ v.ring (g.geometry base) id ⊆ v.sites ∧
      id ∉ (v.ring (g.geometry base) id).map Prod.fst ∧ (2 ≤ v.sites.length → v.ring (g.geometry base) id ≠ []) := by
  obtain ⟨idx, hidx⟩ := exists_getIdx hid
  obtain ⟨hlt, hget, -⟩ := List.findIdx?_eq_some_iff_getElem.mp hidx
  have hne : (v.sites.map Prod.snd).map g.point ≠ [] := by
    intro hnil
    rw [List.map_eq_nil_iff, List.map_eq_nil_iff] at hnil
    rw [hnil] at hlt
    exact Nat.not_lt_zero _ hlt
  obtain ⟨d, hall, ht⟩ := Diagram.calsfv_tessellates hne
  have hd : g.calsfv (v.sites.map Prod.snd) = .ok d := hall _ (by simp)
  have hlen : ((v.sites.map Prod.snd).map g.point).length = v.sites.length := by simp
  obtain ⟨nset, ho, hnd, hmem⟩ := ht.getNeighborSet (hlen ▸ hlt)
  have hset : (g.geometry base).getNeighborSet (v.sites.map Prod.snd) (some idx) = nset := ask_eq hd (ho [])
  have hself : idx ∉ nset := hset ▸ hapart v.sites (List.Sublist.refl _) idx hlt
  have hids : ∀ i j : Nat, ∀ k, k ∈ v.ids[i]? → k ∈ v.ids[j]? → i = j := by
    intro i j k hi hj
    have hi' : i < v.ids.length := (List.getElem?_eq_some_iff.mp hi).1
    exact (List.getElem?_inj hi' v.nodup).mp (Eq.trans hi hj.symm)
  have hidget : v.ids[idx]? = some id := by
    rw [ids, List.getElem?_map, List.getElem?_eq_getElem hlt, Option.map_some]
    exact congrArg some (eq_of_beq hget)
  have hring : v.ring (g.geometry base) id = nset.filterMap (fun i => v.sites[i]?) := by
    rw [ring, hidx, hset]
  rw [hring, map_filterMap_sites]
  refine ⟨hnd.filterMap fun i j k hi hj => hids i j k hi hj, fun s hs => ?_, fun hm => ?_, fun h2 hnil => ?_⟩
  · obtain ⟨i, -, hi⟩ := List.mem_filterMap.mp hs
    exact List.mem_of_getElem? hi
  · obtain ⟨i, hi, hk⟩ := List.mem_filterMap.mp hm
    exact hself (hids i idx id hk hidget ▸ hi)
  · obtain ⟨j, hj, hjne⟩ : ∃ j < v.sites.length, j ≠ idx := by
      by_cases h0 : idx = 0
      · exact ⟨1, by omega, by omega⟩
      · exact ⟨0, by omega, fun he => h0 he.symm⟩
    rcases Relation.ReflTransGen.cases_head (ht.connected idx (hlen ▸ hlt) j (hlen ▸ hj)) with he | ⟨i, ⟨k, hb⟩, -⟩
    · exact hjne he.symm
    · have hi : i ∈ nset := (hmem i).mpr ⟨k, hb⟩
      have hilt : i < v.sites.length := hlen ▸ (hb.lt ht).2
      have hin : v.sites[i] ∈ nset.filterMap (fun i => v.sites[i]?) :=
        List.mem_filterMap.mpr ⟨i, hi, List.getElem?_eq_getElem hilt⟩
      rw [hnil] at hin
      exact List.not_mem_nil hin

theorem rings_spec (g : Sites K) (level : Nat) (hid : id ∈ v.ids) (hapart : v.Apart (g.geometry base)) :
    ((v.rings (g.geometry base) id level).map Prod.fst).Nodup ∧ v.rings (g.geometry base) id level ⊆ v.sites ∧
      id ∉ (v.rings (g.geometry base) id level).map Prod.fst ∧
      (v.sites.length ≤ level + 1 → ∀ k ∈ v.ids, k ≠ id → k ∈ (v.rings (g.geometry base) id level).map Prod.fst) := by
  induction level generalizing v with
  | zero =>
    refine ⟨List.nodup_nil, List.nil_subset _, List.not_mem_nil, fun hlen k hk hne => ?_⟩
    have hone : v.ids.length ≤ 1 := by rwa [ids, List.length_map]
    obtain ⟨i, hi, rfl⟩ := List.getElem_of_mem hk
    obtain ⟨j, hj, rfl⟩ := List.getElem_of_mem hid
    obtain rfl : i = j := by omega
    exact absurd rfl hne
  | succ level ih =>
    obtain ⟨hnd, hsub, hnot, hne⟩ := ring_spec g hid hapart
    have hid' : id ∈ (v.removeAll (v.ring (g.geometry base) id)).ids := mem_ids_removeAll.mpr ⟨hid, hnot⟩
    obtain ⟨hnd', hsub', hnot', hall⟩ := ih hid' hapart.removeAll
    rw [rings, List.map_append]
    have hdis : ∀ k ∈ (v.ring (g.geometry base) id).map Prod.fst,
        k ∉ ((v.removeAll (v.ring (g.geometry base) id)).rings (g.geometry base) id level).map Prod.fst := by
      intro k hk hk'
      obtain ⟨s, hs, rfl⟩ := List.mem_map.mp hk'
      exact (mem_sites_removeAll.mp (hsub' hs)).2 hk
    refine ⟨List.nodup_append'.mpr ⟨hnd, hnd', fun k hk hk' => hdis k hk hk'⟩, List.append_subset.mpr ⟨hsub, fun s hs =>
      (mem_sites_removeAll.mp (hsub' hs)).1⟩, ?_, fun hlen k hk hkne => ?_⟩
    · rw [List.mem_append, not_or]
      exact ⟨hnot, hnot'⟩
    · rw [List.mem_append]
      by_cases hkr : k ∈ (v.ring (g.geometry base) id).map Prod.fst
      · exact .inl hkr
      · refine .inr (hall ?_ k (mem_ids_removeAll.mpr ⟨hk, hkr⟩) hkne)
        by_cases h2 : 2 ≤ v.sites.length
        · -- the ring is not empty, so that fewer sites are left
          obtain ⟨s, hs⟩ := List.exists_mem_of_ne_nil _ (hne h2)
          have hlt : (v.removeAll (v.ring (g.geometry base) id)).sites.length < v.sites.length := by
            rw [sites_removeAll]
            refine List.length_filter_lt_length_iff_exists.mpr ⟨s, hsub hs, ?_⟩
            simpa using ⟨s.2, hs⟩
          omega
        · have hle : (v.removeAll (v.ring (g.geometry base) id)).sites.length ≤ v.sites.length := by
            rw [sites_removeAll]
            exact List.length_filter_le ..
          omega

theorem Holds.removeAll (h : Holds g c v) (l : List (UInt64 × Position)) :
    Holds g (l.foldl (fun c s => c.remove s.1) c) (v.removeAll l) := by
  induction l generalizing c v with
  | nil => exact h
  | cons s l ih => exact ih h.remove

theorem Holds.insertAll (h : Holds g c v) (l : List (UInt64 × Position)) :
    Holds g (l.foldl (fun c s => c.insert s.1 s.2) c) (l.foldl (fun v s => v.insert s.1 s.2) v) := by
  induction l generalizing c v with
  | nil => exact h
  | cons s l ih => exact ih h.insert

/-- A turn of the loop of `get_en` takes out the neighbours found so far and finds those that are then next. -/
theorem enLoop_ok (level : Nat) (en : List (UInt64 × Position)) (removeCount : Nat) (idxlist : List Nat)
    (h : Holds g c (v.removeAll (en.take removeCount))) (hid : id ∈ (v.removeAll en).ids) (hapart : v.Apart (g.geometry base)) :
    let en' := en ++ (v.removeAll en).rings (g.geometry base) id level
    ∃ m c', enLoop g id level en removeCount idxlist c = .ok (en', m, c') ∧ Holds g c' (v.removeAll (en'.take m)) ∧
      (level = 0 → m = removeCount) ∧ (level = 1 → m = en.length) := by
  induction level generalizing c en removeCount idxlist with
  | zero =>
    intro en'
    have hen : en' = en := List.append_nil en
    exact ⟨removeCount, c, by rw [enLoop, hen], by rw [hen]; exact h, fun _ => rfl, fun he => absurd he Nat.zero_ne_one⟩
  | succ level ih =>
    intro en'
    have h₁ : Holds g ((en.drop removeCount).foldl (fun c s => c.remove s.1) c) (v.removeAll en) := by
      have := h.removeAll (en.drop removeCount)
      rwa [← removeAll_append, List.take_append_drop] at this
    have hw : (v.removeAll en).sites ≠ [] := by
      intro hnil
      rw [ids, hnil] at hid
      exact List.not_mem_nil hid
    obtain ⟨c₂, ho, h₂, hd, ht⟩ := h₁.recompute hw
    obtain ⟨idx, hidx⟩ := exists_getIdx hid
    obtain ⟨hlt, -, -⟩ := List.findIdx?_eq_some_iff_getElem.mp hidx
    have hlen : (((v.removeAll en).sites.map Prod.snd).map g.point).length = (v.removeAll en).sites.length := by simp
    obtain ⟨nset, hn, -, hmem⟩ := ht.getNeighborSet (hlen ▸ hlt)
    have hset : (g.geometry base).getNeighborSet ((v.removeAll en).sites.map Prod.snd) (some idx) = nset := ask_eq hd (hn [])
    have hring : (v.removeAll en).ring (g.geometry base) id = nset.filterMap (fun i => (v.removeAll en).sites[i]?) := by
      rw [ring, hidx, hset]
    have hltn : ∀ i ∈ nset, i < (v.removeAll en).sites.length := by
      intro i hi
      obtain ⟨k, hb⟩ := (hmem i).mp hi
      exact hlen ▸ (hb.lt ht).2
    have hspec := ring_spec g hid hapart.removeAll
    have hid' : id ∈ (v.removeAll (en ++ (v.removeAll en).ring (g.geometry base) id)).ids := by
      rw [removeAll_append]
      exact mem_ids_removeAll.mpr ⟨hid, hspec.2.2.1⟩
    have h₂' : Holds g c₂ (v.removeAll ((en ++ (v.removeAll en).ring (g.geometry base) id).take en.length)) := by
      rwa [List.take_left']
      rfl
    obtain ⟨m, c', hloop, h', hzero, -⟩ := ih _ _ nset h₂' hid'
    have hen : en' = en ++ (v.removeAll en).ring (g.geometry base) id ++
        (v.removeAll (en ++ (v.removeAll en).ring (g.geometry base) id)).rings (g.geometry base) id level := by
      rw [removeAll_append, List.append_assoc]
      rfl
    refine ⟨m, c', ?_, by rw [hen]; exact h', fun he => absurd he (Nat.succ_ne_zero level), fun he => hzero (Nat.succ.inj he)⟩
    rw [enLoop, ho, ok_bind, h₂.getIdx, hidx, hn, ok_bind, h₂.sites, mapM_deref hltn, ok_bind, ← hring, hloop, hen]

/-- At any level, `get_en` lists the rings of neighbours around a site, no other site twice, and all of
them when the levels are as many. It puts back what it takes out, and takes out nothing at level one. -/
theorem getEn_rings (g : Sites K) (base : Geometry) (id : UInt64) {qs : List VoronoiCall} {as : List VoronoiAnswer}
    (hrun : run g {} qs = .ok (as, c)) (hid : id ∈ (VoronoiSF.run (g.geometry base) {} qs).2.ids)
    (hapart : (VoronoiSF.run (g.geometry base) {} qs).2.Apart (g.geometry base)) (level : Nat) :
    let v := (VoronoiSF.run (g.geometry base) {} qs).2
    let ens := (v.rings (g.geometry base) id level).map Prod.fst
    ∃ c' w, c.getEn g id level = .ok (ens, c') ∧ Holds g c' w ∧ w.sites.Perm v.sites ∧ (level ≤ 1 → w = v) ∧
      ens.Nodup ∧ (∀ k ∈ ens, k ∈ v.ids ∧ k ≠ id) ∧ (v.sites.length ≤ level + 1 → ∀ k ∈ v.ids, k ≠ id → k ∈ ens) := by
  intro v ens
  have h : Holds g c v := holds_of_run base hrun
  obtain ⟨hnd, hsub, hnot, hall⟩ := rings_spec g level hid hapart
  have hmem : ∀ k ∈ ens, k ∈ v.ids ∧ k ≠ id := by
    intro k hk
    have hne : k ≠ id := by
      rintro rfl
      exact hnot hk
    obtain ⟨s, hs, rfl⟩ := List.mem_map.mp hk
    exact ⟨List.mem_map_of_mem (hsub hs), hne⟩
  obtain ⟨m, c', ho, h', hzero, hone⟩ :=
    enLoop_ok level [] 0 [] (v := v) h hid hapart
  refine ⟨_, _, ?_, h'.insertAll _, insert_removeAll ?_ ?_, fun hle => ?_, hnd, hmem, hall⟩
  · rw [VoronoiCache.getEn, ho]
    rfl
  · exact fun s hs => hsub (List.mem_of_mem_take hs)
  · rw [List.map_take]
    exact hnd.sublist (List.take_sublist ..)
  · have hm : m = 0 := by
      rcases Nat.le_one_iff_eq_zero_or_eq_one.mp hle with rfl | rfl
      · exact hzero rfl
      · exact hone rfl
    rw [hm]
    rfl

def wholeSites : Sites ExactDouble := ⟨fun c => ⟨c.bits.toNat⟩, fun _ _ _ => false⟩

def noGeometry : Geometry where
  isPointInsideSiteRegion _ _ _ := false
  enclosed _ _ _ _ := false
  collides _ _ _ _ := false
  getNeighborSet _ _ := []
  within _ _ _ := false
  closestTo _ _ := 0
  freePosition _ p := p

/-- Three sites in a row: the outer ones are neighbours of the one between. -/
def threeCalls : List VoronoiCall := [.insert 7 {}, .insert 8 { x := ⟨4⟩ }, .insert 9 { x := ⟨9⟩ }]

def threeSites : VoronoiSF := (VoronoiSF.run (wholeSites.geometry noGeometry) {} threeCalls).2

theorem apart_three : threeSites.Apart (wholeSites.geometry noGeometry) := by
  have h : ∀ l ∈ threeSites.sites.sublists, ∀ i < l.length,
      i ∉ (wholeSites.geometry noGeometry).getNeighborSet (l.map Prod.snd) (some i) := by decide +kernel
  exact fun l hl => h l (List.mem_sublists.mpr hl)

theorem getEn_rings_three :
    ∃ c : VoronoiCache ExactDouble, run wholeSites {} threeCalls = .ok ([.done, .done, .done], c) ∧
      ∃ c' w, c.getEn wholeSites 7 2 = .ok ([8, 9], c') ∧ Holds wholeSites c' w ∧ w.sites.Perm threeSites.sites := by
  obtain ⟨c', w, ho, h', hperm, -⟩ :=
    getEn_rings (c := { invalidated := true, sites := threeSites.sites }) wholeSites noGeometry 7
      (rfl : run wholeSites {} threeCalls = .ok ([.done, .done, .done], _)) (by decide) apart_three 2
  have hens : (threeSites.rings (wholeSites.geometry noGeometry) 7 2).map Prod.fst = [8, 9] := by decide +kernel
  exact ⟨_, rfl, c', w, hens ▸ ho, h', hperm⟩

end VoronoiCache

end VastNC
