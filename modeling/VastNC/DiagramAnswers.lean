import Mathlib.Data.List.ProdSigma
import Mathlib.Data.Rat.Floor
import VastNC.DiagramShape

/-! What the diagrams of the sweep have in common, whatever the sites and the arithmetic: how many
lines and vertices there are, what meets in a vertex, that every question has an answer, and that the
sites reach each other over their enclosing neighbours. -/

namespace VastNC

open Block

section Answers

variable {α ε : Type} {f : α → Except ε Bool} {g : α → Bool} {l : List α}

theorem anyM_eq (h : ∀ a ∈ l, f a = .ok (g a)) : l.anyM f = .ok (l.any g) := by
  induction l with
  | nil => rfl
  | cons a l ih =>
    rw [List.anyM, h a (List.mem_cons_self ..), ok_bind, List.any_cons]
    cases g a with
    | true => rfl
    | false => exact ih fun b hb => h b (List.mem_cons_of_mem a hb)

theorem allM_eq (h : ∀ a ∈ l, f a = .ok (g a)) : l.allM f = .ok (l.all g) := by
  induction l with
  | nil => rfl
  | cons a l ih =>
    rw [List.allM, h a (List.mem_cons_self ..), ok_bind, List.all_cons]
    cases g a with
    | true => exact ih fun b hb => h b (List.mem_cons_of_mem a hb)
    | false => rfl

theorem eq_ok_of_exists {a : α} (h : ∃ b, f a = .ok b) : f a = .ok ((f a).toOption.getD false) := by
  obtain ⟨b, hb⟩ := h
  rw [hb]
  rfl

theorem ok_of_toOption {β : Type} {x : Except ε β} {b : β} (h : x.toOption = some b) : x = .ok b := by
  cases x with
  | error e => exact nomatch h
  | ok c => exact congrArg Except.ok (Option.some.inj h)

end Answers

/-- Exact arithmetic, but for roots, which are those of whole thousandths. -/
structure ExactDouble where
  val : ℚ

instance ExactDouble.instDouble : Double ExactDouble where
  add a b := ⟨a.val + b.val⟩
  sub a b := ⟨a.val - b.val⟩
  mul a b := ⟨a.val * b.val⟩
  div a b := ⟨a.val / b.val⟩
  neg a := ⟨-a.val⟩
  ofScientific m s e := ⟨OfScientific.ofScientific m s e⟩
  lt a b := a.val < b.val
  le a b := a.val ≤ b.val
  beq a b := a.val == b.val
  decidableLT a b := inferInstanceAs (Decidable (a.val < b.val))
  decidableLE a b := inferInstanceAs (Decidable (a.val ≤ b.val))
  sqrt a := ⟨Nat.sqrt (a.val * 1000000).floor.toNat / 1000⟩
  pow a _ := ⟨a.val * a.val⟩
  fabs a := ⟨|a.val|⟩
  toInt a := if a.val < 0 then a.val.ceil else a.val.floor
  ofInt z := ⟨z⟩

namespace Diagram

variable {K : Type} (d : Diagram K)

/-- Line `k` lies between the two sites. -/
def Bisects (k i j : Nat) : Prop := ∃ l, d.mLines[k]? = some l ∧ ∃ sd, l.bisecting sd = i ∧ l.bisecting sd.other = j

/-- The line ends in the vertex on that side. -/
def IsEnd (v : Nat) (e : Nat × EdgeSide) : Prop := ∃ l, d.mLines[e.1]? = some l ∧ l.vertexIndex e.2 = some v

/-- The ends of lines that go on to infinity. -/
def openEnds : List (Nat × EdgeSide) :=
  (List.range d.mLines.length ×ˢ [EdgeSide.le, .re]).filter
    (fun e => d.mLines[e.1]?.any (fun l => (l.vertexIndex e.2).isNone))

/-- Three lines, and no others, end in the vertex; they lie between the pairs of three sites. -/
def Corner (v : Nat) : Prop :=
  ∃ i j m e₁ e₂ e₃, (e₁.1 ≠ e₂.1 ∧ e₁.1 ≠ e₃.1 ∧ e₂.1 ≠ e₃.1) ∧ (∀ e, d.IsEnd v e ↔ e = e₁ ∨ e = e₂ ∨ e = e₃) ∧
    d.Bisects e₁.1 i j ∧ d.Bisects e₂.1 j m ∧ d.Bisects e₃.1 i m

/-- `j` is among the enclosing neighbours of `i`. -/
def Neighbors (i j : Nat) : Prop := ∃ nset, d.getNeighborSet (some i) [] = .ok nset ∧ j ∈ nset

structure Tessellates (pts : List (Point K)) : Prop where
  pos : d.mSites.map SiteEx.pos = pts
  lines : d.mLines.length + 1 = pts.length + d.mVertex.length
  openEnds : d.openEnds.length + d.mVertex.length + 2 = 2 * pts.length
  unbounded : 2 ≤ pts.length → d.openEnds ≠ []
  bisecting_lt : ∀ (k : Nat) l, d.mLines[k]? = some l → ∀ sd, l.bisecting sd < pts.length
  vertex_lt : ∀ v e, d.IsEnd v e → v < d.mVertex.length
  sets : ∀ (i : Nat) sx, d.mSites[i]? = some sx → ∀ k, k ∈ sx.mEdgeIndexSet ↔ ∃ j, d.Bisects k i j
  corner : ∀ v < d.mVertex.length, d.Corner v
  connected : ∀ i < pts.length, ∀ j < pts.length, Relation.ReflTransGen (fun i j => ∃ k, d.Bisects k i j) i j

variable {d} {pts : List (Point K)} {F : Front (Site K)} {i j k : Nat}

theorem Bisects.symm (h : d.Bisects k i j) : d.Bisects k j i := by
  obtain ⟨l, hl, sd, hi, hj⟩ := h
  exact ⟨l, hl, sd.other, hj, by rwa [EdgeSide.other_other]⟩

theorem Complete.line (c : d.Complete F) (hk : k < F.nedges) : ∃ l, d.mLines[k]? = some l :=
  ⟨_, List.getElem?_eq_getElem (by rw [c.lines]; exact hk)⟩

theorem Complete.lt (c : d.Complete F) {l : Line K} (hl : d.mLines[k]? = some l) : k < F.nedges := by
  rw [← c.lines]
  exact (List.getElem?_eq_some_iff.mp hl).1

theorem Complete.bisects (c : d.Complete F) (hk : k < F.nedges) {p q : Site K} (h : F.Bisects k p q) :
    d.Bisects k p.sitenbr q.sitenbr := by
  obtain ⟨l, hl⟩ := c.line hk
  obtain ⟨sd, rfl, rfl⟩ := h
  exact ⟨l, hl, sd, c.bisecting k l hl sd, c.bisecting k l hl sd.other⟩

variable {bottom : Site K}

theorem Complete.isEnd_iff (c : d.Complete F) (w : F.Wf bottom) {v : Nat} {e : Nat × EdgeSide} :
    d.IsEnd v e ↔ F.ends e = some v := by
  constructor
  · rintro ⟨l, hl, hv⟩
    exact (c.ends e.1 l hl e.2).symm.trans hv
  · intro hv
    obtain ⟨l, hl⟩ := c.line (w.ends_lt e v hv).1
    exact ⟨l, hl, (c.ends e.1 l hl e.2).trans hv⟩

theorem Complete.openEnds_perm (c : d.Complete F) (w : F.Wf bottom) : d.openEnds.Perm F.beach := by
  have hnd : d.openEnds.Nodup := (List.nodup_range.product (by decide)).filter _
  refine (List.perm_ext_iff_of_nodup hnd w.nodup).mpr fun e => ?_
  obtain ⟨k, sd⟩ := e
  have hsd : sd ∈ [EdgeSide.le, .re] := by cases sd <;> decide
  rw [openEnds, List.mem_filter, List.mem_product, List.mem_range, c.lines]
  constructor
  · rintro ⟨⟨hk, -⟩, hnone⟩
    obtain ⟨l, hl⟩ := c.line hk
    rw [hl, Option.any_some, c.ends k l hl sd, Option.isNone_iff_eq_none] at hnone
    exact (w.open_iff (k, sd) hk).mp hnone
  · intro hb
    have hk := w.beach_lt _ hb
    obtain ⟨l, hl⟩ := c.line hk
    refine ⟨⟨hk, hsd⟩, ?_⟩
    rw [hl, Option.any_some, c.ends k l hl sd, Option.isNone_iff_eq_none]
    exact (w.open_iff (k, sd) hk).mpr hb

theorem Complete.tessellates (c : d.Complete F) (w : F.Wf bottom) (hseen : F.seen.Perm (ofSites pts).readsites)
    (hpos : d.mSites.map SiteEx.pos = pts) : d.Tessellates pts := by
  have hlen : F.seen.length = pts.length := by
    rw [hseen.length_eq, length_readsites, ofSites, List.length_map]
  have hlt : ∀ p ∈ F.seen, p.sitenbr < pts.length := by
    intro p hp
    have := mem_readsites (hseen.mem_iff.mp hp)
    rwa [ofSites, List.length_map] at this
  have hnbr : ∀ i < pts.length, ∃ p ∈ F.seen, p.sitenbr = i := by
    intro i hi
    refine ⟨⟨pts[i], i⟩, hseen.mem_iff.mpr (List.mem_map.mpr ⟨({ pos := pts[i] }, i), ?_, rfl⟩), rfl⟩
    rw [List.mk_mem_zipIdx_iff_getElem?, ofSites, List.getElem?_map, List.getElem?_eq_getElem hi]
    rfl
  have hedges := w.edges_eq
  have hbeach := w.beach_eq
  have hopen := c.openEnds_perm w
  refine ⟨hpos, ?_, ?_, fun h2 hnil => ?_, fun k l hl sd => ?_, fun v e he => ?_, fun i sx hi k => ?_, fun v hv => ?_, ?_⟩
  · rw [c.lines, c.verts, ← hlen]
    exact hedges
  · rw [hopen.length_eq, c.verts, ← hlen]
    exact hbeach
  · have hempty : F.beach = [] := List.Perm.nil_eq (hnil ▸ hopen) |>.symm
    exact w.beach_pos (hlen ▸ h2) hempty
  · rw [c.bisecting k l hl sd]
    exact hlt _ (w.reg_mem k (c.lt hl) sd)
  · rw [c.verts]
    exact (w.ends_lt e v ((c.isEnd_iff w).mp he)).2
  · rw [(c.sets i sx hi).2 k]
    constructor
    · rintro ⟨hk, sd, rfl⟩
      exact ⟨_, c.bisects hk ⟨sd, rfl, rfl⟩⟩
    · rintro ⟨j, l, hl, sd, hi', -⟩
      exact ⟨c.lt hl, sd, (c.bisecting k l hl sd).symm.trans hi'⟩
  · obtain ⟨x, y, z, e₁, e₂, e₃, hne, hends, h₁, h₂, h₃⟩ := w.corner v (c.verts ▸ hv)
    have hk : ∀ e, e = e₁ ∨ e = e₂ ∨ e = e₃ → e.1 < F.nedges := fun e he => (w.ends_lt e v ((hends e).mpr he)).1
    exact ⟨_, _, _, e₁, e₂, e₃, hne, fun e => (c.isEnd_iff w).trans (hends e), c.bisects (hk e₁ (.inl rfl)) h₁,
      c.bisects (hk e₂ (.inr (.inl rfl))) h₂, c.bisects (hk e₃ (.inr (.inr rfl))) h₃⟩
  · have hfrom : ∀ i < pts.length, Relation.ReflTransGen (fun i j => ∃ k, d.Bisects k i j) bottom.sitenbr i := by
      intro i hi
      obtain ⟨p, hp, rfl⟩ := hnbr i hi
      exact (w.connected p hp).lift Site.sitenbr fun p q h => h.imp fun k hk => c.bisects hk.1 hk.2
    have : Std.Symm (fun i j => ∃ k, d.Bisects k i j) := ⟨fun i j h => h.imp fun k hb => hb.symm⟩
    intro i hi j hj
    exact (symm (hfrom i hi)).trans (hfrom j hj)

theorem Bisects.lt (t : d.Tessellates pts) (h : d.Bisects k i j) : i < pts.length ∧ j < pts.length := by
  obtain ⟨l, hl, sd, rfl, rfl⟩ := h
  exact ⟨t.bisecting_lt k l hl sd, t.bisecting_lt k l hl sd.other⟩

theorem Tessellates.site (t : d.Tessellates pts) (hi : i < pts.length) : ∃ sx, d.mSites[i]? = some sx := by
  have hlen : d.mSites.length = pts.length := by rw [← t.pos, List.length_map]
  exact ⟨_, List.getElem?_eq_getElem (hlen ▸ hi)⟩

/-- The two sites of a line that is entered for `i` are `i` and the one that the code picks. -/
theorem bisects_iff {l : Line K} (hl : d.mLines[k]? = some l) (hi : ∃ j, d.Bisects k i j) :
    d.Bisects k i j ↔ j = if l.bisecting .le = i then l.bisecting .re else l.bisecting .le := by
  have hsides : ∀ a, d.Bisects k i a → ∃ sd, l.bisecting sd = i ∧ l.bisecting sd.other = a := by
    rintro a ⟨l', hl', sd, h⟩
    obtain rfl : l = l' := Option.some.inj (hl.symm.trans hl')
    exact ⟨sd, h⟩
  obtain ⟨a, ha⟩ := hi
  obtain ⟨sd, hsd, -⟩ := hsides a ha
  constructor
  · intro hb
    obtain ⟨sd', h₁, rfl⟩ := hsides j hb
    cases sd' with
    | le => rw [if_pos h₁]; rfl
    | re =>
      split
      · next hle => exact hle.trans h₁.symm
      · rfl
  · rintro rfl
    by_cases hle : l.bisecting .le = i
    · exact ⟨l, hl, .le, hle, (if_pos hle).symm⟩
    · refine ⟨l, hl, .re, ?_, (if_neg hle).symm⟩
      cases sd with
      | le => exact absurd hsd hle
      | re => exact hsd

/-- The enclosing neighbours of a site are the sites on the other sides of its lines. -/
theorem Tessellates.getNeighborSet (t : d.Tessellates pts) (hi : i < pts.length) :
    ∃ nset, (∀ before, d.getNeighborSet (some i) before = .ok nset) ∧ nset.Nodup ∧
      ∀ j, j ∈ nset ↔ ∃ k, d.Bisects k i j := by
  obtain ⟨sx, hsx⟩ := t.site hi
  have hset := t.sets i sx hsx
  have hfold : ∀ (ks : List Nat) (acc : List Nat), (∀ k ∈ ks, ∃ j, d.Bisects k i j) → acc.Nodup →
      ∃ nset, ks.foldlM (fun nset j => do
          let l ← d.line j
          return setInsert nset (if l.bisecting .le = i then l.bisecting .re else l.bisecting .le)) acc =
        (Except.ok nset : Except Fault (List Nat)) ∧ nset.Nodup ∧
        ∀ j, j ∈ nset ↔ j ∈ acc ∨ ∃ k ∈ ks, d.Bisects k i j := by
    intro ks
    induction ks with
    | nil => exact fun acc _ hnd => ⟨acc, rfl, hnd, fun j => by simp⟩
    | cons k ks ih =>
      intro acc hks hnd
      obtain ⟨hk, hks⟩ := List.forall_mem_cons.mp hks
      have hk' := hk
      obtain ⟨-, l, hl, -⟩ := hk'
      obtain ⟨nset, ho, hnd', hmem⟩ := ih _ hks (nodup_setInsert hnd)
      refine ⟨nset, ?_, hnd', fun j => ?_⟩
      · rw [List.foldlM_cons, Diagram.line, hl, deref_some, ok_bind]
        exact ho
      · rw [hmem, mem_setInsert, ← bisects_iff hl hk]
        simp only [List.mem_cons, exists_eq_or_imp]
        tauto
  obtain ⟨nset, ho, hnd, hmem⟩ := hfold sx.mEdgeIndexSet [] (fun k hk => (hset k).mp hk) List.nodup_nil
  refine ⟨nset, fun before => ?_, hnd, fun j => ?_⟩
  · rw [Diagram.getNeighborSet, Option.bind_some, hsx]
    exact ho
  · rw [hmem, or_iff_right List.not_mem_nil]
    exact exists_congr fun k => and_iff_right_of_imp fun hb => (hset k).mpr ⟨j, hb⟩

theorem Tessellates.getNeighborSet_lt (t : d.Tessellates pts) (index : Option Nat) :
    ∃ nset, d.getNeighborSet index [] = .ok nset ∧ ∀ i ∈ nset, i < pts.length := by
  cases index with
  | none => exact ⟨[], rfl, fun i hi => absurd hi List.not_mem_nil⟩
  | some i =>
    rcases Nat.lt_or_ge i pts.length with hi | hi
    · obtain ⟨nset, ho, -, hmem⟩ := t.getNeighborSet hi
      refine ⟨nset, ho [], fun j hj => ?_⟩
      obtain ⟨k, hb⟩ := (hmem j).mp hj
      exact (hb.lt t).2
    · have hnone : d.mSites[i]? = none := List.getElem?_eq_none (by rw [← t.pos, List.length_map] at hi; exact hi)
      refine ⟨[], ?_, fun i hi => absurd hi List.not_mem_nil⟩
      rw [Diagram.getNeighborSet, Option.bind_some, hnone]
      rfl

theorem Tessellates.neighbors_iff (t : d.Tessellates pts) : d.Neighbors i j ↔ ∃ k, d.Bisects k i j := by
  rcases Nat.lt_or_ge i pts.length with hi | hi
  · obtain ⟨nset, ho, -, hmem⟩ := t.getNeighborSet hi
    refine ⟨fun ⟨nset', ho', hj⟩ => (hmem j).mp ?_, fun h => ⟨nset, ho [], (hmem j).mpr h⟩⟩
    rwa [Except.ok.inj ((ho []).symm.trans ho')]
  · refine iff_of_false (fun ⟨nset, ho, hj⟩ => ?_) fun ⟨k, h⟩ => Nat.not_lt.mpr hi (h.lt t).1
    have hnone : d.mSites[i]? = none := List.getElem?_eq_none (by rw [← t.pos, List.length_map] at hi; exact hi)
    rw [Diagram.getNeighborSet, Option.bind_some, hnone] at ho
    obtain rfl : [] = nset := Except.ok.inj ho
    exact List.not_mem_nil hj

theorem Tessellates.line (t : d.Tessellates pts) {sx : SiteEx K} (hsx : d.mSites[i]? = some sx)
    (hk : k ∈ sx.mEdgeIndexSet) : ∃ l, d.mLines[k]? = some l ∧ d.line k = .ok l := by
  obtain ⟨j, l, hl, -⟩ := (t.sets i sx hsx k).mp hk
  exact ⟨l, hl, by rw [Diagram.line, hl, deref_some]⟩

theorem Tessellates.vertex (t : d.Tessellates pts) {l : Line K} (hl : d.mLines[k]? = some l) {sd : EdgeSide} {v : Nat}
    (hv : l.vertexIndex sd = some v) : ∃ p, d.vertex v = .ok p := by
  have hlt := t.vertex_lt v (k, sd) ⟨l, hl, hv⟩
  exact ⟨_, by rw [Diagram.vertex, List.getElem?_eq_getElem hlt, deref_some]⟩

theorem Tessellates.isBoundarySite (t : d.Tessellates pts) {sx : SiteEx K} (hsx : d.mSites[i]? = some sx) :
    d.isBoundarySite i = .ok (sx.mEdgeIndexSet.any (fun k =>
      d.mLines[k]?.any (fun l => (l.vertexIndex .le).isNone || (l.vertexIndex .re).isNone))) := by
  rw [Diagram.isBoundarySite, Diagram.site, hsx, deref_some, ok_bind]
  refine anyM_eq fun k hk => ?_
  obtain ⟨l, hl, ho⟩ := t.line hsx hk
  rw [ho, hl]
  rfl

theorem Tessellates.exists_boundary (t : d.Tessellates pts) (h2 : 2 ≤ pts.length) :
    ∃ i < pts.length, d.isBoundarySite i = .ok true := by
  obtain ⟨⟨k, sd⟩, he⟩ := List.exists_mem_of_ne_nil _ (t.unbounded h2)
  obtain ⟨-, hopen⟩ := List.mem_filter.mp he
  cases hl : d.mLines[k]? with
  | none =>
    rw [hl] at hopen
    exact nomatch hopen
  | some l =>
    rw [hl, Option.any_some] at hopen
    have hi := t.bisecting_lt k l hl .le
    obtain ⟨sx, hsx⟩ := t.site hi
    refine ⟨_, hi, ?_⟩
    rw [t.isBoundarySite hsx]
    refine congrArg Except.ok (List.any_eq_true.mpr ⟨k, (t.sets _ sx hsx k).mpr ⟨_, l, hl, .le, rfl, rfl⟩, ?_⟩)
    rw [hl, Option.any_some]
    cases sd with
    | le => rw [hopen, Bool.true_or]
    | re => rw [hopen, Bool.or_true]

section Queries

variable [Double K]

theorem Tessellates.isPointInsideSiteRegion (t : d.Tessellates pts) (hi : i < pts.length) (p : Point K) :
    ∃ b, d.isPointInsideSiteRegion i p = .ok b := by
  obtain ⟨sx, hsx⟩ := t.site hi
  rw [Diagram.isPointInsideSiteRegion, Diagram.site, hsx, deref_some, ok_bind]
  refine ⟨_, allM_eq fun k hk => eq_ok_of_exists ?_⟩
  obtain ⟨l, -, ho⟩ := t.line hsx hk
  rw [ho]
  exact ⟨_, rfl⟩

theorem Tessellates.endWithin (t : d.Tessellates pts) {l : Line K} (hl : d.mLines[k]? = some l) (center : Point K)
    (radius : Int) (sd : EdgeSide) : ∃ b, d.endWithin l center radius sd = .ok b := by
  unfold Diagram.endWithin
  cases hv : l.vertexIndex sd with
  | none => exact ⟨false, rfl⟩
  | some v =>
    obtain ⟨p, hp⟩ := t.vertex hl hv
    exact ⟨_, by dsimp only; rw [hp]; rfl⟩

theorem Tessellates.collides (t : d.Tessellates pts) (hi : i < pts.length) (center : Point K) (radius : Int) :
    ∃ b, d.collides i center radius = .ok b := by
  obtain ⟨sx, hsx⟩ := t.site hi
  obtain ⟨inside, hin⟩ := t.isPointInsideSiteRegion hi center
  rw [Diagram.collides, hin, ok_bind]
  cases inside with
  | true => exact ⟨true, rfl⟩
  | false =>
    rw [if_neg Bool.false_ne_true, Diagram.site, hsx, deref_some, ok_bind]
    refine ⟨_, anyM_eq fun k hk => eq_ok_of_exists ?_⟩
    obtain ⟨l, hl, ho⟩ := t.line hsx hk
    obtain ⟨b₁, h₁⟩ := t.endWithin hl center radius .le
    obtain ⟨b₂, h₂⟩ := t.endWithin hl center radius .re
    simp only [ho, ok_bind, h₁, h₂]
    cases b₁ <;> cases b₂ <;> exact ⟨_, rfl⟩

/-- A region that is enclosed has no line that goes on to infinity. -/
theorem Tessellates.enclosed (t : d.Tessellates pts) (hi : i < pts.length) (center : Point K) (radius : Int) :
    ∃ b, d.enclosed i center radius = .ok b ∧ (b = true → d.isBoundarySite i = .ok false) := by
  obtain ⟨sx, hsx⟩ := t.site hi
  let near : Nat → Bool := fun v => d.mVertex[v]?.any (fun p => !decide (distance center p ≥ Double.ofInt radius))
  let g : Nat → Bool := fun k => d.mLines[k]?.any (fun l => (l.vertexIndex .le).any near && (l.vertexIndex .re).any near)
  have ho : d.enclosed i center radius = .ok (sx.mEdgeIndexSet.all g) := by
    rw [Diagram.enclosed, Diagram.site, hsx, deref_some, ok_bind]
    refine allM_eq fun k hk => ?_
    obtain ⟨l, hl, ho⟩ := t.line hsx hk
    simp only [g, ho, ok_bind, hl, Option.any_some]
    cases h₁ : l.vertexIndex .le with
    | none => rfl
    | some v₁ =>
      cases h₂ : l.vertexIndex .re with
      | none =>
        rw [Option.any_none, Bool.and_false]
        rfl
      | some v₂ =>
        have hlt₁ := t.vertex_lt v₁ (k, .le) ⟨l, hl, h₁⟩
        have hlt₂ := t.vertex_lt v₂ (k, .re) ⟨l, hl, h₂⟩
        simp only [near, Diagram.vertex, List.getElem?_eq_getElem hlt₁, List.getElem?_eq_getElem hlt₂, deref_some, ok_bind,
          Option.any_some]
        by_cases hd : distance center d.mVertex[v₁] ≥ Double.ofInt radius
        · rw [if_pos hd, decide_eq_true hd]
          rfl
        · rw [if_neg hd, decide_eq_false hd]
          rfl
  refine ⟨_, ho, fun hb => ?_⟩
  rw [t.isBoundarySite hsx]
  refine congrArg Except.ok (List.any_eq_false.mpr fun k hk => ?_)
  have hg := List.all_eq_true.mp hb k hk
  simp only [g] at hg
  obtain ⟨l, hl, -⟩ := t.line hsx hk
  rw [hl, Option.any_some] at hg ⊢
  cases h₁ : l.vertexIndex .le <;> cases h₂ : l.vertexIndex .re <;> simp_all

theorem calsfv_tessellates (hne : pts ≠ []) :
    ∃ d : Diagram K, (∀ fuel, 3 * pts.length ≤ fuel → (ofSites pts).calsfv fuel = .ok d) ∧ d.Tessellates pts := by
  obtain ⟨d, F, bottom, hall, w, c, hseen, hpos⟩ := calsfv_ok hne
  exact ⟨d, hall, c.tessellates w hseen hpos⟩

def fourSites : List (Point ExactDouble) := [⟨0.0, 0.0⟩, ⟨10.0, 1.0⟩, ⟨3.0, 7.0⟩, ⟨8.0, 8.0⟩]

/-- The quadrangle falls into two triangles. -/
example : ((ofSites fourSites).calsfv 12).toOption.map
    (fun d => (d.mLines.map (fun l => (l.bisecting .le, l.bisecting .re)), d.mVertex.length)) =
      some ([(0, 1), (0, 2), (1, 2), (1, 3), (2, 3)], 2) := by decide +kernel

/-- Whatever the arithmetic does, three turns for each site are enough, and no pointer goes astray. Only
of no sites there is no diagram. -/
theorem calsfv_returns_iff (pts : List (Point K)) :
    (∃ d, ∀ fuel, 3 * pts.length ≤ fuel → (ofSites pts).calsfv fuel = .ok d) ↔ pts ≠ [] := by
  constructor
  · rintro ⟨d, hd⟩ rfl
    exact nomatch hd 0 (Nat.le_refl 0)
  · intro hne
    obtain ⟨d, hd, -⟩ := calsfv_tessellates hne
    exact ⟨d, hd⟩

/-- There is one line for each vertex and each site but one, and two ends for each site but one are open
or were closed by a vertex. -/
theorem calsfv_counts (hne : pts ≠ []) :
    ∃ d : Diagram K, (∀ fuel, 3 * pts.length ≤ fuel → (ofSites pts).calsfv fuel = .ok d) ∧
      d.mSites.map SiteEx.pos = pts ∧ d.mLines.length + 1 = pts.length + d.mVertex.length ∧
      d.openEnds.length + d.mVertex.length + 2 = 2 * pts.length ∧ (2 ≤ pts.length → d.openEnds ≠ []) := by
  obtain ⟨d, hall, t⟩ := calsfv_tessellates hne
  exact ⟨d, hall, t.pos, t.lines, t.openEnds, t.unbounded⟩

theorem calsfv_counts_four :
    ∃ d : Diagram ExactDouble, (∀ fuel, 3 * fourSites.length ≤ fuel → (ofSites fourSites).calsfv fuel = .ok d) ∧
      d.mSites.map SiteEx.pos = fourSites ∧ d.mLines.length + 1 = fourSites.length + d.mVertex.length ∧
      d.openEnds.length + d.mVertex.length + 2 = 2 * fourSites.length ∧ (2 ≤ fourSites.length → d.openEnds ≠ []) :=
  calsfv_counts (List.cons_ne_nil _ _)

/-- In every vertex the bisectors of three sites meet, and no line names a site or vertex that is not there. -/
theorem calsfv_corners (hne : pts ≠ []) :
    ∃ d : Diagram K, (∀ fuel, 3 * pts.length ≤ fuel → (ofSites pts).calsfv fuel = .ok d) ∧
      (∀ v < d.mVertex.length, d.Corner v) ∧ (∀ v e, d.IsEnd v e → v < d.mVertex.length) ∧
      ∀ k i j, d.Bisects k i j → i < pts.length ∧ j < pts.length := by
  obtain ⟨d, hall, t⟩ := calsfv_tessellates hne
  exact ⟨d, hall, t.corner, t.vertex_lt, fun _ _ _ h => h.lt t⟩

theorem calsfv_corners_four :
    ∃ d : Diagram ExactDouble, (∀ fuel, 3 * fourSites.length ≤ fuel → (ofSites fourSites).calsfv fuel = .ok d) ∧
      (∀ v < d.mVertex.length, d.Corner v) ∧ (∀ v e, d.IsEnd v e → v < d.mVertex.length) ∧
      ∀ k i j, d.Bisects k i j → i < fourSites.length ∧ j < fourSites.length :=
  calsfv_corners (List.cons_ne_nil _ _)

/-- Enclosing neighbours are each other's, they are sites, and from any site all the others are reached over them. -/
theorem neighbors_connect (hne : pts ≠ []) :
    ∃ d : Diagram K, (∀ fuel, 3 * pts.length ≤ fuel → (ofSites pts).calsfv fuel = .ok d) ∧
      (∀ i < pts.length, ∃ nset, ∀ before, d.getNeighborSet (some i) before = .ok nset) ∧
      (∀ i j, d.Neighbors i j → d.Neighbors j i ∧ i < pts.length ∧ j < pts.length) ∧
      ∀ i < pts.length, ∀ j < pts.length, Relation.ReflTransGen d.Neighbors i j := by
  obtain ⟨d, hall, t⟩ := calsfv_tessellates hne
  refine ⟨d, hall, fun i hi => ?_, fun i j h => ?_, fun i hi j hj => ?_⟩
  · obtain ⟨nset, ho, -⟩ := t.getNeighborSet hi
    exact ⟨nset, ho⟩
  · obtain ⟨k, hb⟩ := t.neighbors_iff.mp h
    exact ⟨t.neighbors_iff.mpr ⟨k, hb.symm⟩, hb.lt t⟩
  · exact Relation.ReflTransGen.mono (fun _ _ h => t.neighbors_iff.mpr h) _ _ (t.connected i hi j hj)

theorem neighbors_connect_four :
    ∃ d : Diagram ExactDouble, (∀ fuel, 3 * fourSites.length ≤ fuel → (ofSites fourSites).calsfv fuel = .ok d) ∧
      (∀ i < fourSites.length, ∃ nset, ∀ before, d.getNeighborSet (some i) before = .ok nset) ∧
      (∀ i j, d.Neighbors i j → d.Neighbors j i ∧ i < fourSites.length ∧ j < fourSites.length) ∧
      ∀ i < fourSites.length, ∀ j < fourSites.length, Relation.ReflTransGen d.Neighbors i j :=
  neighbors_connect (List.cons_ne_nil _ _)

/-- Every question about a site has an answer. No region on the boundary is enclosed, and where there are
two sites one is on the boundary. -/
theorem queries_answered (hne : pts ≠ []) :
    ∃ d : Diagram K, (∀ fuel, 3 * pts.length ≤ fuel → (ofSites pts).calsfv fuel = .ok d) ∧
      (∀ i < pts.length, ∃ b, d.isBoundarySite i = .ok b) ∧
      (∀ i < pts.length, ∀ center radius, (∃ b, d.isPointInsideSiteRegion i center = .ok b) ∧
        (∃ b, d.collides i center radius = .ok b) ∧
        ∃ b, d.enclosed i center radius = .ok b ∧ (b = true → d.isBoundarySite i = .ok false)) ∧
      (2 ≤ pts.length → ∃ i < pts.length, d.isBoundarySite i = .ok true) := by
  obtain ⟨d, hall, t⟩ := calsfv_tessellates hne
  refine ⟨d, hall, fun i hi => ?_, fun i hi center radius => ?_, t.exists_boundary⟩
  · obtain ⟨sx, hsx⟩ := t.site hi
    exact ⟨_, t.isBoundarySite hsx⟩
  · exact ⟨t.isPointInsideSiteRegion hi center, t.collides hi center radius, t.enclosed hi center radius⟩

theorem queries_answered_four :
    ∃ d : Diagram ExactDouble, (∀ fuel, 3 * fourSites.length ≤ fuel → (ofSites fourSites).calsfv fuel = .ok d) ∧
      (∀ i < fourSites.length, ∃ b, d.isBoundarySite i = .ok b) ∧
      (∀ i < fourSites.length, ∀ center radius, (∃ b, d.isPointInsideSiteRegion i center = .ok b) ∧
        (∃ b, d.collides i center radius = .ok b) ∧
        ∃ b, d.enclosed i center radius = .ok b ∧ (b = true → d.isBoundarySite i = .ok false)) ∧
      (2 ≤ fourSites.length → ∃ i < fourSites.length, d.isBoundarySite i = .ok true) :=
  queries_answered (List.cons_ne_nil _ _)

end Queries

end Diagram

end VastNC
