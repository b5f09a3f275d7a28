import VastNC.SweepBeach
import VastNC.SweepQueue

/-! What the state of the sweep stands for: a front, whose line is the edge list and whose edges and
vertices are the ones that are output. One lemma for each operation says what it does to the front. -/

namespace VastNC

open Function Linked Block

/-- The lines and vertices that are output are those of the front; a line has both its ends as soon
as it has them in the front. -/
structure Diagram.Recorded {K : Type} (d : Diagram K) (F : Front (Site K)) : Prop where
  lines : d.mLines.length = F.nedges
  verts : d.mVertex.length = F.nverts
  bisecting : ∀ (k : Nat) l, d.mLines[k]? = some l → ∀ sd, l.bisecting sd = (F.reg k sd).sitenbr
  named : ∀ (k : Nat) l, d.mLines[k]? = some l → (∀ sd, F.ends (k, sd) ≠ none) → ∀ sd, l.vertexIndex sd = F.ends (k, sd)
  sets : ∀ (i : Nat) sx, d.mSites[i]? = some sx →
    sx.mEdgeIndexSet.Nodup ∧ ∀ k, k ∈ sx.mEdgeIndexSet ↔ k < F.nedges ∧ ∃ sd, (F.reg k sd).sitenbr = i

namespace Sweep

variable {K : Type}

/-- An end pointer and the number of the vertex that it points to. -/
def IsEnd (s : Sweep K) : Option Nat → Option Nat → Prop
  | none, r => r = none
  | some v, r => ∃ vx j, s.vertices[v]? = some vx ∧ vx.sitenbr = some j ∧ r = some j

structure Edges (s : Sweep K) (F : Front (Site K)) : Prop where
  length : s.edges.length = F.nedges
  reg : ∀ (k : Nat) e, s.edges[k]? = some e → e.reg = F.reg k
  ends : ∀ (k : Nat) e, s.edges[k]? = some e → ∀ sd, s.IsEnd (e.ep sd) (F.ends (k, sd))
  unset : ∀ k sd, F.nedges ≤ k → F.ends (k, sd) = none
  nverts : s.nvertices = F.nverts
  out : s.out.Recorded F

/-- The half-edge as a pair of its edge and its side. -/
def half (el : EdgeList) (h : Nat) : EdgePtr × EdgeSide := (el.elEdge h, el.elPm h)

def pair (b : Nat × EdgeSide) : EdgePtr × EdgeSide := (.edge b.1, b.2)

/-- What no operation of an event changes. -/
structure Keeps (s t : Sweep K) : Prop where
  sites : t.sites = s.sites
  siteidx : t.siteidx = s.siteidx
  bottomsite : t.bottomsite = s.bottomsite
  ymin : t.ymin = s.ymin
  ymax : t.ymax = s.ymax
  size : t.pq.pqHashsize = s.pq.pqHashsize
  pos : t.out.mSites.map SiteEx.pos = s.out.mSites.map SiteEx.pos

variable {s t u : Sweep K} {F : Front (Site K)} {L Q l r : List Nat} {a b h he k v y x : Nat} {pm lr sd : EdgeSide}

theorem Keeps.refl (s : Sweep K) : s.Keeps s := ⟨rfl, rfl, rfl, rfl, rfl, rfl, rfl⟩

theorem Keeps.trans (h : s.Keeps t) (h' : t.Keeps u) : s.Keeps u :=
  ⟨h'.sites.trans h.sites, h'.siteidx.trans h.siteidx, h'.bottomsite.trans h.bottomsite, h'.ymin.trans h.ymin,
    h'.ymax.trans h.ymax, h'.size.trans h.size, h'.pos.trans h.pos⟩

theorem Keeps.length (h : s.Keeps t) : t.out.mSites.length = s.out.mSites.length := by
  have := congrArg List.length h.pos
  simpa using this

theorem IsEnd.mono {o n : Option Nat} (h : s.IsEnd o n)
    (hv : ∀ (v : Nat) vx j, s.vertices[v]? = some vx → vx.sitenbr = some j → ∃ vx', t.vertices[v]? = some vx' ∧ vx'.sitenbr = some j) :
    t.IsEnd o n := by
  cases o with
  | none => exact h
  | some v =>
    obtain ⟨vx, j, hvx, hj, hn⟩ := h
    obtain ⟨vx', hvx', hj'⟩ := hv v vx j hvx hj
    exact ⟨vx', j, hvx', hj', hn⟩

theorem Edges.edge (e : s.Edges F) (hk : k < F.nedges) : ∃ x, s.edges[k]? = some x ∧ s.edge k = .ok x := by
  have hlt : k < s.edges.length := by rw [e.length]; exact hk
  exact ⟨s.edges[k], List.getElem?_eq_getElem hlt, by rw [Sweep.edge, List.getElem?_eq_getElem hlt, deref_some]⟩

theorem Edges.line (e : s.Edges F) (hk : k < F.nedges) : ∃ l, s.out.mLines[k]? = some l ∧ s.out.line k = .ok l := by
  have hlt : k < s.out.mLines.length := by rw [e.out.lines]; exact hk
  exact ⟨s.out.mLines[k], List.getElem?_eq_getElem hlt, by
    rw [Diagram.line, List.getElem?_eq_getElem hlt, deref_some]⟩

theorem Edges.edgeOf (e : s.Edges F) {b : Nat × EdgeSide} (hb : b.1 < F.nedges) (hh : Sweep.half s.el h = pair b) :
    ∃ x, s.edges[b.1]? = some x ∧ s.edgeOf h = .ok x := by
  obtain ⟨x, hx, hx'⟩ := e.edge hb
  refine ⟨x, hx, ?_⟩
  have : s.el.elEdge h = .edge b.1 := congrArg Prod.fst hh
  rw [Sweep.edgeOf, this]
  exact hx'

theorem edgePtr_ok {b : Nat × EdgeSide} (hh : Sweep.half s.el h = pair b) : s.edgePtr h = .ok b.1 := by
  have : s.el.elEdge h = .edge b.1 := congrArg Prod.fst hh
  rw [Sweep.edgePtr, this]

theorem Edges.leftreg (e : s.Edges F) {b : Nat × EdgeSide} (hb : b.1 < F.nedges) (hh : Sweep.half s.el h = pair b) :
    s.leftreg h = .ok (F.reg b.1 b.2) := by
  obtain ⟨x, hx, ho⟩ := e.edgeOf hb hh
  have he : s.el.elEdge h = .edge b.1 := congrArg Prod.fst hh
  have hp : s.el.elPm h = b.2 := congrArg Prod.snd hh
  rw [Sweep.leftreg, if_neg (by rw [he]; exact EdgePtr.noConfusion), ho, ok_bind, hp, e.reg b.1 x hx]
  rfl

theorem Edges.rightreg (e : s.Edges F) {b : Nat × EdgeSide} (hb : b.1 < F.nedges) (hh : Sweep.half s.el h = pair b) :
    s.rightreg h = .ok (F.reg b.1 b.2.other) := by
  obtain ⟨x, hx, ho⟩ := e.edgeOf hb hh
  have he : s.el.elEdge h = .edge b.1 := congrArg Prod.fst hh
  have hp : s.el.elPm h = b.2 := congrArg Prod.snd hh
  rw [Sweep.rightreg, if_neg (by rw [he]; exact EdgePtr.noConfusion), ho, ok_bind, hp, e.reg b.1 x hx]
  rfl

theorem Edges.frame (e : s.Edges F) (hedges : t.edges = s.edges) (hverts : t.vertices = s.vertices)
    (hn : t.nvertices = s.nvertices) (hout : t.out = s.out) : t.Edges F := by
  refine ⟨hedges ▸ e.length, hedges ▸ e.reg, fun k x hx sd => ?_, e.unset, hn.trans e.nverts, hout ▸ e.out⟩
  rw [hedges] at hx
  exact (e.ends k x hx sd).mono fun v vx j hv hj => ⟨vx, hverts ▸ hv, hj⟩

theorem Edges.withBeach (e : s.Edges F) (beach : List (Nat × EdgeSide)) : s.Edges { F with beach := beach } :=
  ⟨e.length, e.reg, e.ends, e.unset, e.nverts, e.out.lines, e.out.verts, e.out.bisecting, e.out.named, e.out.sets⟩

/-- The record of a new edge: one line more, entered in the sets of the two sites. -/
theorem Recorded.addEdge {d : Diagram K} (hr : d.Recorded F) {g : EdgeSide → Site K} {line : Line K}
    (hunset : ∀ sd, F.ends (F.nedges, sd) = none) (hline : line.bisecting = fun sd => (g sd).sitenbr) :
    Diagram.Recorded { d with
      mSites := (d.mSites.modify (g .le).sitenbr
        (fun sx => { sx with mEdgeIndexSet := setInsert sx.mEdgeIndexSet F.nedges })).modify (g .re).sitenbr
        (fun sx => { sx with mEdgeIndexSet := setInsert sx.mEdgeIndexSet F.nedges })
      mLines := d.mLines ++ [line] } (F.addEdge g) := by
  have hcases : ∀ (k : Nat) l, (d.mLines ++ [line])[k]? = some l →
      (k < F.nedges ∧ d.mLines[k]? = some l) ∨ (k = F.nedges ∧ l = line) := by
    intro k l hl
    rcases Nat.lt_or_ge k d.mLines.length with hk | hk
    · rw [List.getElem?_append_left hk] at hl
      exact .inl ⟨hr.lines ▸ hk, hl⟩
    · rw [List.getElem?_append_right hk, List.getElem?_singleton] at hl
      split at hl
      · next h0 => exact .inr ⟨by rw [← hr.lines]; omega, (Option.some.inj hl).symm⟩
      · exact nomatch hl
  refine ⟨?_, hr.verts, ?_, ?_, ?_⟩
  · show (d.mLines ++ [line]).length = F.nedges + 1
    rw [List.length_append, hr.lines, List.length_singleton]
  · intro k l hl sd
    rcases hcases k l hl with ⟨hk, hl⟩ | ⟨rfl, rfl⟩
    · rw [Front.reg_addEdge_of_lt hk]
      exact hr.bisecting k l hl sd
    · rw [Front.reg_addEdge, hline]
  · intro k l hl hset sd
    rcases hcases k l hl with ⟨-, hl⟩ | ⟨rfl, -⟩
    · exact hr.named k l hl hset sd
    · exact absurd (hunset .le) (hset .le)
  · intro i sx hsx
    rw [List.getElem?_modify, List.getElem?_modify] at hsx
    cases hi : d.mSites[i]? with
    | none => simp [hi] at hsx
    | some sx₀ =>
      obtain ⟨hnd, hset⟩ := hr.sets i sx₀ hi
      have hmem : ∀ k, k ∈ sx₀.mEdgeIndexSet → k ≠ F.nedges := fun k hk he =>
        Nat.lt_irrefl _ (he ▸ ((hset k).mp hk).1)
      have hsides : (∃ sd, (g sd).sitenbr = i) ↔ (g .le).sitenbr = i ∨ (g .re).sitenbr = i :=
        ⟨fun ⟨sd, h⟩ => by cases sd <;> simp [h], fun h => h.elim (fun h => ⟨.le, h⟩) (fun h => ⟨.re, h⟩)⟩
      have hnew : ∀ k, (k < (F.addEdge g).nedges ∧ ∃ sd, ((F.addEdge g).reg k sd).sitenbr = i) ↔
          (k = F.nedges ∧ ((g .le).sitenbr = i ∨ (g .re).sitenbr = i)) ∨ k ∈ sx₀.mEdgeIndexSet := by
        intro k
        rw [hset]
        show k < F.nedges + 1 ∧ _ ↔ _
        rcases Nat.lt_trichotomy k F.nedges with hk | rfl | hk
        · rw [Front.reg_addEdge_of_lt hk]
          simp [hk, Nat.lt_succ_of_lt hk, Nat.ne_of_lt hk]
        · rw [Front.reg_addEdge, hsides]
          simp
        · constructor
          · intro h
            omega
          · rintro (h | h) <;> omega
      simp only [hi, Option.map_eq_map, Option.map_some, Option.some.injEq] at hsx
      subst hsx
      by_cases hle : (g .le).sitenbr = i <;> by_cases hre : (g .re).sitenbr = i <;>
        simp only [hle, hre, if_true, if_false] <;>
        refine ⟨by first | exact nodup_setInsert (nodup_setInsert hnd) | exact nodup_setInsert hnd | exact hnd, fun k => ?_⟩ <;>
        rw [hnew k] <;> simp [hle, hre]

variable [Double K]

structure Rep (s : Sweep K) (F : Front (Site K)) (L Q : List Nat) : Prop where
  el : s.el.Holds L
  queue : s.Queue Q
  beach : L.map (half s.el) = F.beach.map pair
  beach_lt : ∀ b ∈ F.beach, b.1 < F.nedges
  edges : s.Edges F
  fresh : ∀ h ∈ Q, ∀ v vx, s.pq.vertex h = some v → s.vertices[v]? = some vx → vx.sitenbr = none
  distinct : ∀ h ∈ Q, ∀ h' ∈ Q, s.pq.vertex h = s.pq.vertex h' → h = h'

theorem Rep.half (r : Rep s F L Q) (hm : h ∈ L) : ∃ b ∈ F.beach, Sweep.half s.el h = pair b := by
  have hmem : Sweep.half s.el h ∈ F.beach.map pair := r.beach ▸ List.mem_map_of_mem hm
  obtain ⟨b, hb, he⟩ := List.mem_map.mp hmem
  exact ⟨b, hb, he.symm⟩

/-- The part of the front's line that lies left of a gap, and the site that lies there. -/
theorem Rep.gap (r' : Rep s F L Q) (g : s.el.Gap L l r y x) :
    ∃ m n, F.beach = m ++ n ∧ l.map (Sweep.half s.el) = m.map pair ∧ r.map (Sweep.half s.el) = n.map pair ∧
      s.rightreg y = .ok (F.beyond s.bottomsite m) := by
  have hbeach := r'.beach
  rw [g.split, List.map_append] at hbeach
  obtain ⟨m, n, hmn, hm, hn⟩ := List.map_eq_append_iff.mp hbeach.symm
  refine ⟨m, n, hmn, hm.symm, hn.symm, ?_⟩
  obtain ⟨pre, hpre⟩ := g.last
  cases l using List.reverseRecOn with
  | nil =>
    have hy : y = s.el.elLeftend := by
      have := congrArg List.getLast? hpre
      simpa using this.symm
    have hm' : m = [] := by simpa using hm
    rw [hm', Sweep.rightreg, if_pos (by rw [hy]; exact r'.el.left_null)]
    rfl
  | append_singleton l c =>
    have hlast : (s.el.elLeftend :: l) ++ [c] = pre ++ [y] := hpre
    obtain rfl : c = y := List.singleton_inj.mp (List.append_inj' hlast rfl).2
    rw [List.map_append, List.map_singleton] at hm
    obtain ⟨m, n', rfl, -, hn'⟩ := List.map_eq_append_iff.mp hm
    obtain ⟨b, rfl, hb⟩ := List.map_eq_singleton_iff.mp hn'
    rw [F.beyond_concat]
    exact r'.edges.rightreg (r'.beach_lt b (by rw [hmn]; simp)) hb.symm

theorem Rep.edges_valid (r : Rep s F L Q) : ∀ h ∈ L, ∃ e, s.edgeOf h = .ok e := by
  intro h hm
  obtain ⟨b, hb, hh⟩ := r.half hm
  obtain ⟨e, -, he⟩ := r.edges.edgeOf (r.beach_lt b hb) hh
  exact ⟨e, he⟩

/-- `out_ep` writes down both ends of the edge. -/
theorem outEp_ok {e : Edge K} {line : Line K} {n : EdgeSide → Option Nat} (he : s.edges[k]? = some e)
    (hl : s.out.mLines[k]? = some line) (hends : ∀ sd, s.IsEnd (e.ep sd) (n sd)) :
    ∃ line', s.outEp k = .ok { s with out := { s.out with mLines := s.out.mLines.set k line' } } ∧
      line'.bisecting = line.bisecting ∧ line'.vertexIndex = n := by
  have hend : ∀ sd, ∃ o, s.endOf e sd = .ok o ∧ o.map Prod.fst = n sd := by
    intro sd
    have h := hends sd
    unfold endOf
    cases hep : e.ep sd with
    | none =>
      rw [hep] at h
      exact ⟨none, rfl, h.symm⟩
    | some v =>
      rw [hep] at h
      obtain ⟨vx, j, hv, hj, hn⟩ := h
      refine ⟨some (j, vx.coord), ?_, hn.symm⟩
      simp only [vertex_ok hv, ok_bind, hj, deref_some]
      rfl
  obtain ⟨left, hleft, hnl⟩ := hend .le
  obtain ⟨right, hright, hnr⟩ := hend .re
  unfold outEp
  rw [Sweep.edge, he, Diagram.line, hl]
  simp only [deref_some, ok_bind, hleft, hright]
  refine ⟨_, rfl, ?_, ?_⟩
  · split <;> rfl
  · split <;> funext sd <;> cases sd
    all_goals first | exact hnl | exact hnr

section Operations

theorem outBisector_ok {e : Edge K} {n : Nat} (h₁ : (e.reg .le).sitenbr < s.out.mSites.length)
    (h₂ : (e.reg .re).sitenbr < s.out.mSites.length) :
    ∃ line : Line K, (line.bisecting = fun sd => (e.reg sd).sitenbr) ∧
      s.outBisector e n = .ok { s with out :=
        { s.out with
          mSites := (s.out.mSites.modify (e.reg .le).sitenbr
            (fun sx => { sx with mEdgeIndexSet := setInsert sx.mEdgeIndexSet n })).modify (e.reg .re).sitenbr
            (fun sx => { sx with mEdgeIndexSet := setInsert sx.mEdgeIndexSet n })
          mLines := s.out.mLines ++ [line] } } := by
  unfold outBisector
  simp only [Diagram.site, List.getElem?_eq_getElem h₁, List.getElem?_eq_getElem h₂, deref_some, ok_bind]
  exact ⟨_, rfl, rfl⟩

theorem Rep.bisect (r' : Rep s F L Q) {s1 s2 : Site K} (h₁ : s1.sitenbr < s.out.mSites.length)
    (h₂ : s2.sitenbr < s.out.mSites.length) :
    ∃ t, s.bisect s1 s2 = .ok (F.nedges, t) ∧ Rep t (F.addEdge (facing .le s1 s2)) L Q ∧ s.Keeps t ∧
      t.el = s.el ∧ t.pq = s.pq ∧ t.vertices = s.vertices := by
  let e := newedge s1 s2
  have hreg : e.reg = facing .le s1 s2 := by
    funext sd
    cases sd <;> rfl
  have hep : ∀ sd, e.ep sd = none := fun _ => rfl
  have hle : (e.reg .le).sitenbr < s.out.mSites.length := by rw [hreg]; exact h₁
  have hre : (e.reg .re).sitenbr < s.out.mSites.length := by rw [hreg]; exact h₂
  obtain ⟨line, hline, hout⟩ := outBisector_ok (n := s.edges.length) hle hre
  have hlen := r'.edges.length
  have hrec := Recorded.addEdge r'.edges.out (g := e.reg)
    (fun sd => r'.edges.unset _ sd (Nat.le_refl _)) hline
  obtain ⟨t, ho, ht⟩ : ∃ t, s.bisect s1 s2 = .ok (F.nedges, t) ∧ t =
      { s with
        out :=
          { s.out with
            mSites := (s.out.mSites.modify (e.reg .le).sitenbr
              (fun sx => { sx with mEdgeIndexSet := setInsert sx.mEdgeIndexSet s.edges.length })).modify (e.reg .re).sitenbr
              (fun sx => { sx with mEdgeIndexSet := setInsert sx.mEdgeIndexSet s.edges.length })
            mLines := s.out.mLines ++ [line] }
        edges := s.edges ++ [e] } := by
    refine ⟨_, ?_, rfl⟩
    rw [Sweep.bisect, hout, ← hlen]
    rfl
  subst ht
  refine ⟨_, ho, ?_, ?_, rfl, rfl, rfl⟩
  · refine ⟨r'.el, ?_, r'.beach, fun b hb => Nat.lt_succ_of_lt (r'.beach_lt b hb), ?_, r'.fresh, r'.distinct⟩
    · exact r'.queue.frame rfl rfl rfl (Nat.le_refl _) (fun v vx hv => ⟨vx.sitenbr, hv⟩)
    · have hcases : ∀ (k : Nat) x, (s.edges ++ [e])[k]? = some x →
          (k < F.nedges ∧ s.edges[k]? = some x) ∨ (k = F.nedges ∧ x = e) := by
        intro k x hx
        rcases Nat.lt_or_ge k s.edges.length with hk | hk
        · rw [List.getElem?_append_left hk] at hx
          exact .inl ⟨hlen ▸ hk, hx⟩
        · rw [List.getElem?_append_right hk, List.getElem?_singleton] at hx
          split at hx
          · exact .inr ⟨by omega, (Option.some.inj hx).symm⟩
          · exact nomatch hx
      refine ⟨?_, ?_, ?_, fun k sd hk => r'.edges.unset k sd (Nat.le_of_succ_le hk), r'.edges.nverts, ?_⟩
      · show (s.edges ++ [e]).length = F.nedges + 1
        rw [List.length_append, hlen, List.length_singleton]
      · intro k x hx
        rcases hcases k x hx with ⟨hk, hx⟩ | ⟨rfl, rfl⟩
        · rw [Front.reg_addEdge_of_lt hk]
          exact r'.edges.reg k x hx
        · rw [Front.reg_addEdge, hreg]
      · intro k x hx sd
        rcases hcases k x hx with ⟨-, hx⟩ | ⟨rfl, rfl⟩
        · exact (r'.edges.ends k x hx sd).mono (fun v vx j hv hj => ⟨vx, hv, hj⟩)
        · rw [hep]
          exact r'.edges.unset _ sd (Nat.le_refl _)
      · rw [← hreg]
        exact hlen ▸ hrec
  · refine ⟨rfl, rfl, rfl, rfl, rfl, rfl, ?_⟩
    show List.map SiteEx.pos ((s.out.mSites.modify _ _).modify _ _) = _
    have hpos : ∀ (l : List (SiteEx K)) i, (l.modify i
        (fun sx => { sx with mEdgeIndexSet := setInsert sx.mEdgeIndexSet s.edges.length })).map SiteEx.pos =
        l.map SiteEx.pos := by
      intro l i
      refine List.ext_getElem? fun j => ?_
      rw [List.getElem?_map, List.getElem?_modify, List.getElem?_map]
      cases l[j]? with
      | none => rfl
      | some sx =>
        simp only [Option.map_eq_map, Option.map_some]
        split <;> rfl
    rw [hpos, hpos]

theorem Rep.makevertex (r' : Rep s F L Q) {vx : Vertex K} (hv : s.vertices[v]? = some vx) (hnew : vx.sitenbr = none)
    (hq : ∀ h ∈ Q, s.pq.vertex h ≠ some v) :
    ∃ t, s.makevertex v = .ok t ∧ Rep t { F with nverts := F.nverts + 1 } L Q ∧ s.Keeps t ∧
      t.el = s.el ∧ t.pq = s.pq ∧ t.vertices = s.vertices.set v { vx with sitenbr := some F.nverts } := by
  have hlt : v < s.vertices.length := (List.getElem?_eq_some_iff.mp hv).1
  have hn := r'.edges.nverts
  refine ⟨{ s with
      vertices := s.vertices.set v { vx with sitenbr := some s.nvertices }
      nvertices := s.nvertices + 1
      out := { s.out with mVertex := s.out.mVertex ++ [vx.coord] } }, ?_, ?_, ⟨rfl, rfl, rfl, rfl, rfl, rfl, rfl⟩,
    rfl, rfl, by rw [hn]⟩
  · rw [Sweep.makevertex, vertex_ok hv]
    rfl
  · have hset : ∀ (w : Nat) wx, s.vertices[w]? = some wx → w ≠ v →
        (s.vertices.set v { vx with sitenbr := some s.nvertices })[w]? = some wx :=
      fun w wx hw hne => by rw [List.getElem?_set_ne (Ne.symm hne)]; exact hw
    refine ⟨r'.el, ?_, r'.beach, r'.beach_lt, ?_, ?_, r'.distinct⟩
    · refine r'.queue.frame rfl rfl rfl (Nat.le_refl _) fun w wx hw => ?_
      by_cases hwv : w = v
      · subst hwv
        obtain rfl : vx = wx := Option.some.inj (hv.symm.trans hw)
        exact ⟨some s.nvertices, List.getElem?_set_self hlt⟩
      · exact ⟨wx.sitenbr, hset w wx hw hwv⟩
    · refine ⟨r'.edges.length, r'.edges.reg, fun k x hx sd => ?_, r'.edges.unset, congrArg (· + 1) hn, ?_⟩
      · refine (r'.edges.ends k x hx sd).mono fun w wx j hw hj => ⟨wx, hset w wx hw ?_, hj⟩
        rintro rfl
        obtain rfl : vx = wx := Option.some.inj (hv.symm.trans hw)
        exact nomatch hnew.symm.trans hj
      · have hout := r'.edges.out
        refine ⟨hout.lines, ?_, hout.bisecting, hout.named, hout.sets⟩
        show (s.out.mVertex ++ [vx.coord]).length = F.nverts + 1
        rw [List.length_append, hout.verts, List.length_singleton]
    · intro h hh w wx hw hwx
      have hwv : w ≠ v := fun he => hq h hh (he ▸ hw)
      have hwx' : (s.vertices.set v { vx with sitenbr := some s.nvertices })[w]? = some wx := hwx
      rw [List.getElem?_set_ne (Ne.symm hwv)] at hwx'
      exact r'.fresh h hh w wx hw hwx'

theorem Rep.endpoint (r' : Rep s F L Q) (hk : k < F.nedges) {vx : Vertex K} {j : Nat}
    (hv : s.vertices[v]? = some vx) (hj : vx.sitenbr = some j) (lr : EdgeSide) :
    ∃ t, s.endpoint k lr v = .ok t ∧ Rep t (F.setEnd (k, lr) j) L Q ∧ s.Keeps t ∧
      t.el = s.el ∧ t.pq = s.pq ∧ t.vertices = s.vertices := by
  obtain ⟨e, he, he'⟩ := r'.edges.edge hk
  obtain ⟨line, hline, -⟩ := r'.edges.line hk
  have hlt : k < s.edges.length := (List.getElem?_eq_some_iff.mp he).1
  have hltl : k < s.out.mLines.length := (List.getElem?_eq_some_iff.mp hline).1
  let e' : Edge K := { e with ep := update e.ep lr (some v) }
  let t : Sweep K := { s with edges := s.edges.set k e' }
  have hmono : ∀ o n, s.IsEnd o n → t.IsEnd o n := fun o n h => h.mono (fun w wx i hw hi => ⟨wx, hw, hi⟩)
  have hends' : ∀ sd, t.IsEnd (e'.ep sd) ((F.setEnd (k, lr) j).ends (k, sd)) := by
    intro sd
    show t.IsEnd (update e.ep lr (some v) sd) (update F.ends (k, lr) (some j) (k, sd))
    by_cases hs : sd = lr
    · subst hs
      rw [update_self, update_self]
      exact ⟨vx, j, hv, hj, rfl⟩
    · rw [update_of_ne hs, update_of_ne (fun h => hs (Prod.mk.inj h).2)]
      exact hmono _ _ (r'.edges.ends k e he sd)
  have hedge : ∀ (i : Nat) x, t.edges[i]? = some x → (i = k ∧ x = e') ∨ (i ≠ k ∧ s.edges[i]? = some x) := by
    intro i x hx
    have hx' : (s.edges.set k e')[i]? = some x := hx
    by_cases hik : i = k
    · rw [hik, List.getElem?_set_self hlt] at hx'
      exact .inl ⟨hik, (Option.some.inj hx').symm⟩
    · rw [List.getElem?_set_ne (Ne.symm hik)] at hx'
      exact .inr ⟨hik, hx'⟩
  have hends : ∀ (i : Nat) x, t.edges[i]? = some x → ∀ sd, t.IsEnd (x.ep sd) ((F.setEnd (k, lr) j).ends (i, sd)) := by
    intro i x hx sd
    rcases hedge i x hx with ⟨rfl, rfl⟩ | ⟨hik, hx⟩
    · exact hends' sd
    · show t.IsEnd (x.ep sd) (update F.ends (k, lr) (some j) (i, sd))
      rw [update_of_ne (fun h => hik (Prod.mk.inj h).1)]
      exact hmono _ _ (r'.edges.ends i x hx sd)
  have hreg : ∀ (i : Nat) x, t.edges[i]? = some x → x.reg = F.reg i := by
    intro i x hx
    rcases hedge i x hx with ⟨rfl, rfl⟩ | ⟨-, hx⟩
    · exact r'.edges.reg i e he
    · exact r'.edges.reg i x hx
  have hunset : ∀ i sd, F.nedges ≤ i → (F.setEnd (k, lr) j).ends (i, sd) = none := by
    intro i sd hi
    show update F.ends (k, lr) (some j) (i, sd) = none
    rw [update_of_ne (fun h => by have := (Prod.mk.inj h).1; omega)]
    exact r'.edges.unset i sd hi
  have hout := r'.edges.out
  have hother : ∀ (i : Nat) l, s.out.mLines[i]? = some l → i ≠ k → (∀ sd, (F.setEnd (k, lr) j).ends (i, sd) ≠ none) →
      ∀ sd, l.vertexIndex sd = (F.setEnd (k, lr) j).ends (i, sd) := by
    intro i l hl hik
    have hsame : ∀ sd, (F.setEnd (k, lr) j).ends (i, sd) = F.ends (i, sd) :=
      fun sd => update_of_ne (fun h => hik (Prod.mk.inj h).1) ..
    simp only [hsame]
    exact hout.named i l hl
  have hlen : t.edges.length = F.nedges := List.length_set.trans r'.edges.length
  have hqueue : t.Queue Q := r'.queue.frame rfl rfl rfl (Nat.le_refl _) (fun w wx hw => ⟨wx.sitenbr, hw⟩)
  have hstep : s.endpoint k lr v = if e'.ep lr.other = none then .ok t else t.outEp k := by
    rw [Sweep.endpoint, he', ok_bind]
    rfl
  by_cases hopen : e'.ep lr.other = none
  · refine ⟨t, hstep.trans (if_pos hopen), ?_, ⟨rfl, rfl, rfl, rfl, rfl, rfl, rfl⟩, rfl, rfl, rfl⟩
    refine ⟨r'.el, hqueue, r'.beach, r'.beach_lt, ⟨hlen, hreg, hends, hunset, r'.edges.nverts, ?_⟩, r'.fresh, r'.distinct⟩
    refine ⟨hout.lines, hout.verts, hout.bisecting, fun i l hl hset => ?_, hout.sets⟩
    by_cases hik : i = k
    · subst hik
      have hn := hends' lr.other
      rw [hopen] at hn
      exact absurd hn (hset lr.other)
    · exact hother i l hl hik hset
  · obtain ⟨line', ho, hb, hvi⟩ := outEp_ok (s := t) (List.getElem?_set_self hlt) hline hends'
    refine ⟨_, (hstep.trans (if_neg hopen)).trans ho, ?_, ⟨rfl, rfl, rfl, rfl, rfl, rfl, rfl⟩, rfl, rfl, rfl⟩
    have hl' : ∀ (i : Nat) l, (s.out.mLines.set k line')[i]? = some l → (i = k ∧ l = line') ∨ (i ≠ k ∧ s.out.mLines[i]? = some l) := by
      intro i l hl
      by_cases hik : i = k
      · rw [hik, List.getElem?_set_self hltl] at hl
        exact .inl ⟨hik, (Option.some.inj hl).symm⟩
      · rw [List.getElem?_set_ne (Ne.symm hik)] at hl
        exact .inr ⟨hik, hl⟩
    refine ⟨r'.el, hqueue.frame rfl rfl rfl (Nat.le_refl _) (fun w wx hw => ⟨wx.sitenbr, hw⟩), r'.beach, r'.beach_lt,
      ⟨hlen, hreg, hends, hunset, r'.edges.nverts, ?_⟩, r'.fresh, r'.distinct⟩
    refine ⟨List.length_set.trans hout.lines, hout.verts, fun i l hl sd => ?_, fun i l hl hset sd => ?_, hout.sets⟩
    · rcases hl' i l hl with ⟨rfl, rfl⟩ | ⟨-, hl⟩
      · rw [hb]
        exact hout.bisecting i line hline sd
      · exact hout.bisecting i l hl sd
    · rcases hl' i l hl with ⟨rfl, rfl⟩ | ⟨hik, hl⟩
      · rw [hvi]
      · exact hother i l hl hik hset sd

theorem Rep.elDelete (r' : Rep s F (l ++ h :: r) Q) {m n : List (Nat × EdgeSide)} {b : Nat × EdgeSide}
    (hF : F.beach = m ++ b :: n) (hlen : l.length = m.length) :
    ∃ t, s.elDelete h = .ok t ∧ Rep t { F with beach := m ++ n } (l ++ r) Q ∧ s.Keeps t ∧ t.pq = s.pq ∧
      t.vertices = s.vertices ∧ t.el.count = s.el.count ∧ t.el.elLeftend = s.el.elLeftend ∧
      t.el.elRightend = s.el.elRightend ∧ ∀ c ≠ h, Sweep.half t.el c = Sweep.half s.el c := by
  obtain ⟨el', ho, hh, hedge, hpm, hcount, hle, hre⟩ := elDelete_ok r'.el
  have hhalf : ∀ c ≠ h, Sweep.half el' c = Sweep.half s.el c := by
    intro c hc
    rw [Sweep.half, hedge, hpm, update_of_ne hc]
    rfl
  have hnd := r'.el.nodup_beach
  have hne : ∀ c ∈ l ++ r, c ≠ h := by
    intro c hc he
    have := List.nodup_cons.mp (List.perm_middle.nodup_iff.mp hnd)
    exact this.1 (he ▸ hc)
  have hbeach := r'.beach
  rw [hF, List.map_append, List.map_append, List.map_cons, List.map_cons] at hbeach
  obtain ⟨hm, hn⟩ := List.append_inj hbeach (by simpa using hlen)
  refine ⟨{ s with el := el' }, ho, ?_, ⟨rfl, rfl, rfl, rfl, rfl, rfl, rfl⟩, rfl, rfl, hcount, hle, hre, hhalf⟩
  refine ⟨hh, ?_, ?_, ?_, (r'.edges.withBeach (m ++ n)).frame rfl rfl rfl rfl, r'.fresh, r'.distinct⟩
  · exact r'.queue.frame rfl rfl rfl (Nat.le_of_eq hcount.symm) (fun w wx hw => ⟨wx.sitenbr, hw⟩)
  · show (l ++ r).map (Sweep.half el') = (m ++ n).map pair
    rw [List.map_congr_left (fun c hc => hhalf c (hne c hc)), List.map_append, List.map_append, hm,
      (List.cons.inj hn).2]
  · intro c hc
    refine r'.beach_lt c ?_
    rw [hF]
    rcases List.mem_append.mp hc with hc | hc <;> simp [hc]

/-- A new half-edge of an edge that there is, put into a gap. -/
theorem Rep.insert (r' : Rep s F L Q) (g : s.el.Gap L l r y x) (hk : k < F.nedges) (pm : EdgeSide)
    {m n : List (Nat × EdgeSide)} (hF : F.beach = m ++ n) (hlen : l.length = m.length) :
    ∃ t, (s.heCreate (.edge k) pm).2.elInsert y s.el.count = .ok t ∧
      Rep t { F with beach := m ++ (k, pm) :: n } (l ++ s.el.count :: r) Q ∧ s.Keeps t ∧ t.vertices = s.vertices ∧
      t.el.elLeftend = s.el.elLeftend ∧ t.el.elRightend = s.el.elRightend ∧
      t.pq.vertex s.el.count = none ∧ (∀ c ≠ s.el.count, t.pq.vertex c = s.pq.vertex c) ∧
      Sweep.half t.el s.el.count = (.edge k, pm) ∧ ∀ c ≠ s.el.count, Sweep.half t.el c = Sweep.half s.el c := by
  obtain ⟨el', ho, hh, hedge, hpm, hcount, hle, hre⟩ := elInsert_ok r'.el g k pm
  have hhalf : ∀ c ≠ s.el.count, Sweep.half el' c = Sweep.half s.el c := by
    intro c hc
    rw [Sweep.half, hedge, hpm, update_of_ne hc, update_of_ne hc]
    rfl
  have hnew : Sweep.half el' s.el.count = (.edge k, pm) := by
    rw [Sweep.half, hedge, hpm, update_self, update_self]
  have hne : ∀ c ∈ L, c ≠ s.el.count := fun c hc he => Nat.lt_irrefl _ (he ▸ r'.el.lt_of_mem hc)
  have hbeach := r'.beach
  rw [hF, g.split, List.map_append, List.map_append] at hbeach
  obtain ⟨hm, hn⟩ := List.append_inj hbeach (by simpa using hlen)
  have hQ : ∀ c ∈ Q, c ≠ s.el.count := by
    obtain ⟨B, hb⟩ := r'.queue
    exact fun c hc he => Nat.lt_irrefl _ (he ▸ hb.lt c hc)
  have hvertex : ∀ c ≠ s.el.count, update s.pq.vertex s.el.count none c = s.pq.vertex c := fun c hc => update_of_ne hc ..
  refine ⟨{ (s.heCreate (.edge k) pm).2 with el := el' }, ho, ?_, ⟨rfl, rfl, rfl, rfl, rfl, rfl, rfl⟩, rfl, hle, hre,
    update_self .., hvertex, hnew, hhalf⟩
  refine ⟨hh, ?_, ?_, ?_, (r'.edges.withBeach (m ++ (k, pm) :: n)).frame rfl rfl rfl rfl, ?_, ?_⟩
  · refine (r'.queue.heCreate (.edge k) pm).frame rfl rfl rfl ?_ (fun w wx hw => ⟨wx.sitenbr, hw⟩)
    exact Nat.le_of_eq hcount.symm
  · show (l ++ s.el.count :: r).map (Sweep.half el') = (m ++ (k, pm) :: n).map pair
    have hl : ∀ c ∈ l, c ≠ s.el.count := fun c hc => hne c (by rw [g.split]; simp [hc])
    have hr : ∀ c ∈ r, c ≠ s.el.count := fun c hc => hne c (by rw [g.split]; simp [hc])
    rw [List.map_append, List.map_cons, hnew, List.map_congr_left (fun c hc => hhalf c (hl c hc)),
      List.map_congr_left (fun c hc => hhalf c (hr c hc)), hm, hn, List.map_append, List.map_cons]
    rfl
  · intro b hb
    have hb' : b = (k, pm) ∨ b ∈ F.beach := by
      have hm : b ∈ m ++ (k, pm) :: n := hb
      rw [hF]
      simpa [or_left_comm] using hm
    rcases hb' with rfl | hb'
    · exact hk
    · exact r'.beach_lt b hb'
  · intro c hc w wx hw
    exact r'.fresh c hc w wx ((hvertex c (hQ c hc)).symm.trans hw)
  · intro c hc d hd hcd
    refine r'.distinct c hc d hd ?_
    have hcd' : update s.pq.vertex s.el.count none c = update s.pq.vertex s.el.count none d := hcd
    rwa [hvertex c (hQ c hc), hvertex d (hQ d hd)] at hcd'

theorem Rep.pqDelete (r' : Rep s F L Q) (hh : h ∈ Q ∨ s.pq.vertex h = none) :
    ∃ t, s.pqDelete h = .ok t ∧ Rep t F L (Q.erase h) ∧ s.Keeps t ∧ t.el = s.el ∧ t.vertices = s.vertices ∧
      t.pq.vertex = update s.pq.vertex h none := by
  obtain ⟨pq', ho, hq, hv, hsize⟩ := pqDelete_ok r'.queue hh
  obtain ⟨B, hb⟩ := r'.queue
  have hmem : ∀ c ∈ Q.erase h, c ≠ h ∧ c ∈ Q := fun c hc => hb.nodup.mem_erase_iff.mp hc
  refine ⟨{ s with pq := pq' }, ho, ?_, ⟨rfl, rfl, rfl, rfl, rfl, hsize, rfl⟩, rfl, rfl, hv⟩
  refine ⟨r'.el, hq, r'.beach, r'.beach_lt, r'.edges.frame rfl rfl rfl rfl, ?_, ?_⟩
  · intro c hc w wx hw
    have hw' : pq'.vertex c = some w := hw
    rw [hv, update_of_ne (hmem c hc).1] at hw'
    exact r'.fresh c (hmem c hc).2 w wx hw'
  · intro c hc d hd hcd
    have hcd' : pq'.vertex c = pq'.vertex d := hcd
    rw [hv, update_of_ne (hmem c hc).1, update_of_ne (hmem d hd).1] at hcd'
    exact r'.distinct c (hmem c hc).2 d (hmem d hd).2 hcd'

theorem Rep.schedule (r' : Rep s F L Q) (hh : h ∉ Q) (hlt : h < s.el.count) {vx : Vertex K}
    (hv : s.vertices[v]? = some vx) (hnew : vx.sitenbr = none) (hq : ∀ c ∈ Q, s.pq.vertex c ≠ some v) (q : Site K) :
    ∃ t, s.schedule h v q = .ok t ∧ Rep t F L (h :: Q) ∧ s.Keeps t ∧ t.el = s.el ∧ t.vertices = s.vertices ∧
      t.pq.vertex = update s.pq.vertex h (some v) := by
  obtain ⟨pq', ho, hqueue, hvertex, hsize⟩ := pqInsert_ok r'.queue hh hlt hv (dist vx.coord q.coord)
  have hne : ∀ c ∈ Q, c ≠ h := fun c hc he => hh (he ▸ hc)
  refine ⟨{ s with pq := pq' }, ?_, ?_, ⟨rfl, rfl, rfl, rfl, rfl, hsize, rfl⟩, rfl, rfl, hvertex⟩
  · rw [Sweep.schedule, vertex_ok hv]
    exact ho
  · refine ⟨r'.el, hqueue, r'.beach, r'.beach_lt, r'.edges.frame rfl rfl rfl rfl, ?_, ?_⟩
    · intro c hc w wx hw hwx
      have hw' : pq'.vertex c = some w := hw
      rw [hvertex] at hw'
      rcases List.mem_cons.mp hc with rfl | hc
      · rw [update_self] at hw'
        obtain rfl : v = w := Option.some.inj hw'
        obtain rfl : vx = wx := Option.some.inj (hv.symm.trans hwx)
        exact hnew
      · rw [update_of_ne (hne c hc)] at hw'
        exact r'.fresh c hc w wx hw' hwx
    · intro c hc d hd hcd
      have hcd' : pq'.vertex c = pq'.vertex d := hcd
      rw [hvertex] at hcd'
      rcases List.mem_cons.mp hc with hch | hcQ <;> rcases List.mem_cons.mp hd with hdh | hdQ
      · exact hch.trans hdh.symm
      · rw [hch, update_self, update_of_ne (hne d hdQ)] at hcd'
        exact absurd hcd'.symm (hq d hdQ)
      · rw [hdh, update_self, update_of_ne (hne c hcQ)] at hcd'
        exact absurd hcd' (hq c hcQ)
      · rw [update_of_ne (hne c hcQ), update_of_ne (hne d hdQ)] at hcd'
        exact r'.distinct c hcQ d hdQ hcd'

/-- Two half-edges meet only where both have edges, and different ones. -/
theorem Rep.intersect (r' : Rep s F L Q) (ha : a ∈ s.el.elLeftend :: (L ++ [s.el.elRightend]))
    (hb : b ∈ s.el.elLeftend :: (L ++ [s.el.elRightend])) :
    s.intersect a b = .ok (none, s) ∨
      ∃ p, s.intersect a b = .ok (some s.vertices.length, { s with vertices := s.vertices ++ [⟨p, none⟩] }) ∧
        a ∈ L ∧ b ∈ L ∧ s.el.elEdge a ≠ s.el.elEdge b := by
  have hreal : ∀ c ∈ s.el.elLeftend :: (L ++ [s.el.elRightend]), s.el.elEdge c = .null ∨ c ∈ L := by
    intro c hc
    rcases List.mem_cons.mp hc with rfl | hc
    · exact .inl r'.el.left_null
    · rcases List.mem_append.mp hc with hc | hc
      · exact .inr hc
      · exact .inl (List.mem_singleton.mp hc ▸ r'.el.right_null)
  unfold Sweep.intersect
  by_cases hnull : s.el.elEdge a = .null ∨ s.el.elEdge b = .null
  · exact .inl (if_pos hnull)
  · rw [if_neg hnull]
    have haL := (hreal a ha).resolve_left (fun h => hnull (.inl h))
    have hbL := (hreal b hb).resolve_left (fun h => hnull (.inr h))
    obtain ⟨e₁, he₁⟩ := r'.edges_valid a haL
    obtain ⟨e₂, he₂⟩ := r'.edges_valid b hbL
    simp only [he₁, he₂, ok_bind]
    by_cases hsame : (e₁.reg .re).sitenbr = (e₂.reg .re).sitenbr
    · exact .inl (if_pos hsame)
    · have hne : s.el.elEdge a ≠ s.el.elEdge b := by
        intro he
        refine hsame ?_
        have : s.edgeOf a = s.edgeOf b := by
          rw [Sweep.edgeOf, Sweep.edgeOf, he]
        rw [Except.ok.inj (he₁.symm.trans (this.trans he₂))]
      rw [if_neg hsame]
      split
      · exact .inl rfl
      · split <;> split
        · exact .inl rfl
        · exact .inr ⟨_, rfl, haL, hbL, hne⟩
        · exact .inl rfl
        · exact .inr ⟨_, rfl, haL, hbL, hne⟩

end Operations

end Sweep

end VastNC
