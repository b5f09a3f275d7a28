import VastNC.SweepRun

/-! What `calsfv` returns, for any sites and whatever the arithmetic of `double` does: it never reads
through a null pointer or past a vector, it ends, and the diagram has the shape of a Voronoi diagram. -/

namespace VastNC

open Function Linked Block

namespace Sweep

variable {K : Type} {s t : Sweep K} {F : Front (Site K)} {L Q l r : List Nat} {h k x fuel : Nat}

/-- The line has the ends that the edge has in the front. -/
def Named (d : Diagram K) (F : Front (Site K)) (k : Nat) : Prop :=
  ∀ line, d.mLines[k]? = some line → ∀ sd, line.vertexIndex sd = F.ends (k, sd)

variable [Double K]

theorem Rep.outEp (r' : Rep s F L Q) (hk : k < F.nedges) :
    ∃ t, s.outEp k = .ok t ∧ Rep t F L Q ∧ t.el = s.el ∧ s.Keeps t ∧ Named t.out F k ∧
      ∀ j, Named s.out F j → Named t.out F j := by
  obtain ⟨e, he, -⟩ := r'.edges.edge hk
  obtain ⟨line, hline, -⟩ := r'.edges.line hk
  have hlt : k < s.out.mLines.length := (List.getElem?_eq_some_iff.mp hline).1
  obtain ⟨line', ho, hb, hv⟩ := outEp_ok he hline (r'.edges.ends k e he)
  have hcases : ∀ (j : Nat) l, (s.out.mLines.set k line')[j]? = some l →
      (j = k ∧ l = line') ∨ (j ≠ k ∧ s.out.mLines[j]? = some l) := by
    intro j l hl
    by_cases hjk : j = k
    · rw [hjk, List.getElem?_set_self hlt] at hl
      exact .inl ⟨hjk, (Option.some.inj hl).symm⟩
    · rw [List.getElem?_set_ne (Ne.symm hjk)] at hl
      exact .inr ⟨hjk, hl⟩
  have hout := r'.edges.out
  refine ⟨_, ho, ?_, rfl, ⟨rfl, rfl, rfl, rfl, rfl, rfl, rfl⟩, fun l hl sd => ?_, fun j hj l hl sd => ?_⟩
  · refine ⟨r'.el, r'.queue.frame rfl rfl rfl (Nat.le_refl _) (fun _ wx hw => ⟨wx.sitenbr, hw⟩), r'.beach, r'.beach_lt,
      ⟨r'.edges.length, r'.edges.reg, fun j x hx sd => ?_, r'.edges.unset, r'.edges.nverts, ?_⟩, r'.fresh, r'.distinct⟩
    · exact (r'.edges.ends j x hx sd).mono fun w wx i hw hi => ⟨wx, hw, hi⟩
    · refine ⟨List.length_set.trans hout.lines, hout.verts, fun j l hl sd => ?_, fun j l hl hset sd => ?_, hout.sets⟩
      · rcases hcases j l hl with ⟨rfl, rfl⟩ | ⟨-, hl⟩
        · rw [hb]
          exact hout.bisecting j line hline sd
        · exact hout.bisecting j l hl sd
      · rcases hcases j l hl with ⟨rfl, rfl⟩ | ⟨-, hl⟩
        · rw [hv]
        · exact hout.named j l hl hset sd
  · rcases hcases k l hl with ⟨-, rfl⟩ | ⟨hne, -⟩
    · rw [hv]
    · exact absurd rfl hne
  · rcases hcases j l hl with ⟨rfl, rfl⟩ | ⟨-, hl⟩
    · rw [hv]
    · exact hj l hl sd

/-- The last loop writes down the ends of all edges that are still open. -/
theorem outOpen_ok (r' : Rep s F L Q) (hL : L = l ++ r) (hx : ∃ post, r ++ [s.el.elRightend] = x :: post)
    (hfuel : r.length < fuel) (hdone : ∀ h ∈ l, ∀ k, s.el.elEdge h = .edge k → Named s.out F k) :
    ∃ t, s.outOpen fuel x = .ok t ∧ Rep t F L Q ∧ t.el = s.el ∧ s.Keeps t ∧
      ∀ h ∈ L, ∀ k, s.el.elEdge h = .edge k → Named t.out F k := by
  induction r generalizing s l x fuel with
  | nil =>
    obtain ⟨fuel, rfl⟩ : ∃ n, fuel = n + 1 := ⟨fuel - 1, by simp at hfuel; omega⟩
    obtain ⟨post, hpost⟩ := hx
    have hxr : x = s.el.elRightend := (List.cons.inj hpost).1.symm
    refine ⟨s, ?_, r', rfl, Keeps.refl s, by rw [hL, List.append_nil]; exact hdone⟩
    rw [outOpen, if_pos hxr]
  | cons c r ih =>
    obtain ⟨fuel, rfl⟩ : ∃ n, fuel = n + 1 := ⟨fuel - 1, by simp at hfuel; omega⟩
    obtain ⟨post, hpost⟩ := hx
    obtain rfl : c = x := (List.cons.inj hpost).1
    have hc : c ∈ L := by simp [hL]
    obtain ⟨b, hb, hhalf⟩ := r'.half hc
    obtain ⟨t, ho, rt, hel, hk, hnamed, hmono⟩ := r'.outEp (r'.beach_lt b hb)
    obtain ⟨y, g⟩ := EdgeList.exists_gap_right s.el hL
    have hright : t.el.elRight c = some y := by
      rw [hel]
      exact g.right r'.el
    have hedge : s.el.elEdge c = .edge b.1 := congrArg Prod.fst hhalf
    have hdone' : ∀ h ∈ l ++ [c], ∀ k, t.el.elEdge h = .edge k → Named t.out F k := by
      intro h hh k hk'
      rw [hel] at hk'
      rcases List.mem_append.mp hh with hh | hh
      · exact hmono k (hdone h hh k hk')
      · rw [List.mem_singleton.mp hh, hedge] at hk'
        exact EdgePtr.edge.inj hk' ▸ hnamed
    obtain ⟨u, ho', ru, hel', hk', hall⟩ :=
      ih (l := l ++ [c]) rt (by simp [hL]) (by rw [hel]; exact g.first) (by simpa using hfuel) hdone'
    refine ⟨u, ?_, ru, hel'.trans hel, hk.trans hk', by rw [← hel]; exact hall⟩
    rw [outOpen, if_neg (r'.el.ne_right hc), edgePtr_ok hhalf, ok_bind, ho]
    simp only [ok_bind, hright, deref_some]
    exact ho'

end Sweep

namespace Diagram

variable {K : Type}

/-- The sites as `recompute` leaves them for `calsfv`. -/
def ofSites (pts : List (Point K)) : Diagram K := { mSites := pts.map (fun p => { pos := p }) }

/-- The lines and vertices are those of the front, with all ends. -/
structure Complete (d : Diagram K) (F : Front (Site K)) : Prop extends d.Recorded F where
  ends : ∀ k, Sweep.Named d F k

end Diagram

namespace Sweep

variable {K : Type} [Double K] {s : Sweep K} {F : Front (Site K)} {L : List Nat}

theorem Inv.complete {t : Sweep K} (i : Inv s none F L []) (r : Rep t F L [])
    (hnamed : ∀ h ∈ L, ∀ k, s.el.elEdge h = .edge k → Named t.out F k) : t.out.Complete F := by
  refine ⟨r.edges.out, fun k line hline sd => ?_⟩
  have hk : k < F.nedges := by
    rw [← r.edges.out.lines]
    exact (List.getElem?_eq_some_iff.mp hline).1
  by_cases hset : ∀ sd, F.ends (k, sd) ≠ none
  · exact r.edges.out.named k line hline hset sd
  · obtain ⟨sd', hopen⟩ := not_forall.mp hset
    have hbeach := (i.wf.open_iff (k, sd') hk).mp (not_not.mp hopen)
    have hmem : pair (k, sd') ∈ L.map (half s.el) := i.rep.beach ▸ List.mem_map_of_mem hbeach
    obtain ⟨h, hh, hhalf⟩ := List.mem_map.mp hmem
    exact hnamed h hh k (congrArg Prod.fst hhalf) line hline sd

/-- The state in which the loop begins stands for a front that has met the first site only. -/
theorem start_ok {s : Sweep K} {bottom : Site K} {rest : List (Site K)} (hsites : s.sites = bottom :: rest)
    (hidx : s.siteidx = 1) (hel : s.el = {}) (hedges : s.edges = [])
    (hn : s.nvertices = 0) (hlines : s.out.mLines = []) (hverts : s.out.mVertex = [])
    (hsets : ∀ sx ∈ s.out.mSites, sx.mEdgeIndexSet = [])
    (hlt : ∀ p ∈ s.sites, p.sitenbr < s.out.mSites.length) :
    let u := (pqInitialize { s with bottomsite := bottom }).elInitialize
    Inv u.nextone.2 u.nextone.1 (Front.start bottom) [] [] ∧ u.nextone.2.bottomsite = bottom ∧
      u.nextone.2.sites = s.sites ∧ u.nextone.2.out.mSites.map SiteEx.pos = s.out.mSites.map SiteEx.pos := by
  intro u
  have hsqrt : 2 ≤ s.sqrtNsites := Nat.le_sqrt.mpr (by omega)
  have hle' : u.el.elLeftend = s.el.count := rfl
  have hle : u.el.elLeftend = 0 := by rw [hle', hel]
  have hre' : u.el.elRightend = s.el.count + 1 := rfl
  have hre : u.el.elRightend = 1 := by rw [hre', hel]
  have hcount : u.el.count = 2 := by
    show s.el.count + 1 + 1 = 2
    rw [hel]
  have hright : u.el.elRight =
      update (update s.el.elRight s.el.count (some (s.el.count + 1))) (s.el.count + 1) none := rfl
  have hleft : u.el.elLeft =
      update (update s.el.elLeft s.el.count none) (s.el.count + 1) (some s.el.count) := rfl
  have hhash : u.el.elHash = ((List.replicate (2 * s.sqrtNsites) none).set 0 (some u.el.elLeftend)).set
      (2 * s.sqrtNsites - 1) (some u.el.elRightend) := rfl
  have hlen : u.el.elHash.length = 2 * s.sqrtNsites := by
    rw [hhash]
    simp
  have holds : u.el.Holds [] := by
    refine ⟨?_, ?_, ?_, ?_, ?_, fun h hh => absurd hh List.not_mem_nil, ?_, ?_, ?_, ?_, ?_, ?_⟩
    · refine List.isChain_cons_cons.mpr ⟨⟨?_, ?_⟩, List.isChain_singleton _⟩
      · rw [hright, hle', hre', update_of_ne (by omega), update_self]
      · rw [hleft, hle', hre', update_self]
    · rw [hle, hre]
      decide
    · rw [hle, hre, hcount]
      decide
    · show update (update s.el.elEdge s.el.count .null) (s.el.count + 1) .null s.el.count = .null
      rw [update_of_ne (by omega), update_self]
    · show update (update s.el.elEdge s.el.count .null) (s.el.count + 1) .null (s.el.count + 1) = .null
      rw [update_self]
    · intro h hh hout
      rw [hcount] at hh
      rw [hle, hre] at hout
      simp only [List.nil_append, List.mem_cons, List.not_mem_nil, or_false] at hout
      omega
    · rw [hlen]
      omega
    · rw [hhash, List.getElem?_set_ne (by omega), List.getElem?_set_self (by rw [List.length_replicate]; omega)]
    · rw [hlen, hhash, List.getElem?_set_self (by rw [List.length_set, List.length_replicate]; omega)]
    · intro i h hi
      rw [hhash, List.getElem?_set] at hi
      rw [hcount]
      split at hi
      · split at hi
        · have := Option.some.inj (Option.some.inj hi)
          omega
        · exact nomatch hi
      · rw [List.getElem?_set] at hi
        split at hi
        · split at hi
          · have := Option.some.inj (Option.some.inj hi)
            omega
          · exact nomatch hi
        · rw [List.getElem?_replicate] at hi
          split at hi
          · exact nomatch Option.some.inj hi
          · exact nomatch hi
    · rw [hright, hre', update_self]
  have hqueue : u.Queue [] := by
    refine ⟨fun _ => [], ?_, List.nodup_nil, fun i h => by simp, fun _ => List.nodup_nil, fun i _ => ?_, rfl,
      fun h hh => absurd hh List.not_mem_nil, fun h hh => absurd hh List.not_mem_nil,
      fun h hh => absurd hh List.not_mem_nil, fun _ _ => List.Pairwise.nil⟩
    · show 0 < 4 * s.sqrtNsites
      omega
    · rfl
  have hrec : u.out.Recorded (Front.start bottom) := by
    have hout : u.out = s.out := rfl
    refine ⟨by rw [hout, hlines]; rfl, by rw [hout, hverts]; rfl, fun k l hl => ?_, fun k l hl => ?_, fun i sx hi => ?_⟩
    · rw [hout, hlines] at hl
      exact nomatch hl
    · rw [hout, hlines] at hl
      exact nomatch hl
    · rw [hsets sx (List.mem_of_getElem? hi)]
      exact ⟨List.nodup_nil, fun k => iff_of_false List.not_mem_nil fun hk => Nat.not_lt_zero k hk.1⟩
  have hedge : u.Edges (Front.start bottom) := by
    have hu : u.edges = s.edges := rfl
    refine ⟨by rw [hu, hedges]; rfl, fun k e he => ?_, fun k e he => ?_, fun _ _ _ => rfl, hn, hrec⟩
    · rw [hu, hedges] at he
      exact nomatch he
    · rw [hu, hedges] at he
      exact nomatch he
  have hnil : ∀ h : Nat, h ∉ ([] : List Nat) := fun h => List.not_mem_nil
  have hrep : Rep u (Front.start bottom) [] [] :=
    ⟨holds, hqueue, rfl, fun b hb => absurd hb List.not_mem_nil, hedge, fun h hh => absurd hh (hnil h),
      fun h hh => absurd hh (hnil h)⟩
  have hsched : Sched u [] [] :=
    ⟨fun h hh => absurd hh (hnil h), fun h hh => absurd hh (hnil h), fun h hh => absurd hh (hnil h)⟩
  obtain ⟨hnext, hlast⟩ := nextone_sites u
  have hsame := nextone_same u
  refine ⟨⟨hrep.nextone, hsched.nextone, ?_, ?_, hlast, ?_⟩, hsame.bottomsite, hsame.sites, hsame.pos⟩
  · rw [hsame.bottomsite]
    exact Front.wf_start bottom
  · have hu : u.sites = s.sites ∧ u.siteidx = s.siteidx := ⟨rfl, rfl⟩
    rw [hnext, hsame.sites, hu.1, hu.2, hsites, hidx]
    rfl
  · have hlen := congrArg List.length hsame.pos
    simp only [List.length_map] at hlen
    rw [hlen, hsame.sites]
    exact hlt

end Sweep

namespace Diagram

variable {K : Type}

theorem length_readsites (d : Diagram K) : d.readsites.length = d.mSites.length := by
  simp [readsites]

theorem mem_readsites {d : Diagram K} {p : Site K} (hp : p ∈ d.readsites) : p.sitenbr < d.mSites.length := by
  obtain ⟨⟨sx, i⟩, hm, rfl⟩ := List.mem_map.mp hp
  exact (List.mem_zipIdx hm).2.1.trans_eq (Nat.zero_add _)

variable [Double K]

theorem perm_qsort (l : List (Site K)) : (qsort l).Perm l := List.perm_insertionSort _ l

/-- What `calsfv` and `Voronoi` do before the loop. -/
def opening (d : Diagram K) : Except Fault (Sweep K × Option (Site K)) := do
  let first ← d.site 0
  let sites := qsort d.readsites
  let bottom ← deref "there is no site" sites.head?
  let top ← deref "there is no site" sites.getLast?
  let s : Sweep K :=
    { xmin := d.readsites.foldl (fun m s => if s.coord.x < m then s.coord.x else m) first.pos.x
      xmax := d.readsites.foldl (fun m s => if s.coord.x > m then s.coord.x else m) first.pos.x
      ymin := bottom.coord.y
      ymax := top.coord.y
      sites := sites
      siteidx := 1
      bottomsite := bottom
      pq := { ystar := fun _ => 0.0 }
      out := d }
  let (newsite, s) := s.pqInitialize.elInitialize.nextone
  return (s, newsite)

theorem calsfv_eq {d : Diagram K} {s : Sweep K} {newsite : Option (Site K)} (h : d.opening = .ok (s, newsite))
    (fuel : Nat) :
    d.calsfv fuel = (do
      let s ← s.sweep fuel newsite
      let lbnd ← deref "ELright is null" (s.el.elRight s.el.elLeftend)
      let s ← s.outOpen (s.el.count + 1) lbnd
      return s.out) := by
  unfold opening at h
  unfold calsfv
  cases hfirst : d.site 0 with
  | error f =>
    rw [hfirst] at h
    exact nomatch h
  | ok first =>
    rw [hfirst, ok_bind] at h
    rw [ok_bind]
    dsimp only at h ⊢
    cases hbottom : deref "there is no site" (qsort d.readsites).head? with
    | error f =>
      rw [hbottom] at h
      exact nomatch h
    | ok bottom =>
      rw [hbottom, ok_bind] at h
      rw [ok_bind]
      cases htop : deref "there is no site" (qsort d.readsites).getLast? with
      | error f =>
        rw [htop] at h
        exact nomatch h
      | ok top =>
        rw [htop, ok_bind] at h
        obtain ⟨rfl, rfl⟩ := Prod.mk.inj (Except.ok.inj h)
        rw [ok_bind]
        unfold Sweep.voronoi
        simp only [bind_assoc]

/-- The loop begins with the first of the sites met. -/
theorem opening_ok {pts : List (Point K)} (hne : pts ≠ []) :
    ∃ s n bottom rest, (ofSites pts).opening = .ok (s, n) ∧ s.sites = bottom :: rest ∧ s.bottomsite = bottom ∧
      s.sites.Perm (ofSites pts).readsites ∧ s.out.mSites.map SiteEx.pos = pts ∧
      Sweep.Inv s n (Front.start bottom) [] [] := by
  let d₀ : Diagram K := ofSites pts
  have hlen : d₀.mSites.length = pts.length := by simp [d₀, ofSites]
  have hpos : 0 < pts.length := List.length_pos_of_ne_nil hne
  have hperm := perm_qsort d₀.readsites
  have hsorted : (qsort d₀.readsites).length = pts.length := by
    rw [hperm.length_eq, length_readsites, hlen]
  obtain ⟨bottom, rest, hq⟩ : ∃ b r, qsort d₀.readsites = b :: r := List.exists_cons_of_length_pos (hsorted ▸ hpos)
  obtain ⟨top, htop⟩ : ∃ t, (qsort d₀.readsites).getLast? = some t := by
    rw [hq]
    exact ⟨_, List.getLast?_eq_some_getLast (List.cons_ne_nil bottom rest)⟩
  obtain ⟨first, hfirst⟩ : ∃ sx, d₀.mSites[0]? = some sx := ⟨_, List.getElem?_eq_getElem (by omega)⟩
  let s : Sweep K :=
    { xmin := d₀.readsites.foldl (fun m s => if s.coord.x < m then s.coord.x else m) first.pos.x
      xmax := d₀.readsites.foldl (fun m s => if s.coord.x > m then s.coord.x else m) first.pos.x
      ymin := bottom.coord.y
      ymax := top.coord.y
      sites := qsort d₀.readsites
      siteidx := 1
      bottomsite := bottom
      pq := { ystar := fun _ => 0.0 }
      out := d₀ }
  have hsets : ∀ sx ∈ s.out.mSites, sx.mEdgeIndexSet = [] := by
    intro sx hsx
    obtain ⟨p, -, rfl⟩ := List.mem_map.mp (show sx ∈ pts.map _ from hsx)
    rfl
  have hlt : ∀ p ∈ s.sites, p.sitenbr < s.out.mSites.length := fun p hp => mem_readsites (hperm.mem_iff.mp hp)
  obtain ⟨i, hbottom, hsites, hposs⟩ := Sweep.start_ok (s := s) hq rfl rfl rfl rfl rfl rfl hsets hlt
  refine ⟨_, _, bottom, rest, ?_, hsites.trans hq, hbottom, (List.Perm.of_eq hsites).trans hperm, ?_, i⟩
  · unfold opening
    rw [site, hfirst, deref_some, ok_bind]
    dsimp only
    rw [htop, hq, List.head?_cons, deref_some, ok_bind, deref_some, ok_bind, ← hq]
    rfl
  · rw [hposs]
    show (pts.map (fun p => ({ pos := p } : SiteEx K))).map SiteEx.pos = pts
    rw [List.map_map]
    exact List.map_id pts

/-- However many more turns it may take than three for each site, the sweep returns one complete diagram,
of a well-formed front that has met every site once. -/
theorem calsfv_ok {pts : List (Point K)} (hne : pts ≠ []) :
    ∃ d F bottom, (∀ fuel, 3 * pts.length ≤ fuel → (ofSites pts).calsfv fuel = .ok d) ∧ F.Wf bottom ∧ d.Complete F ∧
      F.seen.Perm (ofSites pts).readsites ∧ d.mSites.map SiteEx.pos = pts := by
  obtain ⟨s, n, bottom, rest, hopen, hrest, hbottom, hperm, hpos, i⟩ := opening_ok hne
  have hlen : rest.length + 1 = pts.length := by
    have := hperm.length_eq
    rwa [hrest, length_readsites, ofSites, List.length_map] at this
  have hmeasure : (Front.start bottom).beach.length +
      3 * (s.sites.length - (Front.start bottom).seen.length) < 3 * pts.length := by
    rw [hrest, List.length_cons]
    show 0 + 3 * (rest.length + 1 - 1) < 3 * pts.length
    omega
  obtain ⟨t, F, L, ho, hrun, it, hsame⟩ := Sweep.sweep_ok i hmeasure
  obtain ⟨x, post, hx⟩ : ∃ x post, L ++ [t.el.elRightend] = x :: post := by
    cases L with
    | nil => exact ⟨_, _, rfl⟩
    | cons a L => exact ⟨_, _, rfl⟩
  have g : t.el.Gap L [] L t.el.elLeftend x := ⟨rfl, ⟨[], rfl⟩, post, hx⟩
  have hfuel : L.length < t.el.count + 1 := by
    have := it.rep.el.length_lt
    omega
  obtain ⟨u, ho', ru, -, hk, hnamed⟩ :=
    Sweep.outOpen_ok it.rep (l := []) rfl ⟨post, hx⟩ hfuel (fun h hh => absurd hh List.not_mem_nil)
  refine ⟨u.out, F, bottom, fun fuel hle => ?_, ?_, it.complete ru hnamed, ?_, ?_⟩
  · rw [calsfv_eq hopen, Sweep.sweep_mono ho hle, ok_bind, g.right it.rep.el, deref_some, ok_bind, ho']
    rfl
  · have := it.wf
    rwa [hsame.bottomsite, hbottom] at this
  · have hall := it.sites
    rw [it.last rfl, Option.toList_none, List.append_nil, List.append_nil, hsame.sites] at hall
    rwa [hall]
  · rw [hk.pos, hsame.pos, hpos]

end Diagram

end VastNC
