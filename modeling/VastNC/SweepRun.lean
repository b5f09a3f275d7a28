import VastNC.SweepRep

/-! Each turn of the loop of `Voronoi` is an event of the front that the state stands for. No turn
faults, and there are at most three for each site. -/

namespace VastNC

open Function Linked Block

namespace Sweep

variable {K : Type} {s t : Sweep K} {F : Front (Site K)} {L Q l r : List Nat} {a b c h k v y x i : Nat} {pm : EdgeSide}

theorem Gap.inner (hh : s.el.Holds L) (g : s.el.Gap L l r a b) (ha : a ∈ L) (hb : b ∈ L) :
    ∃ l₀ r₀, L = l₀ ++ a :: b :: r₀ := by
  obtain ⟨pre, hpre⟩ := g.last
  obtain ⟨post, hpost⟩ := g.first
  cases l using List.reverseRecOn with
  | nil =>
    have hpre' : [] ++ [s.el.elLeftend] = pre ++ [a] := hpre
    exact absurd (List.singleton_inj.mp (List.append_inj' hpre' rfl).2).symm (hh.ne_left ha)
  | append_singleton l c =>
    have hlast : (s.el.elLeftend :: l) ++ [c] = pre ++ [a] := hpre
    obtain rfl : c = a := List.singleton_inj.mp (List.append_inj' hlast rfl).2
    cases r with
    | nil => exact absurd (List.cons.inj hpost).1.symm (hh.ne_right hb)
    | cons d r =>
      obtain rfl : d = b := (List.cons.inj hpost).1
      exact ⟨l, r, by rw [g.split]; simp⟩

theorem Gap.mem_cells (g : s.el.Gap L l r a b) :
    a ∈ s.el.elLeftend :: (L ++ [s.el.elRightend]) ∧ b ∈ s.el.elLeftend :: (L ++ [s.el.elRightend]) := by
  obtain ⟨pre, post, hall, -, -⟩ := g.cells
  rw [hall]
  exact ⟨by simp, by simp⟩

/-- An event is queued for a half-edge with a vertex, and its right neighbour is of another edge. -/
structure Sched (s : Sweep K) (L Q : List Nat) : Prop where
  sub : ∀ h ∈ Q, h ∈ L
  queued : ∀ h ∈ L, s.pq.vertex h ≠ none → h ∈ Q
  next : ∀ h ∈ Q, ∃ l b r, L = l ++ h :: b :: r ∧ s.el.elEdge h ≠ s.el.elEdge b

/-- A new half-edge without an event keeps the queue in order, also where it comes after one that is
queued, as it is of another edge. -/
theorem Sched.insert (d : Sched s L Q) (g : s.el.Gap L l r y x) (hnew : t.pq.vertex c = none)
    (hsame : ∀ h ≠ c, t.pq.vertex h = s.pq.vertex h) (hc : c ∉ L) (hhalf : ∀ h ≠ c, half t.el h = half s.el h)
    (hk : half t.el c = (.edge k, pm)) (hy : y ∈ Q → s.el.elEdge y ≠ .edge k) : Sched t (l ++ c :: r) Q := by
  have hne : ∀ h ∈ L, h ≠ c := fun h hm he => hc (he ▸ hm)
  have hmem : ∀ h, h ∈ l ++ c :: r ↔ h = c ∨ h ∈ L := by
    intro h
    rw [g.split]
    simp [or_left_comm]
  have hedge : ∀ h ∈ L, t.el.elEdge h = s.el.elEdge h := fun h hm => congrArg Prod.fst (hhalf h (hne h hm))
  refine ⟨fun h hm => (hmem h).mpr (.inr (d.sub h hm)), fun h hm hv => ?_, fun h hm => ?_⟩
  · rcases (hmem h).mp hm with rfl | hm
    · exact absurd hnew hv
    · rw [hsame h (hne h hm)] at hv
      exact d.queued h hm hv
  · obtain ⟨l₀, b, r₀, hL, hne'⟩ := d.next h hm
    have hhL : h ∈ L := d.sub h hm
    have hbL : b ∈ L := by simp [hL]
    have hne'' : t.el.elEdge h ≠ t.el.elEdge b := by rwa [hedge h hhL, hedge b hbL]
    have hcut : l ++ r = l₀ ++ h :: b :: r₀ := g.split.symm.trans hL
    rcases List.append_eq_append_iff.mp hcut with ⟨m, rfl, rfl⟩ | ⟨m, rfl, hm'⟩
    · exact ⟨l ++ c :: m, b, r₀, by simp, hne''⟩
    · cases m with
      | nil =>
        rw [List.nil_append] at hm'
        exact ⟨l₀ ++ [c], b, r₀, by simp [← hm'], hne''⟩
      | cons e m =>
        obtain ⟨rfl, hrest⟩ := List.cons.inj hm'
        cases m with
        | nil =>
          obtain ⟨pre, hpre⟩ := g.last
          have hlast : (s.el.elLeftend :: l₀) ++ [h] = pre ++ [y] := hpre
          obtain rfl : h = y := List.singleton_inj.mp (List.append_inj' hlast rfl).2
          refine ⟨l₀, c, r, by simp, ?_⟩
          have hck : t.el.elEdge c = .edge k := congrArg Prod.fst hk
          rw [hedge h hhL, hck]
          exact hy hm
        | cons e' m =>
          obtain ⟨rfl, rfl⟩ := List.cons.inj hrest
          exact ⟨l₀, b, m ++ c :: r, by simp, hne''⟩

/-- Two neighbours give way to a new half-edge, and leave the queue with their events. -/
theorem Sched.contract {Q' : List Nat} (d : Sched s (l ++ a :: b :: r) Q) (hnd : (l ++ a :: b :: r).Nodup)
    (hQ : ∀ h, h ∈ Q' ↔ h ≠ a ∧ h ≠ b ∧ h ∈ Q) (hnew : t.pq.vertex c = none)
    (hsame : ∀ h, h ≠ b → h ≠ c → t.pq.vertex h = s.pq.vertex h) (hc : c ∉ l ++ a :: b :: r)
    (hhalf : ∀ h, h ≠ a → h ≠ b → h ≠ c → half t.el h = half s.el h) (hk : half t.el c = (.edge k, pm))
    (hfresh : ∀ h ∈ l ++ a :: b :: r, s.el.elEdge h ≠ .edge k) : Sched t (l ++ c :: r) Q' := by
  have hne : ∀ h ∈ l ++ a :: b :: r, h ≠ c := fun h hm he => hc (he ▸ hm)
  have hperm : (l ++ a :: b :: r).Perm (a :: b :: (l ++ r)) :=
    List.perm_middle.trans (List.Perm.cons a List.perm_middle)
  have hrest : ∀ h ∈ l ++ r, h ≠ a ∧ h ≠ b := by
    intro h hm
    obtain ⟨ha, hnd'⟩ := List.nodup_cons.mp (hperm.nodup_iff.mp hnd)
    exact ⟨fun he => ha (he ▸ List.mem_cons_of_mem b hm), fun he => (List.nodup_cons.mp hnd').1 (he ▸ hm)⟩
  have hedge : ∀ h ∈ l ++ a :: b :: r, h ≠ a → h ≠ b → t.el.elEdge h = s.el.elEdge h :=
    fun h hm ha hb => congrArg Prod.fst (hhalf h ha hb (hne h hm))
  have hck : t.el.elEdge c = .edge k := congrArg Prod.fst hk
  refine ⟨fun h hm => ?_, fun h hm hv => ?_, fun h hm => ?_⟩
  · obtain ⟨ha, hb, hm⟩ := (hQ h).mp hm
    have := (List.mem_cons.mp (hperm.mem_iff.mp (d.sub h hm))).resolve_left ha
    have := (List.mem_cons.mp this).resolve_left hb
    rcases List.mem_append.mp this with hm | hm <;> simp [hm]
  · have hm' : h = c ∨ h ∈ l ++ r := by simpa [or_left_comm] using hm
    rcases hm' with rfl | hm'
    · exact absurd hnew hv
    · obtain ⟨ha, hb⟩ := hrest h hm'
      have hL : h ∈ l ++ a :: b :: r := hperm.mem_iff.mpr (by simp [List.mem_append.mp hm'])
      rw [hsame h hb (hne h hL)] at hv
      exact (hQ h).mpr ⟨ha, hb, d.queued h hL hv⟩
  · obtain ⟨ha, hb, hm⟩ := (hQ h).mp hm
    have hhL := d.sub h hm
    obtain ⟨l₀, e, r₀, hL, hne'⟩ := d.next h hm
    rcases List.append_eq_append_iff.mp hL with ⟨m, rfl, hm'⟩ | ⟨m, rfl, hm'⟩
    · cases m with
      | nil => exact absurd (List.cons.inj hm').1.symm ha
      | cons f m =>
        obtain ⟨rfl, hm''⟩ := List.cons.inj hm'
        cases m with
        | nil => exact absurd (List.cons.inj hm'').1.symm hb
        | cons g m =>
          obtain ⟨rfl, rfl⟩ := List.cons.inj hm''
          obtain ⟨hea, heb⟩ := hrest e (by simp)
          exact ⟨l ++ c :: m, e, r₀, by simp, by rwa [hedge h hhL ha hb, hedge e (by simp) hea heb]⟩
    · cases m with
      | nil => exact absurd (List.cons.inj hm').1 ha
      | cons f m =>
        obtain ⟨rfl, hm''⟩ := List.cons.inj hm'
        cases m with
        | nil =>
          refine ⟨l₀, c, r, by simp, ?_⟩
          rw [hedge h hhL ha hb, hck]
          exact hfresh h hhL
        | cons g m =>
          obtain ⟨rfl, -⟩ := List.cons.inj hm''
          obtain ⟨hea, heb⟩ := hrest e (by simp)
          exact ⟨l₀, e, m ++ c :: r, by simp, by rwa [hedge h hhL ha hb, hedge e (by simp) hea heb]⟩

/-- What a turn of the loop does not change, the next site apart. -/
structure Same (s t : Sweep K) : Prop where
  sites : t.sites = s.sites
  bottomsite : t.bottomsite = s.bottomsite
  ymin : t.ymin = s.ymin
  ymax : t.ymax = s.ymax
  size : t.pq.pqHashsize = s.pq.pqHashsize
  pos : t.out.mSites.map SiteEx.pos = s.out.mSites.map SiteEx.pos

theorem Same.refl (s : Sweep K) : s.Same s := ⟨rfl, rfl, rfl, rfl, rfl, rfl⟩

theorem Same.trans {u : Sweep K} (h : s.Same t) (h' : t.Same u) : s.Same u :=
  ⟨h'.sites.trans h.sites, h'.bottomsite.trans h.bottomsite, h'.ymin.trans h.ymin, h'.ymax.trans h.ymax,
    h'.size.trans h.size, h'.pos.trans h.pos⟩

theorem Keeps.same (h : s.Keeps t) : s.Same t := ⟨h.sites, h.bottomsite, h.ymin, h.ymax, h.size, h.pos⟩

theorem nextone_same (s : Sweep K) : s.Same s.nextone.2 := by
  unfold nextone
  split <;> exact ⟨rfl, rfl, rfl, rfl, rfl, rfl⟩

theorem Sched.nextone (d : Sched s L Q) : Sched s.nextone.2 L Q := by
  unfold Sweep.nextone
  split
  · exact ⟨d.sub, d.queued, d.next⟩
  · exact d

theorem nextone_sites (s : Sweep K) :
    s.nextone.1.toList ++ s.nextone.2.sites.drop s.nextone.2.siteidx = s.sites.drop s.siteidx ∧
      (s.nextone.1 = none → s.nextone.2.sites.drop s.nextone.2.siteidx = []) := by
  unfold nextone
  cases hp : s.sites[s.siteidx]? with
  | none =>
    have hnil : s.sites.drop s.siteidx = [] := List.drop_eq_nil_of_le (List.getElem?_eq_none_iff.mp hp)
    exact ⟨rfl, fun _ => hnil⟩
  | some p =>
    obtain ⟨hlt, rfl⟩ := List.getElem?_eq_some_iff.mp hp
    exact ⟨(List.drop_eq_getElem_cons hlt).symm, fun h => nomatch h⟩

variable [Double K]

section Meet

theorem Queue.vertex_lt (hq : s.Queue Q) (hh : h ∈ Q) : ∃ v, s.pq.vertex h = some v ∧ v < s.vertices.length := by
  obtain ⟨B, hb⟩ := hq
  obtain ⟨v, vx, hv, hx⟩ := hb.vertex h hh
  exact ⟨v, hv, (List.getElem?_eq_some_iff.mp hx).1⟩

theorem Rep.nodup (r' : Rep s F L Q) : Q.Nodup := r'.queue.elim fun _ hb => hb.nodup

theorem Rep.not_mem (r' : Rep s F L Q) (hv : s.pq.vertex h = none) : h ∉ Q := fun hh => by
  obtain ⟨v, hv', -⟩ := r'.queue.vertex_lt hh
  exact nomatch hv.symm.trans hv'

theorem Rep.newVertex (r' : Rep s F L Q) (p : Point K) :
    Rep { s with vertices := s.vertices ++ [⟨p, none⟩] } F L Q := by
  have hold : ∀ (w : Nat) wx, s.vertices[w]? = some wx → (s.vertices ++ [⟨p, none⟩])[w]? = some wx := by
    intro w wx hw
    rw [List.getElem?_append_left (List.getElem?_eq_some_iff.mp hw).1]
    exact hw
  refine ⟨r'.el, ?_, r'.beach, r'.beach_lt, ?_, ?_, r'.distinct⟩
  · exact r'.queue.frame rfl rfl rfl (Nat.le_refl _) (fun w wx hw => ⟨wx.sitenbr, hold w wx hw⟩)
  · exact ⟨r'.edges.length, r'.edges.reg,
      fun k x hx sd => (r'.edges.ends k x hx sd).mono fun w wx j hw hj => ⟨wx, hold w wx hw, hj⟩,
      r'.edges.unset, r'.edges.nverts, r'.edges.out⟩
  · intro h hh w wx hw hwx
    obtain ⟨w', hw', hlt⟩ := r'.queue.vertex_lt hh
    obtain rfl : w' = w := Option.some.inj (hw'.symm.trans hw)
    have hwx' : (s.vertices ++ [⟨p, none⟩])[w']? = some wx := hwx
    rw [List.getElem?_append_left hlt] at hwx'
    exact r'.fresh h hh w' wx hw' hwx'

/-- Two neighbours may meet; then the event of the left one is put in the queue, in place of the one
that it may have had. -/
theorem meetLeft_ok (r' : Rep s F L Q) (d : Sched s L Q) (g : s.el.Gap L l r a b) (q : Site K) :
    ∃ t Q', s.meetLeft a b q = .ok t ∧ Rep t F L Q' ∧ Sched t L Q' ∧ s.Keeps t ∧ t.el = s.el ∧
      ∀ c ≠ a, t.pq.vertex c = s.pq.vertex c := by
  obtain ⟨hma, hmb⟩ := Gap.mem_cells g
  unfold meetLeft
  rcases r'.intersect hma hmb with ho | ⟨p, ho, haL, hbL, hne⟩
  · exact ⟨s, Q, by rw [ho]; rfl, r', d, Keeps.refl s, rfl, fun _ _ => rfl⟩
  · have r₁ := r'.newVertex p
    have hdel : a ∈ Q ∨ s.pq.vertex a = none := by
      by_cases hv : s.pq.vertex a = none
      · exact .inr hv
      · exact .inl (d.queued a haL hv)
    obtain ⟨t₂, ho₂, r₂, k₂, hel₂, hvs₂, hv₂⟩ := r₁.pqDelete hdel
    have hmem : ∀ c ∈ Q.erase a, c ≠ a ∧ c ∈ Q := fun c hc => r'.nodup.mem_erase_iff.mp hc
    have hnew : t₂.vertices[s.vertices.length]? = some ⟨p, none⟩ := by
      rw [hvs₂]
      exact List.getElem?_concat_length
    have hother : ∀ c ∈ Q.erase a, t₂.pq.vertex c ≠ some s.vertices.length := by
      intro c hc
      obtain ⟨w, hw, hlt⟩ := r'.queue.vertex_lt (hmem c hc).2
      have hw₂ : t₂.pq.vertex c = some w := by
        rw [hv₂, update_of_ne (hmem c hc).1]
        exact hw
      rw [hw₂]
      exact fun he => absurd (Option.some.inj he) (Nat.ne_of_lt hlt)
    have hlt : a < t₂.el.count := by
      rw [hel₂]
      exact r'.el.lt_of_mem haL
    obtain ⟨t₃, ho₃, r₃, k₃, hel₃, -, hv₃⟩ :=
      r₂.schedule (fun hm => (hmem a hm).1 rfl) hlt hnew rfl hother q
    have hsame : ∀ c ≠ a, t₃.pq.vertex c = s.pq.vertex c := by
      intro c hc
      rw [hv₃, update_of_ne hc, hv₂, update_of_ne hc]
    have hel : t₃.el = s.el := hel₃.trans hel₂
    have k₁ : s.Keeps { s with vertices := s.vertices ++ [⟨p, none⟩] } := ⟨rfl, rfl, rfl, rfl, rfl, rfl, rfl⟩
    refine ⟨t₃, a :: Q.erase a, ?_, r₃, ⟨?_, ?_, ?_⟩, (k₁.trans k₂).trans k₃, hel, hsame⟩
    · rw [ho]
      simp only [ok_bind, ho₂, ho₃]
    · exact List.forall_mem_cons.mpr ⟨haL, fun c hc => d.sub c (hmem c hc).2⟩
    · intro c hc hv
      by_cases hca : c = a
      · exact hca ▸ List.mem_cons_self ..
      · rw [hsame c hca] at hv
        exact List.mem_cons_of_mem a (r'.nodup.mem_erase_iff.mpr ⟨hca, d.queued c hc hv⟩)
    · rw [hel]
      refine List.forall_mem_cons.mpr ⟨?_, fun c hc => d.next c (hmem c hc).2⟩
      obtain ⟨l₀, r₀, hL⟩ := Gap.inner r'.el g haL hbL
      exact ⟨l₀, b, r₀, hL, hne⟩

/-- A half-edge without an event has none to be replaced. -/
theorem meetRight_eq (r' : Rep s F L Q) (g : s.el.Gap L l r a b) (hv : s.pq.vertex a = none) (q : Site K) :
    s.meetRight a b q = s.meetLeft a b q := by
  obtain ⟨hma, hmb⟩ := Gap.mem_cells g
  unfold meetRight meetLeft
  rcases r'.intersect hma hmb with ho | ⟨p, ho, -, -, -⟩
  · rw [ho]
    rfl
  · have hdel : pqDelete { s with vertices := s.vertices ++ [⟨p, none⟩] } a =
        .ok { s with vertices := s.vertices ++ [⟨p, none⟩] } := by
      rw [pqDelete, hv]
    rw [ho]
    simp only [ok_bind, hdel]

theorem meetRight_ok (r' : Rep s F L Q) (d : Sched s L Q) (g : s.el.Gap L l r a b) (hv : s.pq.vertex a = none)
    (q : Site K) :
    ∃ t Q', s.meetRight a b q = .ok t ∧ Rep t F L Q' ∧ Sched t L Q' ∧ s.Keeps t ∧ t.el = s.el := by
  obtain ⟨t, Q', ho, hr, hd, hk, hel, -⟩ := meetLeft_ok r' d g q
  exact ⟨t, Q', (meetRight_eq r' g hv q).trans ho, hr, hd, hk, hel⟩

end Meet

section SiteEvent

theorem Rep.setHash (r' : Rep s F L Q) {hash : List (Option Nat)} (hh : (s.setHash hash).el.Holds L) :
    Rep (s.setHash hash) F L Q :=
  ⟨hh, r'.queue.frame rfl rfl rfl (Nat.le_refl _) (fun _ wx hw => ⟨wx.sitenbr, hw⟩), r'.beach, r'.beach_lt,
    r'.edges.frame rfl rfl rfl rfl, r'.fresh, r'.distinct⟩

theorem Rep.withSeen (r' : Rep s F L Q) (seen : List (Site K)) : Rep s { F with seen := seen } L Q :=
  ⟨r'.el, r'.queue, r'.beach, r'.beach_lt,
    ⟨r'.edges.length, r'.edges.reg, r'.edges.ends, r'.edges.unset, r'.edges.nverts, r'.edges.out.lines,
      r'.edges.out.verts, r'.edges.out.bisecting, r'.edges.out.named, r'.edges.out.sets⟩, r'.fresh, r'.distinct⟩

theorem siteEvent_ok (r' : Rep s F L Q) (d : Sched s L Q) (w : F.Wf s.bottomsite) {p : Site K}
    (hp : p.sitenbr < s.out.mSites.length) (hseen : ∀ q ∈ F.seen, q.sitenbr < s.out.mSites.length) :
    ∃ t G L' Q', s.siteEvent p = .ok t ∧ Front.Event s.bottomsite F G ∧ G.seen = F.seen ++ [p] ∧ Rep t G L' Q' ∧
      Sched t L' Q' ∧ s.Keeps t := by
  obtain ⟨l, r, y, x, hash, g, -, -, hfind, hh⟩ := elLeftbnd_ok r'.el r'.edges_valid p.coord
  have r₀ := r'.setHash hh
  have g₀ : (s.setHash hash).el.Gap L l r y x := ⟨g.split, g.last, g.first⟩
  have d₀ : Sched (s.setHash hash) L Q := ⟨d.sub, d.queued, d.next⟩
  have k₀ : s.Keeps (s.setHash hash) := ⟨rfl, rfl, rfl, rfl, rfl, rfl, rfl⟩
  obtain ⟨m, n, hF, hm, -, hbot⟩ := r₀.gap g₀
  have hlen : l.length = m.length := by simpa using congrArg List.length hm
  have hbotseen : F.beyond s.bottomsite m ∈ F.seen := by
    refine Front.beyond_mem (S := (· ∈ F.seen)) w.seen_bottom (fun e he sd => ?_)
    exact w.reg_mem e.1 (w.beach_lt e (hF ▸ List.mem_append_left n he)) sd
  obtain ⟨t₁, ho₁, r₁, k₁, hel₁, hpq₁, -⟩ := r₀.bisect (hseen _ hbotseen) hp
  have g₁ : t₁.el.Gap L l r y x := hel₁ ▸ g₀
  have hfresh : ∀ h ∈ L, t₁.el.elEdge h ≠ .edge F.nedges := by
    intro h hm
    obtain ⟨b, hb, hhalf⟩ := r₁.half hm
    have he : t₁.el.elEdge h = .edge b.1 := congrArg Prod.fst hhalf
    have hlt : b.1 < F.nedges := r'.beach_lt b hb
    rw [he]
    exact fun hb' => absurd (EdgePtr.edge.inj hb') (Nat.ne_of_lt hlt)
  have d₁ : Sched t₁ L Q :=
    ⟨d₀.sub, fun h hm hv => d₀.queued h hm (by rwa [hpq₁] at hv), by rw [hel₁]; exact d₀.next⟩
  have hcount : t₁.el.count ∉ L := fun hm => Nat.lt_irrefl _ (r₁.el.lt_of_mem hm)
  obtain ⟨t₂, ho₂, r₂, k₂, -, hle₂, hre₂, hnew₂, hsame₂, hc₂, hhalf₂⟩ :=
    r₁.insert g₁ (Nat.lt_succ_self F.nedges) .le hF hlen
  have d₂ := d₁.insert g₁ hnew₂ hsame₂ hcount hhalf₂ hc₂ (fun hy => hfresh y (d₁.sub y hy))
  have g₂ : t₂.el.Gap (l ++ t₁.el.count :: r) l (t₁.el.count :: r) y t₁.el.count :=
    ⟨rfl, by rw [hle₂]; exact g₁.last, r ++ [t₂.el.elRightend], rfl⟩
  have g₂' : t₂.el.Gap (l ++ t₁.el.count :: r) (l ++ [t₁.el.count]) r t₁.el.count x :=
    ⟨by simp, ⟨t₂.el.elLeftend :: l, rfl⟩, by rw [hre₂]; exact g₁.first⟩
  obtain ⟨t₃, Q₃, ho₃, r₃, d₃, k₃, hel₃, hsame₃⟩ := meetLeft_ok r₂ d₂ g₂ p
  have g₃ : t₃.el.Gap (l ++ t₁.el.count :: r) (l ++ [t₁.el.count]) r t₁.el.count x := hel₃ ▸ g₂'
  have hycount : t₁.el.count ≠ y := by
    intro he
    have hall : y ∈ s.el.elLeftend :: (L ++ [s.el.elRightend]) := (Gap.mem_cells g).1
    have hlt : y < t₁.el.count := by
      rw [hel₁]
      exact r'.el.lt y hall
    omega
  have hnoEvent : t₁.el.count ∉ Q₃ := r₃.not_mem ((hsame₃ _ hycount).trans hnew₂)
  have hcount₃ : t₃.el.count ∉ l ++ t₁.el.count :: r := fun hm => Nat.lt_irrefl _ (r₃.el.lt_of_mem hm)
  obtain ⟨t₄, ho₄, r₄, k₄, -, hle₄, hre₄, hnew₄, hsame₄, hc₄, hhalf₄⟩ :=
    r₃.insert g₃ (Nat.lt_succ_self F.nedges) .re (m := m ++ [(F.nedges, .le)]) (n := n) (by simp) (by simp [hlen])
  have d₄ := d₃.insert g₃ hnew₄ hsame₄ hcount₃ hhalf₄ hc₄ (fun hq => absurd hq hnoEvent)
  have g₄ : t₄.el.Gap (l ++ [t₁.el.count] ++ t₃.el.count :: r) (l ++ [t₁.el.count] ++ [t₃.el.count]) r t₃.el.count x :=
    ⟨by simp, ⟨t₄.el.elLeftend :: (l ++ [t₁.el.count]), rfl⟩, by rw [hre₄]; exact g₃.first⟩
  obtain ⟨t₅, Q₅, ho₅, r₅, d₅, k₅, -⟩ := meetRight_ok r₄ d₄ g₄ hnew₄ p
  refine ⟨t₅, F.splitAt m n (F.beyond s.bottomsite m) p, _, Q₅, ?_, Front.Event.site m n p hF, rfl, ?_, d₅,
    ((((k₀.trans k₁).trans k₂).trans k₃).trans k₄).trans k₅⟩
  · have hright : (s.setHash hash).el.elRight y = some x := g₀.right hh
    have hreg : (s.setHash hash).rightreg y = .ok (F.beyond s.bottomsite m) := hbot
    unfold siteEvent
    rw [hfind, ok_bind]
    simp only [hright, deref_some, ok_bind, hreg, ho₁]
    show (do
      let s ← (t₁.heCreate (.edge F.nedges) .le).2.elInsert y t₁.el.count
      _) = _
    rw [ho₂]
    simp only [ok_bind]
    show (do
      let s ← t₂.meetLeft y t₁.el.count p
      _) = _
    rw [ho₃]
    simp only [ok_bind]
    show (do
      let s ← (t₃.heCreate (.edge F.nedges) .re).2.elInsert t₁.el.count t₃.el.count
      _) = _
    rw [ho₄]
    exact ho₅
  · have hrep := r₅.withSeen (F.seen ++ [p])
    have hlist : m ++ [(F.nedges, EdgeSide.le)] ++ (F.nedges, EdgeSide.re) :: n =
        m ++ (F.nedges, EdgeSide.le) :: (F.nedges, EdgeSide.re) :: n := by simp
    rw [hlist] at hrep
    exact hrep

end SiteEvent

section VertexEvent

theorem orient_facing (bot top : Site K) :
    facing .le (orient bot top).1 (orient bot top).2.1 = facing (orient bot top).2.2 bot top := by
  unfold orient
  split
  · exact facing_swap bot top
  · rfl

theorem orient_mem {S : Site K → Prop} {bot top : Site K} (hb : S bot) (ht : S top) :
    S (orient bot top).1 ∧ S (orient bot top).2.1 := by
  unfold orient
  split
  · exact ⟨ht, hb⟩
  · exact ⟨hb, ht⟩

theorem vertexEvent_ok (r' : Rep s F L Q) (d : Sched s L Q) (w : F.Wf s.bottomsite) (ha : a ∈ Q)
    (hnext : s.pq.pqNext (.bucket s.pq.pqMin) = some a) (hbucket : s.bucketOf (s.pq.ystar a) = s.pq.pqMin)
    (hseen : ∀ q ∈ F.seen, q.sitenbr < s.out.mSites.length) :
    ∃ t G L' Q', s.vertexEvent = .ok t ∧ Front.Event s.bottomsite F G ∧ G.seen = F.seen ∧ Rep t G L' Q' ∧
      Sched t L' Q' ∧ s.Keeps t := by
  obtain ⟨l, b, r, rfl, hab⟩ := d.next a ha
  -- the half-edges of the front that `a` and `b` are
  have hbeach := r'.beach
  rw [List.map_append, List.map_cons, List.map_cons] at hbeach
  obtain ⟨m, n', hF, hm, hn'⟩ := List.map_eq_append_iff.mp hbeach.symm
  obtain ⟨a', n'', rfl, ha', hn''⟩ := List.map_eq_cons_iff.mp hn'
  obtain ⟨b', n, rfl, hb', hn⟩ := List.map_eq_cons_iff.mp hn''
  have hlen : l.length = m.length := by simpa using congrArg List.length hm.symm
  have halt : a'.1 < F.nedges := r'.beach_lt a' (by simp [hF])
  have hblt : b'.1 < F.nedges := r'.beach_lt b' (by simp [hF])
  have hne : a'.1 ≠ b'.1 := by
    intro he
    have h₁ : s.el.elEdge a = .edge a'.1 := (congrArg Prod.fst ha').symm
    have h₂ : s.el.elEdge b = .edge b'.1 := (congrArg Prod.fst hb').symm
    exact hab (by rw [h₁, h₂, he])
  have hba : b ≠ a := by
    have hnd := r'.el.nodup_beach
    have := (List.nodup_cons.mp (List.Nodup.of_append_right hnd)).1
    exact fun he => this (he ▸ List.mem_cons_self ..)
  obtain ⟨ll, gl⟩ := EdgeList.exists_gap_left s.el (rfl : l ++ a :: b :: r = l ++ a :: (b :: r))
  have gm : s.el.Gap (l ++ a :: b :: r) (l ++ [a]) (b :: r) a b :=
    ⟨by simp, ⟨s.el.elLeftend :: l, rfl⟩, r ++ [s.el.elRightend], rfl⟩
  obtain ⟨rr, gr⟩ := EdgeList.exists_gap_right s.el (by simp : l ++ a :: b :: r = (l ++ [a]) ++ b :: r)
  -- the vertex of the event is one that has no number yet
  obtain ⟨v, hva, hvlt⟩ := r'.queue.vertex_lt ha
  obtain ⟨vx, hvx⟩ : ∃ vx, s.vertices[v]? = some vx := ⟨_, List.getElem?_eq_getElem hvlt⟩
  have hnew := r'.fresh a ha v vx hva hvx
  obtain ⟨pq₁, ho₁, hq₁, hv₁, hsize₁⟩ := pqExtractmin_ok r'.queue ha hnext hbucket
  have hQ : ∀ c ∈ Q.erase a, c ≠ a ∧ c ∈ Q := fun c hc => r'.nodup.mem_erase_iff.mp hc
  have r₁ : Rep { s with pq := pq₁ } F (l ++ a :: b :: r) (Q.erase a) := by
    refine ⟨r'.el, hq₁, r'.beach, r'.beach_lt, r'.edges.frame rfl rfl rfl rfl, ?_, ?_⟩
    · intro c hc u ux hu
      exact r'.fresh c (hQ c hc).2 u ux (hv₁ ▸ hu)
    · intro c hc e he hce
      have hce' : pq₁.vertex c = pq₁.vertex e := hce
      rw [hv₁] at hce'
      exact r'.distinct c (hQ c hc).2 e (hQ e he).2 hce'
  have k₁ : s.Keeps { s with pq := pq₁ } := ⟨rfl, rfl, rfl, rfl, rfl, hsize₁, rfl⟩
  have hother : ∀ c ∈ Q.erase a, pq₁.vertex c ≠ some v := by
    intro c hc he
    rw [hv₁, ← hva] at he
    exact (hQ c hc).1 (r'.distinct c (hQ c hc).2 a ha he)
  obtain ⟨t₂, ho₂, r₂, k₂, hel₂, hpq₂, hvs₂⟩ := r₁.makevertex hvx hnew hother
  have hvx₂ : t₂.vertices[v]? = some { vx with sitenbr := some F.nverts } := by
    rw [hvs₂]
    exact List.getElem?_set_self hvlt
  have hhalf₂ : ∀ c, half t₂.el c = half s.el c := fun c => by rw [hel₂]
  obtain ⟨t₃, ho₃, r₃, k₃, hel₃, hpq₃, hvs₃⟩ := r₂.endpoint halt hvx₂ rfl a'.2
  have hhalf₃ : ∀ c, half t₃.el c = half s.el c := fun c => by rw [hel₃, hhalf₂]
  obtain ⟨t₄, ho₄, r₄, k₄, hel₄, hpq₄, hvs₄⟩ := r₃.endpoint hblt (hvs₃ ▸ hvx₂) rfl b'.2
  obtain ⟨t₅, ho₅, r₅, k₅, hpq₅, hvs₅, hcount₅, hle₅, hre₅, hhalf₅⟩ := r₄.elDelete (m := m) (b := a') (n := b' :: n) hF hlen
  have hpq : t₅.pq = pq₁ := hpq₅.trans (hpq₄.trans (hpq₃.trans hpq₂))
  have hbQ : b ∈ Q.erase a ∨ t₅.pq.vertex b = none := by
    rw [hpq, hv₁]
    by_cases hv : s.pq.vertex b = none
    · exact .inr hv
    · exact .inl (r'.nodup.mem_erase_iff.mpr ⟨hba, d.queued b (by simp) hv⟩)
  obtain ⟨t₆, ho₆, r₆, k₆, hel₆, hvs₆, hv₆⟩ := r₅.pqDelete hbQ
  obtain ⟨t₇, ho₇, r₇, k₇, hpq₇, hvs₇, hcount₇, hle₇, hre₇, hhalf₇⟩ :=
    r₆.elDelete (m := m) (b := b') (n := n) rfl hlen
  have hle : t₇.el.elLeftend = s.el.elLeftend := by rw [hle₇, hel₆, hle₅, hel₄, hel₃, hel₂]
  have hre : t₇.el.elRightend = s.el.elRightend := by rw [hre₇, hel₆, hre₅, hel₄, hel₃, hel₂]
  let bot := F.reg a'.1 a'.2
  let top := F.reg b'.1 b'.2.other
  have hsites : (orient bot top).1 ∈ F.seen ∧ (orient bot top).2.1 ∈ F.seen :=
    orient_mem (w.reg_mem a'.1 halt a'.2) (w.reg_mem b'.1 hblt b'.2.other)
  have k : s.Keeps t₇ := (((((k₁.trans k₂).trans k₃).trans k₄).trans k₅).trans k₆).trans k₇
  have hseen₇ : ∀ q ∈ F.seen, q.sitenbr < t₇.out.mSites.length := by rwa [k.length]
  obtain ⟨t₈, ho₈, r₈, k₈, hel₈, hpq₈, hvs₈⟩ := r₇.bisect (hseen₇ _ hsites.1) (hseen₇ _ hsites.2)
  have g₈ : t₈.el.Gap (l ++ r) l r ll rr := by
    rw [hel₈]
    refine ⟨rfl, ?_, ?_⟩
    · rw [hle]
      exact gl.last
    · rw [hre]
      exact gr.first
  obtain ⟨t₉, ho₉, r₉, k₉, hvs₉, hle₉, hre₉, hnew₉, hsame₉, hc₉, hhalf₉⟩ :=
    r₈.insert g₈ (Nat.lt_succ_self F.nedges) (orient bot top).2.2 rfl hlen
  have hvx₉ : t₉.vertices[v]? = some { vx with sitenbr := some F.nverts } := by
    rw [hvs₉, hvs₈, hvs₇, hvs₆, hvs₅, hvs₄, hvs₃]
    exact hvx₂
  obtain ⟨t₁₀, ho₁₀, r₁₀, k₁₀, hel₁₀, hpq₁₀, hvs₁₀⟩ :=
    r₉.endpoint (k := F.nedges) (Nat.lt_succ_self F.nedges) hvx₉ rfl (orient bot top).2.2.other
  have hcount : t₈.el.count = s.el.count := by rw [hel₈, hcount₇, hel₆, hcount₅, hel₄, hel₃, hel₂]
  have d₁₀ : Sched t₁₀ (l ++ t₈.el.count :: r) ((Q.erase a).erase b) := by
    refine d.contract r'.el.nodup_beach (fun h => ?_) (by rw [hpq₁₀]; exact hnew₉) (fun h hb hc => ?_) (fun hm => ?_)
      (fun h ha hb hc => ?_) (by rw [hel₁₀]; exact hc₉) (fun h hm => ?_)
    · rw [(r'.nodup.erase a).mem_erase_iff, r'.nodup.mem_erase_iff]
      exact ⟨fun hh => ⟨hh.2.1, hh.1, hh.2.2⟩, fun hh => ⟨hh.2.1, hh.1, hh.2.2⟩⟩
    · rw [hpq₁₀, hsame₉ h hc, hpq₈, hpq₇, hv₆, update_of_ne hb, hpq, hv₁]
    · exact Nat.lt_irrefl _ (hcount ▸ r'.el.lt_of_mem hm)
    · rw [hel₁₀, hhalf₉ h hc, hel₈, hhalf₇ h hb, hel₆, hhalf₅ h ha, hel₄, hhalf₃]
    · obtain ⟨e, he, hhalf⟩ := r'.half hm
      have hh : s.el.elEdge h = .edge e.1 := congrArg Prod.fst hhalf
      rw [hh]
      exact fun hb => absurd (EdgePtr.edge.inj hb) (Nat.ne_of_lt (r'.beach_lt e he))
  have g₁₀ : t₁₀.el.Gap (l ++ t₈.el.count :: r) l (t₈.el.count :: r) ll t₈.el.count := by
    rw [hel₁₀]
    exact ⟨rfl, by rw [hle₉]; exact g₈.last, r ++ [t₉.el.elRightend], rfl⟩
  have g₁₀' : t₁₀.el.Gap (l ++ t₈.el.count :: r) (l ++ [t₈.el.count]) r t₈.el.count rr := by
    rw [hel₁₀]
    exact ⟨by simp, ⟨t₉.el.elLeftend :: l, rfl⟩, by rw [hre₉]; exact g₈.first⟩
  obtain ⟨t₁₁, Q₁₁, ho₁₁, r₁₁, d₁₁, k₁₁, hel₁₁, hsame₁₁⟩ := meetLeft_ok r₁₀ d₁₀ g₁₀ (orient bot top).1
  have hll : t₈.el.count ≠ ll := by
    intro he
    have hall : ll ∈ s.el.elLeftend :: ((l ++ a :: b :: r) ++ [s.el.elRightend]) := (Gap.mem_cells gl).1
    have hlt := r'.el.lt ll hall
    omega
  obtain ⟨t₁₂, Q₁₂, ho₁₂, r₁₂, d₁₂, k₁₂, -⟩ :=
    meetRight_ok r₁₁ d₁₁ (hel₁₁ ▸ g₁₀') ((hsame₁₁ _ hll).trans (hpq₁₀ ▸ hnew₉)) (orient bot top).1
  refine ⟨t₁₂, F.contract m n a' b' (orient bot top).2.2, _, Q₁₂, ?_, .vertex m n a' b' _ hF hne, rfl, ?_, d₁₂,
    ((((k.trans k₈).trans k₉).trans k₁₀).trans k₁₁).trans k₁₂⟩
  · have hleft : s.el.elLeft a = some ll := gl.left r'.el
    have hmid : s.el.elRight a = some b := gm.right r'.el
    have hright : s.el.elRight b = some rr := gr.right r'.el
    have hbot : ({ s with pq := pq₁ } : Sweep K).leftreg a = .ok bot := r₁.edges.leftreg halt ha'.symm
    have htop : ({ s with pq := pq₁ } : Sweep K).rightreg b = .ok top := r₁.edges.rightreg hblt hb'.symm
    have hvtx : pq₁.vertex a = some v := (congrFun hv₁ a).trans hva
    have hea : t₂.edgePtr a = .ok a'.1 := edgePtr_ok ((hhalf₂ a).trans ha'.symm)
    have hpa : t₂.el.elPm a = a'.2 := congrArg Prod.snd ((hhalf₂ a).trans ha'.symm)
    have heb : t₃.edgePtr b = .ok b'.1 := edgePtr_ok ((hhalf₃ b).trans hb'.symm)
    have hpb : t₃.el.elPm b = b'.2 := congrArg Prod.snd ((hhalf₃ b).trans hb'.symm)
    unfold vertexEvent
    rw [ho₁, ok_bind]
    simp only [hleft, hmid, hright, hvtx, deref_some, ok_bind, hbot, htop, ho₂, hea, hpa, ho₃, heb, hpb, ho₄, ho₅, ho₆,
      ho₇, ho₈]
    show (do
      let s ← (t₈.heCreate (.edge F.nedges) (orient bot top).2.2).2.elInsert ll t₈.el.count
      _) = _
    rw [ho₉]
    simp only [ok_bind]
    show (do
      let s ← t₉.endpoint F.nedges (orient bot top).2.2.other v
      _) = _
    rw [ho₁₀]
    simp only [ok_bind]
    show (do
      let s ← t₁₀.meetLeft ll t₈.el.count (orient bot top).1
      _) = _
    rw [ho₁₁]
    exact ho₁₂
  · rw [orient_facing] at r₁₂
    exact r₁₂

end VertexEvent

section Turns

/-- Before each turn: the front is well formed, and the sites that were met, the next one and the rest
are all there are. -/
structure Inv (s : Sweep K) (newsite : Option (Site K)) (F : Front (Site K)) (L Q : List Nat) : Prop where
  rep : Rep s F L Q
  sched : Sched s L Q
  wf : F.Wf s.bottomsite
  sites : F.seen ++ (newsite.toList ++ s.sites.drop s.siteidx) = s.sites
  last : newsite = none → s.sites.drop s.siteidx = []
  nbr_lt : ∀ p ∈ s.sites, p.sitenbr < s.out.mSites.length

theorem Inv.seen_lt {n : Option (Site K)} (i : Inv s n F L Q) : ∀ q ∈ F.seen, q.sitenbr < s.out.mSites.length :=
  fun q hq => i.nbr_lt q (i.sites ▸ List.mem_append_left _ hq)

theorem Inv.setMin {n : Option (Site K)} {m : Nat} (i : Inv s n F L Q)
    (hq : Queue { s with pq := { s.pq with pqMin := m } } Q) : Inv { s with pq := { s.pq with pqMin := m } } n F L Q :=
  ⟨⟨i.rep.el, hq, i.rep.beach, i.rep.beach_lt, i.rep.edges.frame rfl rfl rfl rfl, i.rep.fresh, i.rep.distinct⟩,
    ⟨i.sched.sub, i.sched.queued, i.sched.next⟩, i.wf, i.sites, i.last, i.nbr_lt⟩

theorem Rep.nextone (r' : Rep s F L Q) : Rep s.nextone.2 F L Q := by
  unfold Sweep.nextone
  split
  · exact ⟨r'.el, r'.queue.frame rfl rfl rfl (Nat.le_refl _) (fun _ wx hw => ⟨wx.sitenbr, hw⟩), r'.beach, r'.beach_lt,
      r'.edges.frame rfl rfl rfl rfl, r'.fresh, r'.distinct⟩
  · exact r'

/-- A turn is done when nothing is left, or is an event. -/
theorem step_ok {n : Option (Site K)} (i : Inv s n F L Q) :
    (s.step n = .ok none ∧ n = none ∧ Q = []) ∨
      ∃ t n' G L' Q', s.step n = .ok (some (t, n')) ∧ Front.Event s.bottomsite F G ∧ Inv t n' G L' Q' ∧ s.Same t := by
  have site : ∀ (u : Sweep K) (p : Site K) (q : Option (Point K)), Inv u (some p) F L Q → s.Same u →
      s.peek = .ok (q, u) → n = some p → siteIsSmallest p q = true →
      ∃ t n' G L' Q', s.step n = .ok (some (t, n')) ∧ Front.Event s.bottomsite F G ∧ Inv t n' G L' Q' ∧ s.Same t := by
    intro u p q iu hsame hpeek hn hsmall
    have hp : p.sitenbr < u.out.mSites.length := iu.nbr_lt p (by rw [← iu.sites]; simp)
    obtain ⟨t, G, L', Q', ho, he, hseen, hr, hd, hk⟩ := siteEvent_ok iu.rep iu.sched iu.wf hp iu.seen_lt
    obtain ⟨hnext, hlast⟩ := nextone_sites t
    refine ⟨t.nextone.2, t.nextone.1, G, L', Q', ?_, hsame.bottomsite ▸ he, ?_,
      (hsame.trans hk.same).trans (nextone_same t)⟩
    · unfold step
      rw [hpeek, ok_bind, hn]
      simp only [Option.filter, hsmall, if_true]
      rw [ho]
      rfl
    · refine ⟨hr.nextone, hd.nextone, ?_, ?_, hlast, ?_⟩
      · rw [(nextone_same t).bottomsite, hk.bottomsite]
        exact he.wf iu.wf
      · rw [hnext, (nextone_same t).sites, hk.sites, hk.siteidx, hseen, List.append_assoc]
        exact iu.sites
      · have hpos := congrArg List.length (nextone_same t).pos
        have hpos' := hk.length
        simp only [List.length_map] at hpos
        rw [hpos, hpos', (nextone_same t).sites, hk.sites]
        exact iu.nbr_lt
  obtain ⟨B, hb⟩ := i.rep.queue
  by_cases hQ : Q = []
  · have hcount : s.pq.pqCount = 0 := by rw [hb.count, hQ]; rfl
    have hpeek : s.peek = .ok (none, s) := if_pos hcount
    cases n with
    | none =>
      refine .inl ⟨?_, rfl, hQ⟩
      unfold step
      rw [hpeek]
      rfl
    | some p => exact .inr (site s p none i (Same.refl s) hpeek rfl rfl)
  · have hcount : s.pq.pqCount ≠ 0 := by
      rw [hb.count]
      have := List.length_pos_of_ne_nil hQ
      omega
    obtain ⟨a, ha, m, ho, hq, hnext, hbucket, -⟩ := pqMinPoint_ok i.rep.queue hQ
    have iu := i.setMin hq
    have hsame : s.Same { s with pq := { s.pq with pqMin := m } } := ⟨rfl, rfl, rfl, rfl, rfl, rfl⟩
    have hpeek : s.peek = .ok (some ⟨(s.key a).2, (s.key a).1⟩, { s with pq := { s.pq with pqMin := m } }) := by
      unfold peek
      rw [if_neg hcount, ho]
      rfl
    right
    by_cases hsmall : ∃ p, n = some p ∧ siteIsSmallest p (some ⟨(s.key a).2, (s.key a).1⟩) = true
    · obtain ⟨p, rfl, hp⟩ := hsmall
      exact site _ p _ iu hsame hpeek rfl hp
    · have hfilter : n.filter (fun p => siteIsSmallest p (some ⟨(s.key a).2, (s.key a).1⟩)) = none := by
        rw [Option.filter_eq_none_iff]
        exact fun p hp ht => hsmall ⟨p, hp, ht⟩
      obtain ⟨t, G, L', Q', ho', he, hseen, hr, hd, hk⟩ :=
        vertexEvent_ok iu.rep iu.sched iu.wf ha hnext hbucket iu.seen_lt
      refine ⟨t, n, G, L', Q', ?_, he, ⟨hr, hd, ?_, ?_, ?_, ?_⟩, hsame.trans hk.same⟩
      · unfold step
        rw [hpeek, ok_bind]
        dsimp only
        rw [hfilter]
        simp only [Option.isSome_some, if_true, ho']
        rfl
      · rw [hk.bottomsite]
        exact he.wf iu.wf
      · rw [hk.sites, hk.siteidx, hseen]
        exact iu.sites
      · rw [hk.sites, hk.siteidx]
        exact iu.last
      · rw [hk.sites, hk.length]
        exact iu.nbr_lt

/-- The loop ends, with every site met and no event left. -/
theorem sweep_ok {fuel : Nat} {n : Option (Site K)} (i : Inv s n F L Q)
    (hfuel : F.beach.length + 3 * (s.sites.length - F.seen.length) < fuel) :
    ∃ t G L', s.sweep fuel n = .ok t ∧ Relation.ReflTransGen (Front.Event s.bottomsite) F G ∧ Inv t none G L' [] ∧
      s.Same t := by
  induction fuel generalizing s n F L Q with
  | zero => exact absurd hfuel (Nat.not_lt_zero _)
  | succ fuel ih =>
    rw [sweep]
    rcases step_ok i with ⟨ho, rfl, rfl⟩ | ⟨t, n', G, L', Q', ho, he, i', hsame⟩
    · exact ⟨s, F, L, by rw [ho]; rfl, .refl, i, Same.refl s⟩
    · have hmeasure := he.measure
      have hle : G.seen.length ≤ s.sites.length := by
        rw [← hsame.sites, ← i'.sites, List.length_append]
        omega
      have hmono := he.seen_le
      have hlt : G.beach.length + 3 * (t.sites.length - G.seen.length) < fuel := by
        rw [hsame.sites]
        omega
      obtain ⟨u, H, L'', ho', hrun, iu, hsame'⟩ := ih i' hlt
      refine ⟨u, H, L'', ?_, .head he (hsame.bottomsite ▸ hrun), iu, hsame.trans hsame'⟩
      rw [ho]
      exact ho'

theorem sweep_mono {fuel fuel' : Nat} {n : Option (Site K)} (h : s.sweep fuel n = .ok t) (hle : fuel ≤ fuel') :
    s.sweep fuel' n = .ok t := by
  induction fuel generalizing s n fuel' with
  | zero => exact nomatch h
  | succ fuel ih =>
    obtain ⟨fuel', rfl⟩ : ∃ m, fuel' = m + 1 := ⟨fuel' - 1, by omega⟩
    rw [sweep] at h ⊢
    cases hs : s.step n with
    | error f =>
      rw [hs] at h
      exact nomatch h
    | ok next =>
      rw [hs, ok_bind] at h
      rw [ok_bind]
      cases next with
      | none => exact h
      | some next => exact ih h (Nat.le_of_succ_le_succ hle)

end Turns

end Sweep

end VastNC
