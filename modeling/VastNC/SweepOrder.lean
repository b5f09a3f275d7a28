import VastNC.DiagramAnswers

/-! Every turn of a sweep: the event that is passed is the first of those that are queued, and the
search of the beach line finds what one from its left end would find. -/

namespace VastNC

open Relation Linked Block

namespace EdgeList

variable {el : EdgeList} {L : List Nat} {h a b : Nat}

/-- `b` comes after `a` on the beach line. -/
def After (el : EdgeList) (a b : Nat) : Prop := TransGen (fun a b => el.elRight a = some b) a b

def OnBeach (el : EdgeList) (h : Nat) : Prop :=
  ReflTransGen (fun a b => el.elRight a = some b) el.elLeftend h ∧ h ≠ el.elLeftend ∧ h ≠ el.elRightend

theorem Holds.onBeach_iff (hh : el.Holds L) : el.OnBeach h ↔ h ∈ L := by
  rw [OnBeach, hh.linked.reach_iff hh.ending, List.mem_cons, List.mem_append, List.mem_singleton]
  constructor
  · rintro ⟨hm, hl, hr⟩
    exact (hm.resolve_left hl).resolve_right hr
  · intro hm
    exact ⟨.inr (.inl hm), hh.ne_left hm, hh.ne_right hm⟩

theorem Holds.after {l m r : List Nat} (hh : el.Holds L) (hL : L = l ++ a :: (m ++ b :: r)) : el.After a b := by
  have hlinked : Doubly el.elLeft el.elRight ((el.elLeftend :: l) ++ a :: (m ++ b :: (r ++ [el.elRightend]))) := by
    have := hh.linked
    rw [hL] at this
    simpa using this
  exact hlinked.reaches

end EdgeList

namespace Sweep

variable {K : Type} [Double K] {s t : Sweep K} {F : Front (Site K)} {L Q : List Nat} {h k : Nat} {p : Point K}

section Search

/-- Of the half-edges on the beach line, `p` is right of the first ones only. -/
def Divides (s : Sweep K) (p : Point K) : Prop :=
  ∀ a b, s.el.OnBeach a → s.el.OnBeach b → s.el.After a b → s.rightOf b p = .ok true → s.rightOf a p = .ok true

/-- There is one gap at most that a point can lie in. -/
theorem Divides.gap_le {l r l' r' : List Nat} {y x y' x' : Nat} (hd : s.Divides p) (hh : s.el.Holds L)
    (g : s.el.Gap L l r y x) (g' : s.el.Gap L l' r' y' x') (hx : s.RightBound p x) (hy' : s.LeftBound p y') :
    l'.length ≤ l.length := by
  by_contra hlt
  obtain ⟨m, hm⟩ : ∃ m, l' = l ++ m := by
    rcases List.append_eq_append_iff.mp (g.split.symm.trans g'.split) with ⟨m, hm, -⟩ | ⟨m, hm, -⟩
    · exact ⟨m, hm⟩
    · rw [hm, List.length_append] at hlt
      omega
  have hr : r = m ++ r' := by
    have := g.split.symm.trans g'.split
    rwa [hm, List.append_assoc, List.append_cancel_left_eq] at this
  cases m with
  | nil =>
    rw [hm, List.append_nil] at hlt
    omega
  | cons c m =>
    obtain ⟨post, hpost⟩ := g.first
    obtain ⟨pre, hpre⟩ := g'.last
    obtain rfl : c = x := by
      rw [hr] at hpost
      exact (List.cons.inj hpost).1
    have hcL : c ∈ L := by rw [g.split, hr]; simp
    have hfalse : s.rightOf c p = .ok false := hx.resolve_left (hh.ne_right hcL)
    have hy'L : y' ∈ c :: m := by
      rw [hm, ← List.cons_append] at hpre
      have := congrArg List.getLast? hpre
      rw [List.getLast?_append_of_ne_nil _ (List.cons_ne_nil c m), List.getLast?_append_of_ne_nil _ (List.cons_ne_nil y' [])]
        at this
      exact List.mem_of_getLast? (this.trans rfl)
    have hmem : y' ∈ L := by
      rw [g.split, hr]
      exact List.mem_append_right l (List.mem_append_left r' hy'L)
    have htrue : s.rightOf y' p = .ok true := hy'.resolve_left (hh.ne_left hmem)
    rcases List.mem_cons.mp hy'L with rfl | hin
    · exact nomatch hfalse.symm.trans htrue
    · obtain ⟨m₁, m₂, rfl⟩ := List.append_of_mem hin
      have hafter : s.el.After c y' := hh.after (l := l) (m := m₁) (r := m₂ ++ r') (by rw [g.split, hr]; simp)
      exact nomatch hfalse.symm.trans (hd c y' (hh.onBeach_iff.mpr hcL) (hh.onBeach_iff.mpr hmem) hafter htrue)

theorem elLeftbnd_eq_scan (hd : s.Divides p) (hh : s.el.Holds L) (hv : ∀ h ∈ L, ∃ e, s.edgeOf h = .ok e) :
    ∃ y hash, s.elWalk s.el.elLeftend p = .ok y ∧ s.elLeftbnd p = .ok (y, s.setHash hash) := by
  have hr : ∀ h ∈ L, ∃ t, s.rightOf h p = .ok t := by
    intro c hc
    obtain ⟨e, he⟩ := hv c hc
    exact rightOf_ok he
  obtain ⟨l, r, y, x, g, hy, hx, hwalk⟩ := elWalk_ok hh hr (List.mem_cons_self ..)
  obtain ⟨l', r', y', x', hash, g', hy', hx', ho, -⟩ := elLeftbnd_ok hh hv p
  have hlen : l'.length = l.length := Nat.le_antisymm (hd.gap_le hh g g' hx hy') (hd.gap_le hh g' g hx' hy)
  obtain rfl : l' = l := (List.append_inj (g'.split.symm.trans g.split) hlen).1
  obtain ⟨pre, hpre⟩ := g.last
  obtain ⟨pre', hpre'⟩ := g'.last
  obtain rfl : y' = y := List.singleton_inj.mp (List.append_inj' (hpre'.symm.trans hpre) rfl).2
  exact ⟨y', hash, hwalk, ho⟩

end Search

section Turns

/-- The loop of `Voronoi` after `k` turns, where it takes so many. -/
def turns : Nat → Sweep K × Option (Site K) → Option (Sweep K × Option (Site K))
  | 0, a => some a
  | k + 1, a =>
    match a.1.step a.2 with
    | .ok (some b) => turns k b
    | _ => none

variable {a b : Sweep K × Option (Site K)}

theorem Inv.turns (i : Inv a.1 a.2 F L Q) (hrun : turns k a = some b) :
    ∃ G L' Q', Inv b.1 b.2 G L' Q' ∧ a.1.Same b.1 := by
  induction k generalizing a F L Q with
  | zero =>
    obtain rfl : a = b := Option.some.inj hrun
    exact ⟨F, L, Q, i, Same.refl a.1⟩
  | succ k ih =>
    rw [Sweep.turns] at hrun
    rcases step_ok i with ⟨ho, -⟩ | ⟨t, n, G, L', Q', ho, -, i', hsame⟩
    · rw [ho] at hrun
      exact nomatch hrun
    · rw [ho] at hrun
      obtain ⟨H, L'', Q'', i'', hsame'⟩ := ih (a := (t, n)) i' hrun
      exact ⟨H, L'', Q'', i'', hsame.trans hsame'⟩

theorem Monotone.same (hm : s.Monotone) (h : s.Same t) : t.Monotone := by
  have hbucket : t.bucketOf = s.bucketOf := by
    funext y
    rw [bucketOf, bucketOf, deltay, deltay, h.ymin, h.ymax, h.size]
  intro y y' hy
  rw [hbucket]
  exact hm y y' hy

/-- An event waits for the half-edge. -/
def Queued (s : Sweep K) (h : Nat) : Prop := s.el.OnBeach h ∧ s.pq.vertex h ≠ none

theorem Inv.queued_iff {n : Option (Site K)} (i : Inv s n F L Q) : s.Queued h ↔ h ∈ Q := by
  rw [Queued, i.rep.el.onBeach_iff]
  constructor
  · exact fun hq => i.sched.queued h hq.1 hq.2
  · intro hm
    obtain ⟨v, hv, -⟩ := i.rep.queue.vertex_lt hm
    exact ⟨i.sched.sub h hm, by rw [hv]; exact Option.some_ne_none v⟩

theorem opening_inv {pts : List (Point K)} (h₀ : (Diagram.ofSites pts).opening = .ok a) :
    ∃ bottom, Inv a.1 a.2 (Front.start bottom) [] [] := by
  have hne : pts ≠ [] := by
    rintro rfl
    exact nomatch h₀
  obtain ⟨s, n, bottom, -, ho, -, -, -, -, i⟩ := Diagram.opening_ok hne
  obtain rfl : (s, n) = a := Except.ok.inj (ho.symm.trans h₀)
  exact ⟨bottom, i⟩

/-- In every turn the code looks at the first of all events that wait, and at none only if none waits. -/
theorem peek_least (ho : Double.Ordered K) {pts : List (Point K)} (h₀ : (Diagram.ofSites pts).opening = .ok a)
    (hm : a.1.Monotone) (hrun : turns k a = some b) :
    ∃ q s, b.1.peek = .ok (q, s) ∧ (q = none ↔ ∀ h, ¬ b.1.Queued h) ∧
      ∀ p, q = some p → (∃ h, b.1.Queued h ∧ b.1.key h = (p.y, p.x)) ∧
        ∀ h, b.1.Queued h → before (b.1.key h) (p.y, p.x) = false := by
  obtain ⟨bottom, i₀⟩ := opening_inv h₀
  obtain ⟨F, L, Q, i, hsame⟩ := i₀.turns hrun
  have hcount : b.1.pq.pqCount = Q.length := i.rep.queue.elim fun B hb => hb.count
  unfold peek
  by_cases hQ : Q = []
  · have hzero : b.1.pq.pqCount = 0 := by rw [hcount, hQ]; rfl
    refine ⟨none, b.1, if_pos hzero, iff_of_true rfl fun h hq => ?_, fun p hp => nomatch hp⟩
    exact List.not_mem_nil (hQ ▸ i.queued_iff.mp hq)
  · have hzero : b.1.pq.pqCount ≠ 0 := by
      have := List.length_pos_of_ne_nil hQ
      omega
    obtain ⟨h, hh, m, hmin, -, -, -, hleast⟩ := pqMinPoint_ok i.rep.queue hQ
    rw [if_neg hzero, hmin]
    refine ⟨_, _, rfl, iff_of_false (Option.some_ne_none _) fun hnone => hnone h (i.queued_iff.mpr hh), ?_⟩
    rintro p hp
    obtain rfl := Option.some.inj hp
    exact ⟨⟨h, i.queued_iff.mpr hh, rfl⟩, fun h' hq => hleast ho (hm.same hsame) h' (i.queued_iff.mp hq)⟩

section Exactness

theorem ordered_exact : Double.Ordered ExactDouble where
  irrefl a := lt_irrefl a.val
  trans a b c := fun hab hbc => lt_trans (a := a.val) (b := b.val) (c := c.val) hab hbc
  cotrans a b c := fun hac => (lt_or_ge a.val b.val).imp id fun hba => lt_of_le_of_lt hba hac
  beq_iff a b := by
    show (a.val == b.val) = true ↔ ¬ a.val < b.val ∧ ¬ b.val < a.val
    rw [beq_iff_eq, not_lt, not_lt]
    exact ⟨fun h => ⟨h.ge, h.le⟩, fun h => le_antisymm h.2 h.1⟩

theorem clamp_mono {b c : Int} (h : b ≤ c) (size : Nat) : clamp b size ≤ clamp c size := by
  unfold clamp
  dsimp only
  split_ifs <;> omega

theorem toInt_mono {a b : ExactDouble} (h : a.val ≤ b.val) : Double.toInt a ≤ Double.toInt b := by
  show (if a.val < 0 then a.val.ceil else a.val.floor) ≤ if b.val < 0 then b.val.ceil else b.val.floor
  by_cases ha : a.val < 0 <;> by_cases hb : b.val < 0
  · rw [if_pos ha, if_pos hb]
    rw [Rat.ceil_eq_neg_floor_neg, Rat.ceil_eq_neg_floor_neg]
    exact neg_le_neg (Rat.floor_monotone (neg_le_neg h))
  · rw [if_pos ha, if_neg hb]
    have h₁ : a.val.ceil ≤ 0 := Rat.ceil_le_iff.mpr (by simpa using ha.le)
    have h₂ : 0 ≤ b.val.floor := Rat.le_floor_iff.mpr (by simpa using hb)
    exact h₁.trans h₂
  · exact absurd (lt_of_le_of_lt h hb) ha
  · rw [if_neg ha, if_neg hb]
    exact Rat.floor_monotone h

theorem monotone_exact {s : Sweep ExactDouble} (h : ¬ s.ymax < s.ymin) : s.Monotone := by
  intro a b hab
  have hle : a.val ≤ b.val := not_lt.mp hab
  have hd : 0 ≤ s.ymax.val - s.ymin.val := sub_nonneg.mpr (not_lt.mp h)
  have hn : (0 : ℚ) ≤ ((s.pq.pqHashsize : Int) : ℚ) := by positivity
  refine clamp_mono (toInt_mono ?_) _
  show (a.val - s.ymin.val) / (s.ymax.val - s.ymin.val) * ((s.pq.pqHashsize : Int) : ℚ) ≤
    (b.val - s.ymin.val) / (s.ymax.val - s.ymin.val) * ((s.pq.pqHashsize : Int) : ℚ)
  gcongr

theorem two_turns : ∃ a b : Sweep ExactDouble × Option (Site ExactDouble), (Diagram.ofSites Diagram.fourSites).opening = .ok a ∧
    turns 2 a = some b ∧ ¬ a.1.ymax < a.1.ymin ∧ b.1.pq.pqCount = 1 := by
  have h : (Diagram.ofSites Diagram.fourSites).opening.toOption.bind (fun a =>
      (turns 2 a).map (fun b => (decide (a.1.ymax < a.1.ymin), b.1.pq.pqCount))) = some (false, 1) := by decide +kernel
  obtain ⟨a, ha, h⟩ := Option.bind_eq_some_iff.mp h
  obtain ⟨b, hb, h⟩ := Option.map_eq_some_iff.mp h
  obtain ⟨hy, hc⟩ := Prod.mk.inj h
  exact ⟨a, b, ok_of_toOption ha, hb, of_decide_eq_false hy, hc⟩

theorem peek_least_four :
    ∃ a b : Sweep ExactDouble × Option (Site ExactDouble), (Diagram.ofSites Diagram.fourSites).opening = .ok a ∧
      turns 2 a = some b ∧ b.1.pq.pqCount = 1 ∧
      ∃ q s, b.1.peek = .ok (q, s) ∧ (q = none ↔ ∀ h, ¬ b.1.Queued h) ∧
        ∀ p, q = some p → (∃ h, b.1.Queued h ∧ b.1.key h = (p.y, p.x)) ∧
          ∀ h, b.1.Queued h → before (b.1.key h) (p.y, p.x) = false := by
  obtain ⟨a, b, ha, hb, hy, hc⟩ := two_turns
  exact ⟨a, b, ha, hb, hc, peek_least ordered_exact ha (monotone_exact hy) hb⟩

end Exactness

/-- In every turn, where the tests along the beach line agree on where a point lies, the table only
makes the search shorter. -/
theorem elLeftbnd_turns {pts : List (Point K)} (h₀ : (Diagram.ofSites pts).opening = .ok a) (hrun : turns k a = some b)
    (hd : b.1.Divides p) :
    ∃ y hash, b.1.elWalk b.1.el.elLeftend p = .ok y ∧ b.1.elLeftbnd p = .ok (y, b.1.setHash hash) := by
  obtain ⟨bottom, i₀⟩ := opening_inv h₀
  obtain ⟨F, L, Q, i, -⟩ := i₀.turns hrun
  exact elLeftbnd_eq_scan hd i.rep.el i.rep.edges_valid

/-- After the first turn there are two half-edges, and a point to the right lies between them. -/
theorem one_turn : ∃ a b : Sweep ExactDouble × Option (Site ExactDouble), (Diagram.ofSites Diagram.fourSites).opening = .ok a ∧
    turns 1 a = some b ∧ b.1.Divides ⟨30.0, 7.0⟩ := by
  have h : (Diagram.ofSites Diagram.fourSites).opening.toOption.bind (fun a => (turns 1 a).map (fun b =>
      ((b.1.el.elLeftend, b.1.el.elRightend), [0, 2, 3, 1].map b.1.el.elRight,
        [2, 3].map (fun h => (b.1.rightOf h ⟨30.0, 7.0⟩).toOption)))) =
      some ((0, 1), [some 2, some 3, some 1, none], [some true, some false]) := by decide +kernel
  obtain ⟨a, ha, h⟩ := Option.bind_eq_some_iff.mp h
  obtain ⟨b, hb, h⟩ := Option.map_eq_some_iff.mp h
  simp only [List.map_cons, List.map_nil, Prod.mk.injEq, List.cons.injEq, and_true] at h
  obtain ⟨⟨hl, hr⟩, ⟨h0, h2, h3, h1⟩, ht, hf⟩ := h
  refine ⟨a, b, ok_of_toOption ha, hb, fun c d hc hd hcd htrue => ?_⟩
  have htwo : b.1.rightOf 2 ⟨30.0, 7.0⟩ = .ok true := ok_of_toOption ht
  have hthree : b.1.rightOf 3 ⟨30.0, 7.0⟩ = .ok false := ok_of_toOption hf
  have hend : ∀ c, ReflTransGen (fun x y => b.1.el.elRight x = some y) 3 c → c = 3 ∨ c = 1 := by
    intro c hreach
    rcases ReflTransGen.cases_head hreach with rfl | ⟨x, hx, hreach⟩
    · exact .inl rfl
    · obtain rfl : 1 = x := Option.some.inj (h3.symm.trans hx)
      rcases ReflTransGen.cases_head hreach with rfl | ⟨x, hx, -⟩
      · exact .inr rfl
      · exact nomatch h1.symm.trans hx
  have hbeach : ∀ c, b.1.el.OnBeach c → c = 2 ∨ c = 3 := by
    rintro c ⟨hreach, hcl, hcr⟩
    rw [hl] at hreach hcl
    rw [hr] at hcr
    obtain ⟨x, hx, hreach⟩ := (ReflTransGen.cases_head hreach).resolve_left (Ne.symm hcl)
    obtain rfl : 2 = x := Option.some.inj (h0.symm.trans hx)
    rcases ReflTransGen.cases_head hreach with rfl | ⟨x, hx, hreach⟩
    · exact .inl rfl
    · obtain rfl : 3 = x := Option.some.inj (h2.symm.trans hx)
      exact .inr ((hend c hreach).resolve_right hcr)
  rcases hbeach d hd with rfl | rfl
  · rcases hbeach c hc with rfl | rfl
    · exact htrue
    · exact absurd (hend 2 hcd.to_reflTransGen) (by decide)
  · exact nomatch hthree.symm.trans htrue

theorem elLeftbnd_turns_one :
    ∃ a b : Sweep ExactDouble × Option (Site ExactDouble), (Diagram.ofSites Diagram.fourSites).opening = .ok a ∧
      turns 1 a = some b ∧ ∃ y hash, b.1.elWalk b.1.el.elLeftend ⟨30.0, 7.0⟩ = .ok y ∧
        b.1.elLeftbnd ⟨30.0, 7.0⟩ = .ok (y, b.1.setHash hash) := by
  obtain ⟨a, b, ha, hb, hd⟩ := one_turn
  exact ⟨a, b, ha, hb, elLeftbnd_turns ha hb hd⟩

end Turns

end Sweep

end VastNC
