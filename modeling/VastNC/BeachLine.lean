import Mathlib.Data.List.Nodup
import Mathlib.Logic.Relation
import VastNC.Diagram

/-! What a sweep does whatever its arithmetic says: a line of half-edges is split by each new site
and contracted at each vertex. From this alone follow the shape of the diagram that results, how many
edges it has, what meets in a vertex, and that its sites hang together. -/

namespace VastNC

open Function

/-- `x` on the side `sd` and `y` on the other. -/
def facing {α : Type} (sd : EdgeSide) (x y : α) : EdgeSide → α := fun t => if t = sd then x else y

@[simp] theorem facing_same {α : Type} (sd : EdgeSide) (x y : α) : facing sd x y sd = x := if_pos rfl

@[simp] theorem facing_other {α : Type} (sd : EdgeSide) (x y : α) : facing sd x y sd.other = y :=
  if_neg (EdgeSide.other_ne sd)

theorem facing_swap {α : Type} (x y : α) : facing .le y x = facing .re x y := by
  funext sd
  cases sd <;> rfl

/-- The edges with the sites on both sides, the vertices at their ends, the line of the half-edges that
are still open, and the sites that were met. -/
structure Front (σ : Type) where
  reg : Nat → EdgeSide → σ
  nedges : Nat
  ends : Nat × EdgeSide → Option Nat
  nverts : Nat
  beach : List (Nat × EdgeSide)
  seen : List σ

namespace Front

variable {σ : Type}

def start (bottom : σ) : Front σ := ⟨fun _ _ => bottom, 0, fun _ => none, 0, [], [bottom]⟩

def addEdge (F : Front σ) (r : EdgeSide → σ) : Front σ :=
  { F with reg := update F.reg F.nedges r, nedges := F.nedges + 1 }

def setEnd (F : Front σ) (h : Nat × EdgeSide) (v : Nat) : Front σ := { F with ends := update F.ends h (some v) }

/-- The site beyond the half-edges of the list, for one who starts at `x`. -/
def beyond (F : Front σ) : σ → List (Nat × EdgeSide) → σ
  | x, [] => x
  | _, h :: l => F.beyond (F.reg h.1 h.2.other) l

/-- Each half-edge of the list has on its left the site that the one before it has on its right. -/
def Walk (F : Front σ) : σ → List (Nat × EdgeSide) → σ → Prop
  | x, [], y => x = y
  | x, h :: l, y => F.reg h.1 h.2 = x ∧ F.Walk (F.reg h.1 h.2.other) l y

def splitAt (F : Front σ) (l r : List (Nat × EdgeSide)) (bot p : σ) : Front σ :=
  { F.addEdge (facing .le bot p) with
    beach := l ++ (F.nedges, .le) :: (F.nedges, .re) :: r
    seen := F.seen ++ [p] }

def contract (F : Front σ) (l r : List (Nat × EdgeSide)) (a b : Nat × EdgeSide) (pm : EdgeSide) : Front σ :=
  { (((F.setEnd a F.nverts).setEnd b F.nverts).addEdge
      (facing pm (F.reg a.1 a.2) (F.reg b.1 b.2.other))).setEnd (F.nedges, pm.other) F.nverts with
    beach := l ++ (F.nedges, pm) :: r
    nverts := F.nverts + 1 }

/-- A site splits the region that it falls into; two half-edges of different edges meet in a vertex. -/
inductive Event (bottom : σ) : Front σ → Front σ → Prop
  | site {F : Front σ} (l r : List (Nat × EdgeSide)) (p : σ) (h : F.beach = l ++ r) :
      Event bottom F (F.splitAt l r (F.beyond bottom l) p)
  | vertex {F : Front σ} (l r : List (Nat × EdgeSide)) (a b : Nat × EdgeSide) (pm : EdgeSide)
      (h : F.beach = l ++ a :: b :: r) (hab : a.1 ≠ b.1) : Event bottom F (F.contract l r a b pm)

def Bisects (F : Front σ) (k : Nat) (x y : σ) : Prop := ∃ sd, F.reg k sd = x ∧ F.reg k sd.other = y

def Adj (F : Front σ) (x y : σ) : Prop := ∃ k < F.nedges, F.Bisects k x y

/-- The vertex is an end of three edges, and these bisect the three pairs of three sites. -/
def Corner (F : Front σ) (v : Nat) : Prop :=
  ∃ x y z h₁ h₂ h₃, (h₁.1 ≠ h₂.1 ∧ h₁.1 ≠ h₃.1 ∧ h₂.1 ≠ h₃.1) ∧
    (∀ h, F.ends h = some v ↔ h = h₁ ∨ h = h₂ ∨ h = h₃) ∧
    F.Bisects h₁.1 x y ∧ F.Bisects h₂.1 y z ∧ F.Bisects h₃.1 x z

structure Wf (bottom : σ) (F : Front σ) : Prop where
  nodup : F.beach.Nodup
  beach_lt : ∀ h ∈ F.beach, h.1 < F.nedges
  open_iff : ∀ h : Nat × EdgeSide, h.1 < F.nedges → (F.ends h = none ↔ h ∈ F.beach)
  ends_lt : ∀ h v, F.ends h = some v → h.1 < F.nedges ∧ v < F.nverts
  walk : F.Walk bottom F.beach bottom
  edges_eq : F.nedges + 1 = F.seen.length + F.nverts
  beach_eq : F.beach.length + F.nverts + 2 = 2 * F.seen.length
  beach_pos : 2 ≤ F.seen.length → F.beach ≠ []
  seen_bottom : bottom ∈ F.seen
  reg_mem : ∀ k < F.nedges, ∀ sd, F.reg k sd ∈ F.seen
  corner : ∀ v < F.nverts, F.Corner v
  connected : ∀ p ∈ F.seen, Relation.ReflTransGen F.Adj bottom p

section Walks

variable {F G : Front σ} {x y : σ} {l r : List (Nat × EdgeSide)}

theorem Walk.split : F.Walk x (l ++ r) y ↔ F.Walk x l (F.beyond x l) ∧ F.Walk (F.beyond x l) r y := by
  induction l generalizing x with
  | nil => simp [Walk, beyond]
  | cons h l ih =>
    show F.reg h.1 h.2 = x ∧ F.Walk _ (l ++ r) y ↔ (F.reg h.1 h.2 = x ∧ F.Walk _ l _) ∧ _
    rw [ih, and_assoc]
    rfl

theorem beyond_congr (h : ∀ e ∈ l, G.reg e.1 = F.reg e.1) : G.beyond x l = F.beyond x l := by
  induction l generalizing x with
  | nil => rfl
  | cons e l ih =>
    show G.beyond (G.reg e.1 e.2.other) l = F.beyond (F.reg e.1 e.2.other) l
    rw [h e (List.mem_cons_self ..), ih (fun d hd => h d (List.mem_cons_of_mem e hd))]

theorem Walk.congr (h : ∀ e ∈ l, G.reg e.1 = F.reg e.1) (hw : F.Walk x l y) : G.Walk x l y := by
  induction l generalizing x with
  | nil => exact hw
  | cons e l ih =>
    have he := h e (List.mem_cons_self ..)
    refine ⟨by rw [he]; exact hw.1, ?_⟩
    rw [he]
    exact ih (fun d hd => h d (List.mem_cons_of_mem e hd)) hw.2

theorem beyond_mem {S : σ → Prop} (hx : S x) (h : ∀ e ∈ l, ∀ sd, S (F.reg e.1 sd)) : S (F.beyond x l) := by
  induction l generalizing x with
  | nil => exact hx
  | cons e l ih => exact ih (h e (List.mem_cons_self ..) _) (fun d hd => h d (List.mem_cons_of_mem e hd))

theorem beyond_concat (F : Front σ) (x : σ) (l : List (Nat × EdgeSide)) (b : Nat × EdgeSide) :
    F.beyond x (l ++ [b]) = F.reg b.1 b.2.other := by
  induction l generalizing x with
  | nil => rfl
  | cons c l ih => exact ih _

theorem Bisects.symm {k : Nat} (h : F.Bisects k x y) : F.Bisects k y x := by
  obtain ⟨sd, hx, hy⟩ := h
  exact ⟨sd.other, hy, by rwa [EdgeSide.other_other]⟩

theorem Adj.symm (h : F.Adj x y) : F.Adj y x := by
  obtain ⟨k, hk, hb⟩ := h
  exact ⟨k, hk, hb.symm⟩

end Walks

section Events

variable {F : Front σ} {bottom x p : σ} {l r : List (Nat × EdgeSide)} {a b : Nat × EdgeSide} {pm : EdgeSide}

theorem reg_addEdge_of_lt {k : Nat} {s : EdgeSide → σ} (h : k < F.nedges) : (F.addEdge s).reg k = F.reg k :=
  update_of_ne (Nat.ne_of_lt h) ..

theorem reg_addEdge {s : EdgeSide → σ} : (F.addEdge s).reg F.nedges = s := update_self ..

/-- What an event adds: one edge, whose sites were met, and the rest of the edges as they were. -/
structure Grows (F G : Front σ) (s : EdgeSide → σ) : Prop where
  reg : G.reg = (F.addEdge s).reg
  nedges : G.nedges = F.nedges + 1

theorem Grows.reg_of_lt {G : Front σ} {s : EdgeSide → σ} (h : Grows F G s) {k : Nat} (hk : k < F.nedges) :
    G.reg k = F.reg k := by
  rw [h.reg, reg_addEdge_of_lt hk]

theorem Grows.reg_new {G : Front σ} {s : EdgeSide → σ} (h : Grows F G s) : G.reg F.nedges = s := by
  rw [h.reg, reg_addEdge]

theorem Grows.bisects {G : Front σ} {s : EdgeSide → σ} (h : Grows F G s) {k : Nat} (hk : k < F.nedges)
    {x y : σ} (hb : F.Bisects k x y) : G.Bisects k x y := by
  obtain ⟨sd, hx, hy⟩ := hb
  exact ⟨sd, by rwa [h.reg_of_lt hk], by rwa [h.reg_of_lt hk]⟩

theorem Grows.adj {G : Front σ} {s : EdgeSide → σ} (h : Grows F G s) {x y : σ} (hadj : F.Adj x y) :
    G.Adj x y := by
  obtain ⟨k, hk, hb⟩ := hadj
  exact ⟨k, by rw [h.nedges]; omega, h.bisects hk hb⟩

theorem Grows.adj_new {G : Front σ} {x y : σ} {sd : EdgeSide} (h : Grows F G (facing sd x y)) : G.Adj x y :=
  ⟨F.nedges, by rw [h.nedges]; omega, sd, by simp [h.reg_new], by simp [h.reg_new]⟩

theorem Grows.connected {G : Front σ} {s : EdgeSide → σ} (h : Grows F G s) {x y : σ}
    (hc : Relation.ReflTransGen F.Adj x y) : Relation.ReflTransGen G.Adj x y :=
  Relation.ReflTransGen.mono (fun _ _ hadj => h.adj hadj) x y hc

theorem Grows.reg_mem {G : Front σ} {s : EdgeSide → σ} (h : Grows F G s)
    (hF : ∀ k < F.nedges, ∀ sd, F.reg k sd ∈ F.seen) (hs : ∀ sd, s sd ∈ G.seen) (hseen : F.seen ⊆ G.seen) :
    ∀ k < G.nedges, ∀ sd, G.reg k sd ∈ G.seen := by
  intro k hk sd
  rw [h.nedges] at hk
  rcases Nat.lt_succ_iff_lt_or_eq.mp hk with hlt | rfl
  · rw [h.reg_of_lt hlt]
    exact hseen (hF k hlt sd)
  · rw [h.reg_new]
    exact hs sd

theorem Grows.corner {G : Front σ} {s : EdgeSide → σ} (h : Grows F G s) {v : Nat}
    (hends : ∀ e, G.ends e = some v ↔ F.ends e = some v) (hlt : ∀ e, F.ends e = some v → e.1 < F.nedges)
    (hc : F.Corner v) : G.Corner v := by
  obtain ⟨x, y, z, h₁, h₂, h₃, hne, hiff, hxy, hyz, hxz⟩ := hc
  have hl : ∀ e, e = h₁ ∨ e = h₂ ∨ e = h₃ → e.1 < F.nedges := fun e he => hlt e ((hiff e).mpr he)
  exact ⟨x, y, z, h₁, h₂, h₃, hne, fun e => (hends e).trans (hiff e),
    h.bisects (hl h₁ (.inl rfl)) hxy, h.bisects (hl h₂ (.inr (.inl rfl))) hyz,
    h.bisects (hl h₃ (.inr (.inr rfl))) hxz⟩

theorem facing_mem {S : σ → Prop} {x y : σ} (hx : S x) (hy : S y) (sd t : EdgeSide) : S (facing sd x y t) := by
  unfold facing
  split <;> assumption

theorem mem_splitAt {e : Nat × EdgeSide} :
    e ∈ (F.splitAt l r x p).beach ↔ e ∈ l ++ r ∨ e.1 = F.nedges := by
  show e ∈ l ++ (F.nedges, .le) :: (F.nedges, .re) :: r ↔ _
  obtain ⟨k, sd⟩ := e
  cases sd <;> simp only [List.mem_append, List.mem_cons, Prod.mk.injEq] <;> tauto

theorem Wf.notMem_new (w : F.Wf bottom) (sd : EdgeSide) : (F.nedges, sd) ∉ F.beach :=
  fun hm => Nat.lt_irrefl _ (w.beach_lt _ hm)

theorem Wf.ends_new (w : F.Wf bottom) (sd : EdgeSide) : F.ends (F.nedges, sd) = none := by
  cases hv : F.ends (F.nedges, sd) with
  | none => rfl
  | some v => exact absurd (w.ends_lt _ v hv).1 (Nat.lt_irrefl _)

section Split

variable (w : F.Wf bottom) (h : F.beach = l ++ r)

include w h

theorem Wf.nodup_splitAt : (F.splitAt l r x p).beach.Nodup := by
  have hnew : ∀ sd, (F.nedges, sd) ∉ l ++ r := fun sd => h ▸ w.notMem_new sd
  have hp : (l ++ (F.nedges, .le) :: (F.nedges, .re) :: r).Perm
      ((F.nedges, .le) :: (F.nedges, .re) :: (l ++ r)) :=
    List.perm_middle.trans (List.Perm.cons _ List.perm_middle)
  refine hp.nodup_iff.mpr (List.nodup_cons.mpr ⟨?_, List.nodup_cons.mpr ⟨hnew .re, h ▸ w.nodup⟩⟩)
  intro hm
  rcases List.mem_cons.mp hm with he | hm
  · exact EdgeSide.noConfusion (Prod.mk.inj he).2
  · exact hnew .le hm

theorem Wf.open_splitAt {e : Nat × EdgeSide} (he : e.1 < F.nedges + 1) :
    F.ends e = none ↔ e ∈ (F.splitAt l r x p).beach := by
  rw [mem_splitAt, ← h]
  rcases Nat.lt_succ_iff_lt_or_eq.mp he with hl | hl
  · rw [w.open_iff e hl, or_iff_left (Nat.ne_of_lt hl)]
  · obtain ⟨k, sd⟩ := e
    obtain rfl : k = F.nedges := hl
    exact iff_of_true (w.ends_new sd) (.inr rfl)

theorem Wf.walk_splitAt : (F.splitAt l r (F.beyond bottom l) p).Walk bottom
    (F.splitAt l r (F.beyond bottom l) p).beach bottom := by
  have hg : Grows F (F.splitAt l r (F.beyond bottom l) p) (facing .le (F.beyond bottom l) p) := ⟨rfl, rfl⟩
  have hwalk := Walk.split.mp (h ▸ w.walk)
  have hreg : ∀ e ∈ l ++ r, (F.splitAt l r (F.beyond bottom l) p).reg e.1 = F.reg e.1 :=
    fun e he => hg.reg_of_lt (w.beach_lt e (h ▸ he))
  have hle : (F.splitAt l r (F.beyond bottom l) p).reg F.nedges .le = F.beyond bottom l := by
    rw [hg.reg_new, facing_same]
  refine Walk.split.mpr ⟨?_, ?_⟩
  · rw [beyond_congr (fun e he => hreg e (List.mem_append_left r he))]
    exact hwalk.1.congr (fun e he => hreg e (List.mem_append_left r he))
  · rw [beyond_congr (fun e he => hreg e (List.mem_append_left r he))]
    refine ⟨hle, rfl, ?_⟩
    show Walk _ ((F.splitAt l r (F.beyond bottom l) p).reg F.nedges .le) r bottom
    rw [hle]
    exact hwalk.2.congr (fun e he => hreg e (List.mem_append_right l he))

theorem Wf.splitAt : (F.splitAt l r (F.beyond bottom l) p).Wf bottom := by
  have hg : Grows F (F.splitAt l r (F.beyond bottom l) p) (facing .le (F.beyond bottom l) p) := ⟨rfl, rfl⟩
  have hbot : F.beyond bottom l ∈ F.seen := by
    refine beyond_mem (S := (· ∈ F.seen)) w.seen_bottom (fun e he sd => ?_)
    exact w.reg_mem e.1 (w.beach_lt e (h ▸ List.mem_append_left r he)) sd
  exact {
    nodup := w.nodup_splitAt h
    beach_lt := fun e he => by
      show e.1 < F.nedges + 1
      rcases mem_splitAt.mp he with he | he
      · exact Nat.lt_succ_of_lt (w.beach_lt e (h ▸ he))
      · omega
    open_iff := fun e he => w.open_splitAt h he
    ends_lt := fun e v hv => ⟨Nat.lt_succ_of_lt (w.ends_lt e v hv).1, (w.ends_lt e v hv).2⟩
    walk := w.walk_splitAt h
    edges_eq := by
      show F.nedges + 1 + 1 = (F.seen ++ [p]).length + F.nverts
      have := w.edges_eq
      simp only [List.length_append, List.length_singleton]
      omega
    beach_eq := by
      show (l ++ (F.nedges, .le) :: (F.nedges, .re) :: r).length + F.nverts + 2 = 2 * (F.seen ++ [p]).length
      have hb := w.beach_eq
      rw [h] at hb
      simp only [List.length_append, List.length_cons, List.length_nil] at hb ⊢
      omega
    beach_pos := fun _ he => by simp [Front.splitAt] at he
    seen_bottom := List.mem_append_left [p] w.seen_bottom
    reg_mem := hg.reg_mem w.reg_mem (fun sd => facing_mem (S := (· ∈ F.seen ++ [p]))
      (List.mem_append_left [p] hbot) (List.mem_append_right F.seen (List.mem_singleton.mpr rfl)) .le sd)
      (List.subset_append_left F.seen [p])
    corner := fun v hv => hg.corner (fun e => Iff.rfl) (fun e he => (w.ends_lt e v he).1) (w.corner v hv)
    connected := fun q hq => by
      rcases List.mem_append.mp hq with hq | hq
      · exact hg.connected (w.connected q hq)
      · rw [List.mem_singleton.mp hq]
        exact (hg.connected (w.connected _ hbot)).tail hg.adj_new }

end Split

theorem ends_contract (e : Nat × EdgeSide) : (F.contract l r a b pm).ends e =
    if e = (F.nedges, pm.other) then some F.nverts else if e = b then some F.nverts
    else if e = a then some F.nverts else F.ends e := by
  show update (update (update F.ends a _) b _) (F.nedges, pm.other) _ e = _
  simp only [update_apply]

section Contract

variable (w : F.Wf bottom) (h : F.beach = l ++ a :: b :: r)

include w h

theorem Wf.left_lt : a.1 < F.nedges := w.beach_lt a (by simp [h])

theorem Wf.right_lt : b.1 < F.nedges := w.beach_lt b (by simp [h])

theorem Wf.mem_rest {e : Nat × EdgeSide} : e ∈ l ++ r ↔ e ∈ F.beach ∧ e ≠ a ∧ e ≠ b := by
  have hp : (l ++ a :: b :: r).Perm (a :: b :: (l ++ r)) :=
    List.perm_middle.trans (List.Perm.cons a List.perm_middle)
  have hnd := hp.nodup_iff.mp (h ▸ w.nodup)
  rw [h, hp.mem_iff, List.mem_cons, List.mem_cons]
  obtain ⟨ha', hnd''⟩ := List.nodup_cons.mp hnd
  have hb' := (List.nodup_cons.mp hnd'').1
  refine ⟨fun he => ⟨.inr (.inr he), fun hea => ?_, fun heb => hb' (heb ▸ he)⟩, fun he => ?_⟩
  · exact ha' (hea ▸ List.mem_cons_of_mem b he)
  · exact (he.1.resolve_left he.2.1).resolve_left he.2.2

theorem Wf.mem_contract {e : Nat × EdgeSide} : e ∈ (F.contract l r a b pm).beach ↔
    e = (F.nedges, pm) ∨ e ∈ F.beach ∧ e ≠ a ∧ e ≠ b := by
  rw [← w.mem_rest h]
  show e ∈ l ++ (F.nedges, pm) :: r ↔ _
  simp [or_left_comm]

theorem Wf.nodup_contract : (F.contract l r a b pm).beach.Nodup := by
  have hp : (l ++ (F.nedges, pm) :: r).Perm ((F.nedges, pm) :: (l ++ r)) := List.perm_middle
  refine hp.nodup_iff.mpr (List.nodup_cons.mpr ⟨fun hm => w.notMem_new pm ((w.mem_rest h).mp hm).1, ?_⟩)
  have hnd : (l ++ a :: b :: r).Nodup := h ▸ w.nodup
  exact hnd.sublist (List.Sublist.append_left (((List.Sublist.refl r).cons b).cons a) l)

theorem Wf.open_contract {e : Nat × EdgeSide} (he : e.1 < F.nedges + 1) :
    (F.contract l r a b pm).ends e = none ↔ e ∈ (F.contract l r a b pm).beach := by
  rw [ends_contract, w.mem_contract h]
  rcases Nat.lt_succ_iff_lt_or_eq.mp he with hl | hl
  · have hne : ∀ sd, e ≠ (F.nedges, sd) := fun sd hs => by
      rw [hs] at hl
      exact Nat.lt_irrefl F.nedges hl
    rw [if_neg (hne pm.other), or_iff_right (hne pm), ← w.open_iff e hl]
    by_cases hb : e = b
    · simp [hb]
    · by_cases ha : e = a
      · simp [ha]
      · simp [ha, hb]
  · obtain ⟨k, sd⟩ := e
    obtain rfl : k = F.nedges := hl
    have hna : (F.nedges, sd) ≠ a := fun hs => (w.left_lt h).ne (congrArg Prod.fst hs).symm
    have hnb : (F.nedges, sd) ≠ b := fun hs => (w.right_lt h).ne (congrArg Prod.fst hs).symm
    by_cases hs : sd = pm
    · subst hs
      simp [hnb, hna, w.ends_new, (EdgeSide.other_ne sd).symm]
    · simp [w.notMem_new, EdgeSide.eq_other_of_ne hs, EdgeSide.other_ne]

theorem Wf.walk_contract : (F.contract l r a b pm).Walk bottom (F.contract l r a b pm).beach bottom := by
  have hg : Grows F (F.contract l r a b pm) (facing pm (F.reg a.1 a.2) (F.reg b.1 b.2.other)) := ⟨rfl, rfl⟩
  have hwalk := Walk.split.mp (h ▸ w.walk)
  have hreg : ∀ e ∈ l ++ a :: b :: r, (F.contract l r a b pm).reg e.1 = F.reg e.1 :=
    fun e he => hg.reg_of_lt (w.beach_lt e (h ▸ he))
  have hl : ∀ e ∈ l, (F.contract l r a b pm).reg e.1 = F.reg e.1 :=
    fun e he => hreg e (List.mem_append_left _ he)
  refine Walk.split.mpr ⟨?_, ?_⟩
  · rw [beyond_congr hl]
    exact hwalk.1.congr hl
  · rw [beyond_congr hl]
    obtain ⟨hxa, hab', hrw⟩ := hwalk.2
    refine ⟨?_, ?_⟩
    · show (F.contract l r a b pm).reg F.nedges pm = _
      rw [hg.reg_new, facing_same]
      exact hxa
    · show Walk _ ((F.contract l r a b pm).reg F.nedges pm.other) r bottom
      rw [hg.reg_new, facing_other]
      exact hrw.congr (fun e he => hreg e (by simp [he]))

/-- The ends of the older vertices are where they were: only open ends are set. -/
theorem Wf.ends_contract_old {v : Nat} (hv : v < F.nverts) (e : Nat × EdgeSide) :
    (F.contract l r a b pm).ends e = some v ↔ F.ends e = some v := by
  have hna : F.ends a = none := (w.open_iff a (w.left_lt h)).mpr (h ▸ by simp)
  have hnb : F.ends b = none := (w.open_iff b (w.right_lt h)).mpr (h ▸ by simp)
  rw [ends_contract]
  by_cases hen : e = (F.nedges, pm.other)
  · simp [hen, w.ends_new, hv.ne']
  · by_cases heb : e = b
    · simp [heb, hnb, hv.ne']
    · by_cases hea : e = a
      · simp [hea, hna, hv.ne']
      · simp [hen, heb, hea]

theorem Wf.corner_contract (hab : a.1 ≠ b.1) : (F.contract l r a b pm).Corner F.nverts := by
  have hg : Grows F (F.contract l r a b pm) (facing pm (F.reg a.1 a.2) (F.reg b.1 b.2.other)) := ⟨rfl, rfl⟩
  have ha := w.left_lt h
  have hb := w.right_lt h
  have hwalk : F.Walk bottom (l ++ a :: b :: r) bottom := h ▸ w.walk
  have hmid : F.reg b.1 b.2 = F.reg a.1 a.2.other := (Walk.split.mp hwalk).2.2.1
  refine ⟨F.reg a.1 a.2, F.reg a.1 a.2.other, F.reg b.1 b.2.other, a, b, (F.nedges, pm.other),
    ⟨hab, Nat.ne_of_lt ha, Nat.ne_of_lt hb⟩, fun e => ?_, hg.bisects ha ⟨a.2, rfl, rfl⟩,
    hg.bisects hb ⟨b.2, hmid, rfl⟩, pm, by simp [hg.reg_new], by simp [hg.reg_new]⟩
  rw [ends_contract]
  have hold : F.ends e ≠ some F.nverts := fun hs => Nat.lt_irrefl _ (w.ends_lt e _ hs).2
  by_cases hen : e = (F.nedges, pm.other)
  · simp [hen]
  · by_cases heb : e = b
    · simp [heb]
    · by_cases hea : e = a
      · simp [hea]
      · simp [hen, heb, hea, hold]

theorem Wf.ends_contract_lt {e : Nat × EdgeSide} {v : Nat} (hv : (F.contract l r a b pm).ends e = some v) :
    e.1 < F.nedges + 1 ∧ v < F.nverts + 1 := by
  have ha := w.left_lt h
  have hb := w.right_lt h
  rw [ends_contract] at hv
  split at hv
  · next he => simp [he, Option.some.inj hv]
  · split at hv
    · next he => exact ⟨by rw [he]; omega, by have := Option.some.inj hv; omega⟩
    · split at hv
      · next he => exact ⟨by rw [he]; omega, by have := Option.some.inj hv; omega⟩
      · have := w.ends_lt e v hv
        omega

theorem Wf.contract (hab : a.1 ≠ b.1) : (F.contract l r a b pm).Wf bottom := by
  have hg : Grows F (F.contract l r a b pm) (facing pm (F.reg a.1 a.2) (F.reg b.1 b.2.other)) := ⟨rfl, rfl⟩
  have hx := w.reg_mem a.1 (w.left_lt h) a.2
  have hy := w.reg_mem b.1 (w.right_lt h) b.2.other
  exact {
    nodup := w.nodup_contract h
    beach_lt := fun e he => by
      show e.1 < F.nedges + 1
      rcases (w.mem_contract h).mp he with rfl | he
      · exact Nat.lt_succ_self _
      · exact Nat.lt_succ_of_lt (w.beach_lt e he.1)
    open_iff := fun e he => w.open_contract h he
    ends_lt := fun e v hv => w.ends_contract_lt h hv
    walk := w.walk_contract h
    edges_eq := by
      show F.nedges + 1 + 1 = F.seen.length + (F.nverts + 1)
      have := w.edges_eq
      omega
    beach_eq := by
      show (l ++ (F.nedges, pm) :: r).length + (F.nverts + 1) + 2 = 2 * F.seen.length
      have hb := w.beach_eq
      rw [h] at hb
      simp only [List.length_append, List.length_cons] at hb ⊢
      omega
    beach_pos := fun _ he => by simp [Front.contract] at he
    seen_bottom := w.seen_bottom
    reg_mem := hg.reg_mem w.reg_mem (fun sd => facing_mem (S := (· ∈ F.seen)) hx hy pm sd) (fun _ hs => hs)
    corner := fun v hv => by
      rcases Nat.lt_succ_iff_lt_or_eq.mp hv with hlt | rfl
      · exact hg.corner (w.ends_contract_old h hlt) (fun e he => (w.ends_lt e v he).1) (w.corner v hlt)
      · exact w.corner_contract h hab
    connected := fun q hq => hg.connected (w.connected q hq) }

end Contract

theorem wf_start (bottom : σ) : (start bottom).Wf bottom where
  nodup := List.nodup_nil
  beach_lt := fun _ h => absurd h List.not_mem_nil
  open_iff := fun _ h => absurd h (Nat.not_lt_zero _)
  ends_lt := fun _ _ h => nomatch h
  walk := rfl
  edges_eq := rfl
  beach_eq := rfl
  beach_pos := fun h => absurd h (by simp [start])
  seen_bottom := List.mem_singleton.mpr rfl
  reg_mem := fun _ h => absurd h (Nat.not_lt_zero _)
  corner := fun _ h => absurd h (Nat.not_lt_zero _)
  connected := fun p hp => List.mem_singleton.mp hp ▸ Relation.ReflTransGen.refl

theorem Event.wf {G : Front σ} (e : Event bottom F G) (w : F.Wf bottom) : G.Wf bottom := by
  cases e with
  | site l r p h => exact w.splitAt h
  | vertex l r a b pm h hab => exact w.contract h hab

theorem Event.seen_le {G : Front σ} (e : Event bottom F G) : F.seen.length ≤ G.seen.length := by
  cases e with
  | site l r p h =>
    show F.seen.length ≤ (F.seen ++ [p]).length
    simp
  | vertex l r a b pm h hab => exact Nat.le_refl _

/-- The turns that are left: each site brings three, and each event takes one. -/
theorem Event.measure {G : Front σ} (e : Event bottom F G) :
    G.beach.length + 1 = F.beach.length + 3 * (G.seen.length - F.seen.length) := by
  cases e with
  | site l r p h =>
    have hs : (F.splitAt l r (F.beyond bottom l) p).seen = F.seen ++ [p] := rfl
    have hb : (F.splitAt l r (F.beyond bottom l) p).beach = l ++ (F.nedges, .le) :: (F.nedges, .re) :: r := rfl
    simp only [hs, hb, h, List.length_append, List.length_cons, List.length_nil]
    omega
  | vertex l r a b pm h hab =>
    have hs : (F.contract l r a b pm).seen = F.seen := rfl
    have hb : (F.contract l r a b pm).beach = l ++ (F.nedges, pm) :: r := rfl
    simp only [hs, hb, h, List.length_append, List.length_cons]
    omega

end Events

end Front

end VastNC
