import VastNC.Lib.Linked
import VastNC.Sweep

/-! The buckets of heap.c are a priority queue: each event is in the list of the bucket that its
position says, and where the comparisons of doubles are an order, the lists are sorted. -/

namespace VastNC

open Function Linked Block

/-- What the comparisons of doubles satisfy as long as none of them is a NaN. -/
structure Double.Ordered (K : Type) [Double K] : Prop where
  irrefl : ∀ a : K, ¬ a < a
  trans : ∀ a b c : K, a < b → b < c → a < c
  cotrans : ∀ a b c : K, a < c → a < b ∨ b < c
  beq_iff : ∀ a b : K, (a == b) = true ↔ ¬ a < b ∧ ¬ b < a

namespace Sweep

variable {K : Type} {s t : Sweep K} {B : Nat → List Nat} {Q l : List Nat} {h v i fuel : Nat} {c : PQCell}

/-- The key of an event. -/
def key (s : Sweep K) (h : Nat) : K × K :=
  (s.pq.ystar h, (((s.pq.vertex h).bind (fun v => s.vertices[v]?)).map (fun vx => vx.coord.x)).getD (s.pq.ystar h))

theorem vertex_ok {vx : Vertex K} (hv : s.vertices[v]? = some vx) : s.vertex v = .ok vx := by
  rw [Sweep.vertex, hv, deref_some]

theorem key_eq {vx : Vertex K} (hv : s.pq.vertex h = some v) (hx : s.vertices[v]? = some vx) :
    s.key h = (s.pq.ystar h, vx.coord.x) := by
  rw [key, hv, Option.bind_some, hx]
  rfl

theorem pqSeek_ok {l₁ l₂ : List Nat} (hl : Leads PQCell.he s.pq.pqNext c (l₁ ++ h :: l₂)) (hh : h ∉ l₁)
    (hfuel : l₁.length < fuel) : s.pqSeek h fuel c = .ok (lastCell PQCell.he c l₁) := by
  induction l₁ generalizing c fuel with
  | nil =>
    obtain ⟨fuel, rfl⟩ : ∃ n, fuel = n + 1 := ⟨fuel - 1, by simp at hfuel; omega⟩
    rw [pqSeek, if_pos hl.1]
    rfl
  | cons a l ih =>
    obtain ⟨fuel, rfl⟩ : ∃ n, fuel = n + 1 := ⟨fuel - 1, by simp at hfuel; omega⟩
    have hne : s.pq.pqNext c ≠ some h := by
      rw [hl.1]
      exact fun he => hh (Option.some.inj he ▸ List.mem_cons_self ..)
    rw [pqSeek, if_neg hne, hl.1]
    exact ih hl.2 (fun hm => hh (List.mem_cons_of_mem a hm)) (by simpa using hfuel)

variable [Double K]

/-- The order of the events: by `ystar`, and by the x of the vertex where that is equal. -/
def before (k k' : K × K) : Bool := k'.1 > k.1 || (k'.1 == k.1 && k'.2 > k.2)

theorem before_iff (ho : Double.Ordered K) (k k' : K × K) :
    before k k' = true ↔ k.1 < k'.1 ∨ (¬ k'.1 < k.1 ∧ k.2 < k'.2) := by
  have he := ho.beq_iff k'.1 k.1
  simp only [before, gt_iff_lt, Bool.or_eq_true, decide_eq_true_eq, Bool.and_eq_true, he]
  tauto

theorem before_asymm (ho : Double.Ordered K) {k k' : K × K} (h : before k k' = true) : before k' k = false := by
  rw [Bool.eq_false_iff]
  intro h'
  rw [before_iff ho] at h h'
  have h₁ := fun h₁ h₂ => ho.irrefl _ (ho.trans k.1 k'.1 k.1 h₁ h₂)
  have h₂ := fun h₁ h₂ => ho.irrefl _ (ho.trans k.2 k'.2 k.2 h₁ h₂)
  tauto

theorem before_cotrans (ho : Double.Ordered K) (k' : K × K) {k k'' : K × K} (h : before k k'' = true) :
    before k k' = true ∨ before k' k'' = true := by
  simp only [before_iff ho] at h ⊢
  have h₁ := ho.cotrans k.1 k'.1 k''.1
  have h₂ := ho.cotrans k.2 k'.2 k''.2
  have h₃ := ho.cotrans k''.1 k'.1 k.1
  have h₄ := ho.cotrans k'.1 k''.1 k.1
  have h₅ := ho.cotrans k''.1 k.1 k'.1
  tauto

/-- The buckets hold the events of `Q`, each in its own. -/
structure Buckets (s : Sweep K) (B : Nat → List Nat) (Q : List Nat) : Prop where
  size : 0 < s.pq.pqHashsize
  nodup : Q.Nodup
  mem : ∀ i h, h ∈ B i ↔ h ∈ Q ∧ s.bucketOf (s.pq.ystar h) = i
  nodup_bucket : ∀ i, (B i).Nodup
  leads : ∀ i < s.pq.pqHashsize, Leads PQCell.he s.pq.pqNext (.bucket i) (B i)
  count : s.pq.pqCount = Q.length
  min : ∀ h ∈ Q, s.pq.pqMin ≤ s.bucketOf (s.pq.ystar h)
  vertex : ∀ h ∈ Q, ∃ v vx, s.pq.vertex h = some v ∧ s.vertices[v]? = some vx
  lt : ∀ h ∈ Q, h < s.el.count
  sorted : Double.Ordered K → ∀ i, (B i).Pairwise (fun a b => before (s.key b) (s.key a) = false)

def Queue (s : Sweep K) (Q : List Nat) : Prop := ∃ B, s.Buckets B Q

/-- A larger `ystar` falls into no earlier bucket. -/
def Monotone (s : Sweep K) : Prop := ∀ a b : K, ¬ b < a → s.bucketOf a ≤ s.bucketOf b

theorem bucketOf_lt (hs : 0 < s.pq.pqHashsize) (y : K) : s.bucketOf y < s.pq.pqHashsize := by
  unfold bucketOf clamp
  dsimp only
  split <;> split <;> omega

theorem Buckets.passes (hb : s.Buckets B Q) (hm : h ∈ Q) (y : K) (p : Point K) :
    s.passes y p h = .ok (before (s.key h) (y, p.x)) := by
  obtain ⟨v, vx, hv, hx⟩ := hb.vertex h hm
  unfold Sweep.passes
  rw [hv, deref_some, ok_bind, vertex_ok hx, ok_bind, key_eq hv hx]
  rfl

theorem Buckets.length_le (hb : s.Buckets B Q) (i : Nat) : (B i).length ≤ s.el.count := by
  have hsub : (B i).Subperm (List.range s.el.count) :=
    (hb.nodup_bucket i).subperm (fun x hx => List.mem_range.mpr (hb.lt x ((hb.mem i x).mp hx).1))
  simpa using hsub.length_le

theorem Buckets.bucket_lt (hb : s.Buckets B Q) (hm : h ∈ B i) : i < s.pq.pqHashsize :=
  ((hb.mem i h).mp hm).2 ▸ bucketOf_lt hb.size _

theorem Buckets.cells_nodup (hb : s.Buckets B Q) (i : Nat) : (PQCell.bucket i :: (B i).map PQCell.he).Nodup :=
  List.nodup_cons.mpr ⟨by simp, (hb.nodup_bucket i).map (fun _ _ he => PQCell.he.inj he)⟩

theorem lastCell_mem_bucket (hl : l ⊆ B i) :
    lastCell PQCell.he (.bucket i) l ∈ PQCell.bucket i :: (B i).map PQCell.he :=
  List.cons_subset_cons _ (List.map_subset PQCell.he hl) lastCell_mem

/-- Assignments to the cells of one bucket, or to a half-edge in none, leave the others alone. -/
theorem Buckets.leads_of_ne (hb : s.Buckets B Q) {j : Nat} (hj : j ≠ i) {d : PQCell}
    (hd : d ∈ PQCell.bucket j :: (B j).map PQCell.he ∨ ∃ h, d = .he h ∧ h ∉ Q) {o : Option Nat} {next : PQCell → Option Nat}
    (hl : Leads PQCell.he next (.bucket i) (B i)) : Leads PQCell.he (update next d o) (.bucket i) (B i) := by
  refine (leads_update fun hm => ?_).mpr hl
  rcases hd with hd | ⟨h, rfl, hh⟩
  · rcases List.mem_cons.mp hd with rfl | hd
    · simp [hj] at hm
    · obtain ⟨h, hh, rfl⟩ := List.mem_map.mp hd
      have hmi : h ∈ B i := by simpa using hm
      exact hj (((hb.mem j h).mp hh).2.symm.trans ((hb.mem i h).mp hmi).2)
  · have hmi : h ∈ B i := by simpa using hm
    exact hh ((hb.mem i h).mp hmi).1

theorem pqFind_ok {y : K} {p : Point K} {f : Nat → Bool} (hl : Leads PQCell.he s.pq.pqNext c l)
    (hf : ∀ h ∈ l, s.passes y p h = .ok (f h)) (hfuel : l.length < fuel) :
    s.pqFind y p fuel c = .ok (lastCell PQCell.he c (l.takeWhile f)) := by
  induction l generalizing c fuel with
  | nil =>
    obtain ⟨fuel, rfl⟩ : ∃ n, fuel = n + 1 := ⟨fuel - 1, by simp at hfuel; omega⟩
    rw [pqFind, leads_nil.mp hl]
    rfl
  | cons a l ih =>
    obtain ⟨fuel, rfl⟩ : ∃ n, fuel = n + 1 := ⟨fuel - 1, by simp at hfuel; omega⟩
    have ha := hf a (List.mem_cons_self ..)
    rw [pqFind, hl.1]
    simp only [ha, ok_bind]
    cases hfa : f a with
    | false => simp [hfa, lastCell, pure, Except.pure]
    | true =>
      rw [if_pos rfl, ih hl.2 (fun h hh => hf h (List.mem_cons_of_mem a hh)) (by simpa using hfuel),
        List.takeWhile_cons_of_pos hfa]
      rfl

theorem Buckets.pqAdvance_ok (hb : s.Buckets B Q) {j : Nat} (hj : B j ≠ []) (hij : i ≤ j)
    (hfuel : s.pq.pqHashsize < fuel + i) :
    ∃ k h m, i ≤ k ∧ B k = h :: m ∧ (∀ n, i ≤ n → n < k → B n = []) ∧ s.pqAdvance fuel i = .ok (k, h) := by
  have hjs : j < s.pq.pqHashsize := by
    obtain ⟨a, ha⟩ := List.exists_mem_of_ne_nil _ hj
    exact hb.bucket_lt ha
  induction fuel generalizing i with
  | zero => omega
  | succ fuel ih =>
    have hi : i < s.pq.pqHashsize := by omega
    rw [pqAdvance, if_neg (Nat.not_le.mpr hi)]
    have hl := hb.leads i hi
    cases hBi : B i with
    | nil =>
      rw [hBi] at hl
      have hne : i ≠ j := fun he => hj (he ▸ hBi)
      obtain ⟨k, h, m, hik, hk, hbetween, ho⟩ := ih (i := i + 1) (by omega) (by omega)
      refine ⟨k, h, m, by omega, hk, fun n hn hnk => ?_, ?_⟩
      · rcases Nat.eq_or_lt_of_le hn with rfl | hlt
        · exact hBi
        · exact hbetween n hlt hnk
      · rw [leads_nil.mp hl]
        exact ho
    | cons h m =>
      rw [hBi] at hl
      exact ⟨i, h, m, Nat.le_refl i, hBi, fun n hn hnk => absurd hnk (Nat.not_lt.mpr hn), by rw [hl.1]⟩

/-- `PQ_min` finds an event, and where the doubles are ordered no other comes before it. -/
theorem pqMinPoint_ok (hq : s.Queue Q) (hne : Q ≠ []) :
    ∃ h ∈ Q, ∃ i, s.pqMinPoint = .ok (⟨(s.key h).2, (s.key h).1⟩, { s with pq := { s.pq with pqMin := i } }) ∧
      Queue { s with pq := { s.pq with pqMin := i } } Q ∧ s.pq.pqNext (.bucket i) = some h ∧
      s.bucketOf (s.pq.ystar h) = i ∧
      (Double.Ordered K → s.Monotone → ∀ h' ∈ Q, before (s.key h') (s.key h) = false) := by
  obtain ⟨B, hb⟩ := hq
  obtain ⟨a, ha⟩ := List.exists_mem_of_ne_nil Q hne
  have haB : a ∈ B (s.bucketOf (s.pq.ystar a)) := (hb.mem _ a).mpr ⟨ha, rfl⟩
  obtain ⟨i, h, m, hik, hBi, hempty, ho⟩ :=
    hb.pqAdvance_ok (List.ne_nil_of_mem haB) (hb.min a ha)
      (by omega : s.pq.pqHashsize < s.pq.pqHashsize + 1 + s.pq.pqMin)
  have hhB : h ∈ B i := hBi ▸ List.mem_cons_self ..
  obtain ⟨hhQ, hbucket⟩ := (hb.mem i h).mp hhB
  obtain ⟨v, vx, hv, hx⟩ := hb.vertex h hhQ
  have hle : ∀ h' ∈ Q, i ≤ s.bucketOf (s.pq.ystar h') := by
    intro h' hh'
    by_contra hlt
    have hnil := hempty _ (hb.min h' hh') (Nat.not_le.mp hlt)
    exact List.ne_nil_of_mem ((hb.mem _ h').mpr ⟨hh', rfl⟩) hnil
  refine ⟨h, hhQ, i, ?_, ⟨B, { hb with min := hle }⟩, ?_, hbucket, fun hord hmono h' hh' => ?_⟩
  · unfold pqMinPoint
    rw [ho]
    simp only [ok_bind, hv, deref_some, vertex_ok hx, key_eq hv hx]
    rfl
  · have hl := hb.leads i (hb.bucket_lt hhB)
    rw [hBi] at hl
    exact hl.1
  · rcases Nat.eq_or_lt_of_le (hle h' hh') with he | hlt
    · have hm : h' ∈ B i := (hb.mem i h').mpr ⟨hh', he.symm⟩
      have hs := hb.sorted hord i
      rw [hBi] at hm hs
      rcases List.mem_cons.mp hm with rfl | hm
      · rw [Bool.eq_false_iff]
        exact fun hlt => Bool.noConfusion ((before_asymm hord hlt).symm.trans hlt)
      · exact (List.pairwise_cons.mp hs).1 h' hm
    · rw [Bool.eq_false_iff, Ne, before_iff hord]
      intro hbef
      have hnot : ¬ s.pq.ystar h < s.pq.ystar h' := by
        rcases hbef with hl | hl
        · exact fun hr => hord.irrefl _ (hord.trans _ _ _ hl hr)
        · exact hl.1
      have := hmono _ _ hnot
      omega

theorem pqExtractmin_ok (hq : s.Queue Q) (hm : h ∈ Q) (hnext : s.pq.pqNext (.bucket s.pq.pqMin) = some h)
    (hbucket : s.bucketOf (s.pq.ystar h) = s.pq.pqMin) :
    ∃ pq', s.pqExtractmin = .ok (h, { s with pq := pq' }) ∧ Queue { s with pq := pq' } (Q.erase h) ∧
      pq'.vertex = s.pq.vertex ∧ pq'.pqHashsize = s.pq.pqHashsize := by
  obtain ⟨B, hb⟩ := hq
  have hhB : h ∈ B s.pq.pqMin := (hb.mem _ h).mpr ⟨hm, hbucket⟩
  have hi : s.pq.pqMin < s.pq.pqHashsize := hb.bucket_lt hhB
  have hl := hb.leads _ hi
  obtain ⟨m, hBm⟩ : ∃ m, B s.pq.pqMin = h :: m := by
    cases hB : B s.pq.pqMin with
    | nil => exact absurd hhB (by simp [hB])
    | cons a m =>
      rw [hB] at hl
      exact ⟨m, by rw [Option.some.inj (hl.1.symm.trans hnext)]⟩
  have hnd := hb.nodup_bucket s.pq.pqMin
  rw [hBm] at hl hnd
  have hnd' := List.nodup_cons.mp hnd
  have hmem : ∀ i a, a ∈ update B s.pq.pqMin m i ↔ a ∈ Q.erase h ∧ s.bucketOf (s.pq.ystar a) = i := by
    intro i a
    rw [hb.nodup.mem_erase_iff, and_assoc, ← hb.mem i a]
    by_cases hi' : i = s.pq.pqMin
    · subst hi'
      rw [update_self, hBm, List.mem_cons]
      exact ⟨fun ha => ⟨fun he => hnd'.1 (he ▸ ha), .inr ha⟩, fun ha => ha.2.resolve_left ha.1⟩
    · rw [update_of_ne hi']
      exact ⟨fun ha => ⟨fun he => hi' (((hb.mem i a).mp ha).2.symm.trans (he ▸ hbucket)), ha⟩, fun ha => ha.2⟩
  refine ⟨{ s.pq with
      pqNext := update s.pq.pqNext (.bucket s.pq.pqMin) (s.pq.pqNext (.he h))
      pqCount := s.pq.pqCount - 1 }, ?_, ⟨update B s.pq.pqMin m, ?_⟩, rfl, rfl⟩
  · unfold pqExtractmin
    rw [hnext]
    rfl
  · refine ⟨hb.size, hb.nodup.erase h, hmem, ?_, ?_, ?_, ?_, ?_, ?_, ?_⟩
    · intro i
      by_cases hi' : i = s.pq.pqMin
      · rw [hi', update_self]
        exact hnd'.2
      · rw [update_of_ne hi']
        exact hb.nodup_bucket i
    · intro i hi'
      by_cases hin : i = s.pq.pqMin
      · subst hin
        rw [update_self]
        have hcells : (PQCell.bucket s.pq.pqMin :: (h :: m).map PQCell.he).Nodup := hBm ▸ hb.cells_nodup s.pq.pqMin
        exact Leads.remove (l := []) hl hcells
      · rw [update_of_ne hin]
        exact hb.leads_of_ne (fun he => hin he.symm) (.inl (List.mem_cons_self ..)) (hb.leads i hi')
    · show s.pq.pqCount - 1 = ((Q.erase h).length : Int)
      rw [hb.count, List.length_erase_of_mem hm]
      have := List.length_pos_of_mem hm
      omega
    · exact fun a ha => hb.min a (List.mem_of_mem_erase ha)
    · exact fun a ha => hb.vertex a (List.mem_of_mem_erase ha)
    · exact fun a ha => hb.lt a (List.mem_of_mem_erase ha)
    · intro hord i
      by_cases hi' : i = s.pq.pqMin
      · have hs := hb.sorted hord s.pq.pqMin
        rw [hBm] at hs
        rw [hi', update_self]
        exact (List.pairwise_cons.mp hs).2
      · rw [update_of_ne hi']
        exact hb.sorted hord i

/-- The queue does not change where none of its events, of their vertices or of its lists does. -/
theorem Buckets.frame (hb : s.Buckets B Q) (hymin : t.ymin = s.ymin) (hymax : t.ymax = s.ymax)
    (hsize : t.pq.pqHashsize = s.pq.pqHashsize) (hlt : s.el.count ≤ t.el.count)
    (hcount : t.pq.pqCount = s.pq.pqCount) (hmin : t.pq.pqMin ≤ s.pq.pqMin)
    (hleads : ∀ i < s.pq.pqHashsize, Leads PQCell.he t.pq.pqNext (.bucket i) (B i))
    (hystar : ∀ h ∈ Q, t.pq.ystar h = s.pq.ystar h) (hvertex : ∀ h ∈ Q, t.pq.vertex h = s.pq.vertex h)
    (hcoord : ∀ (v : Nat) (vx : Vertex K), s.vertices[v]? = some vx → ∃ nbr, t.vertices[v]? = some ⟨vx.coord, nbr⟩) : t.Buckets B Q := by
  have hbucket : t.bucketOf = s.bucketOf := by
    funext y
    simp only [bucketOf, deltay, hymin, hymax, hsize]
  have hkey : ∀ h ∈ Q, t.key h = s.key h := by
    intro h hh
    obtain ⟨v, vx, hv, hx⟩ := hb.vertex h hh
    obtain ⟨nbr, hx'⟩ := hcoord v vx hx
    rw [key_eq hv hx, key_eq ((hvertex h hh).trans hv) hx', hystar h hh]
  refine ⟨hsize ▸ hb.size, hb.nodup, ?_, hb.nodup_bucket, fun i hi => hleads i (hsize ▸ hi), hcount.trans hb.count,
    ?_, ?_, fun h hh => Nat.lt_of_lt_of_le (hb.lt h hh) hlt, ?_⟩
  · intro i h
    rw [hb.mem, hbucket]
    exact and_congr_right fun hh => by rw [hystar h hh]
  · intro h hh
    rw [hbucket, hystar h hh]
    exact Nat.le_trans hmin (hb.min h hh)
  · intro h hh
    obtain ⟨v, vx, hv, hx⟩ := hb.vertex h hh
    obtain ⟨nbr, hx'⟩ := hcoord v vx hx
    exact ⟨v, _, (hvertex h hh).trans hv, hx'⟩
  · intro hord i
    refine (hb.sorted hord i).imp_of_mem fun ha hb' hab => ?_
    rwa [hkey _ ((hb.mem i _).mp ha).1, hkey _ ((hb.mem i _).mp hb').1]

theorem Queue.frame (hq : s.Queue Q) (hymin : t.ymin = s.ymin) (hymax : t.ymax = s.ymax) (hpq : t.pq = s.pq)
    (hlt : s.el.count ≤ t.el.count)
    (hcoord : ∀ (v : Nat) (vx : Vertex K), s.vertices[v]? = some vx → ∃ nbr, t.vertices[v]? = some ⟨vx.coord, nbr⟩) : t.Queue Q := by
  obtain ⟨B, hb⟩ := hq
  exact ⟨B, hb.frame hymin hymax (by rw [hpq]) hlt (by rw [hpq]) (by rw [hpq]) (by rw [hpq]; exact hb.leads)
    (fun _ _ => by rw [hpq]) (fun _ _ => by rw [hpq]) hcoord⟩

/-- The lists reach no half-edge that is not queued. -/
theorem Buckets.leads_he (hb : s.Buckets B Q) (hh : h ∉ Q) {o : Option Nat} :
    ∀ i < s.pq.pqHashsize, Leads PQCell.he (update s.pq.pqNext (.he h) o) (.bucket i) (B i) :=
  fun i hi => hb.leads_of_ne (Nat.succ_ne_self i) (.inr ⟨h, rfl, hh⟩) (hb.leads i hi)

theorem Queue.heCreate (hq : s.Queue Q) (e : EdgePtr) (pm : EdgeSide) : (s.heCreate e pm).2.Queue Q := by
  obtain ⟨B, hb⟩ := hq
  have hnew : s.el.count ∉ Q := fun hm => Nat.lt_irrefl _ (hb.lt _ hm)
  have hne : ∀ h ∈ Q, h ≠ s.el.count := fun h hh he => hnew (he ▸ hh)
  exact ⟨B, hb.frame rfl rfl rfl (Nat.le_succ _) rfl (Nat.le_refl _) (hb.leads_he hnew)
    (fun h hh => update_of_ne (hne h hh) ..) (fun h hh => update_of_ne (hne h hh) ..)
    (fun v vx hx => ⟨vx.sitenbr, hx⟩)⟩

/-- A half-edge that is in no list is entered in that of its bucket, before those it does not pass. -/
theorem Buckets.insert (hb : s.Buckets B Q) (hh : h ∉ Q) (hlt : h < s.el.count) {vx : Vertex K}
    (hv : s.pq.vertex h = some v) (hx : s.vertices[v]? = some vx) (hmin : s.pq.pqMin ≤ s.bucketOf (s.pq.ystar h)) :
    let f := fun a => before (s.key a) (s.key h)
    let b := s.bucketOf (s.pq.ystar h)
    let last := lastCell PQCell.he (.bucket b) ((B b).takeWhile f)
    Buckets { s with pq :=
      { s.pq with
        pqNext := update (update s.pq.pqNext (.he h) (s.pq.pqNext last)) last (some h)
        pqCount := s.pq.pqCount + 1 } }
      (update B b ((B b).takeWhile f ++ h :: (B b).dropWhile f)) (h :: Q) := by
  intro f b last
  have hb' : b < s.pq.pqHashsize := bucketOf_lt hb.size _
  have hsplit : (B b).takeWhile f ++ (B b).dropWhile f = B b := List.takeWhile_append_dropWhile
  have hhB : ∀ i, h ∉ B i := fun i hm => hh ((hb.mem i h).mp hm).1
  have hcell : PQCell.he h ∉ PQCell.bucket b :: (B b).map PQCell.he := by simpa using hhB b
  have hmem : ∀ a, a ∈ (B b).takeWhile f ++ h :: (B b).dropWhile f ↔ a = h ∨ a ∈ B b := by
    intro a
    rw [List.perm_middle.mem_iff, List.mem_cons, hsplit]
  refine ⟨hb.size, List.nodup_cons.mpr ⟨hh, hb.nodup⟩, ?_, ?_, ?_, ?_, ?_, ?_, ?_, ?_⟩
  · intro i a
    show _ ↔ a ∈ h :: Q ∧ s.bucketOf (s.pq.ystar a) = i
    by_cases hi : i = b
    · subst hi
      rw [update_self, hmem, hb.mem, List.mem_cons]
      exact ⟨fun ha => ha.elim (fun he => ⟨.inl he, by rw [he]⟩) (fun ha => ⟨.inr ha.1, ha.2⟩),
        fun ha => ha.1.imp_right fun hq => ⟨hq, ha.2⟩⟩
    · rw [update_of_ne hi, hb.mem, List.mem_cons]
      refine ⟨fun ha => ⟨.inr ha.1, ha.2⟩, fun ha => ⟨ha.1.resolve_left fun he => hi ?_, ha.2⟩⟩
      rw [← ha.2, he]
  · intro i
    by_cases hi : i = b
    · subst hi
      rw [update_self]
      refine List.perm_middle.nodup_iff.mpr (List.nodup_cons.mpr ?_)
      rw [hsplit]
      exact ⟨hhB _, hb.nodup_bucket _⟩
    · rw [update_of_ne hi]
      exact hb.nodup_bucket i
  · intro i hi
    by_cases hib : i = b
    · subst hib
      rw [update_self]
      have hl := hb.leads _ hi
      have hnd := hb.cells_nodup b
      rw [← hsplit] at hl hnd hcell
      exact hl.insert hnd hcell
    · rw [update_of_ne hib]
      refine hb.leads_of_ne (fun he => hib he.symm) (.inl (lastCell_mem_bucket ?_)) (hb.leads_he hh i hi)
      exact (List.takeWhile_prefix f).subset
  · show s.pq.pqCount + 1 = ((h :: Q).length : Int)
    rw [hb.count, List.length_cons]
    omega
  · exact List.forall_mem_cons.mpr ⟨hmin, hb.min⟩
  · exact List.forall_mem_cons.mpr ⟨⟨v, vx, hv, hx⟩, hb.vertex⟩
  · exact List.forall_mem_cons.mpr ⟨hlt, hb.lt⟩
  · intro hord i
    show List.Pairwise (fun a c => before (s.key c) (s.key a) = false) _
    by_cases hi : i = b
    · subst hi
      rw [update_self]
      have hs := hb.sorted hord b
      rw [← hsplit] at hs
      obtain ⟨hfront, hback, hcross⟩ := List.pairwise_append.mp hs
      have hbefore : ∀ a ∈ (B b).takeWhile f, before (s.key h) (s.key a) = false :=
        fun a ha => before_asymm hord (List.mem_takeWhile_imp (p := f) ha)
      -- what follows the new event is not before it, as the first that follows is not
      have hafter : ∀ c ∈ (B b).dropWhile f, before (s.key c) (s.key h) = false := by
        cases hd : (B b).dropWhile f with
        | nil => exact fun c hc => absurd hc List.not_mem_nil
        | cons d m =>
          have hdh : before (s.key d) (s.key h) = false := by
            have := List.head?_dropWhile_not f (B b)
            rw [hd] at this
            simpa using this
          rw [hd] at hback
          refine List.forall_mem_cons.mpr ⟨hdh, fun c hc => ?_⟩
          rw [Bool.eq_false_iff]
          intro hch
          rcases before_cotrans hord (s.key d) hch with h₁ | h₁
          · exact Bool.noConfusion (((List.pairwise_cons.mp hback).1 c hc).symm.trans h₁)
          · exact Bool.noConfusion (hdh.symm.trans h₁)
      refine List.pairwise_append.mpr ⟨hfront, List.pairwise_cons.mpr ⟨hafter, hback⟩, fun a ha => ?_⟩
      exact List.forall_mem_cons.mpr ⟨hbefore a ha, hcross a ha⟩
    · rw [update_of_ne hi]
      exact hb.sorted hord i

theorem pqBucket_eq (s : Sweep K) (h : Nat) : s.pqBucket h = (s.bucketOf (s.pq.ystar h), { s with pq :=
    { s.pq with
      pqMin := if s.bucketOf (s.pq.ystar h) < s.pq.pqMin then s.bucketOf (s.pq.ystar h) else s.pq.pqMin } }) := by
  unfold pqBucket
  dsimp only
  split <;> rfl

theorem pqInsert_ok (hq : s.Queue Q) (hh : h ∉ Q) (hlt : h < s.el.count) {vx : Vertex K}
    (hx : s.vertices[v]? = some vx) (offset : K) :
    ∃ pq', s.pqInsert h v offset = .ok { s with pq := pq' } ∧ Queue { s with pq := pq' } (h :: Q) ∧
      pq'.vertex = update s.pq.vertex h (some v) ∧ pq'.pqHashsize = s.pq.pqHashsize := by
  obtain ⟨B, hb⟩ := hq
  let y := vx.coord.y + offset
  let m := if s.bucketOf y < s.pq.pqMin then s.bucketOf y else s.pq.pqMin
  let t : Sweep K := { s with pq :=
    { s.pq with
      vertex := update s.pq.vertex h (some v)
      ystar := update s.pq.ystar h y
      pqMin := m } }
  have hne : ∀ a ∈ Q, a ≠ h := fun a ha he => hh (he ▸ ha)
  have hm : m ≤ s.bucketOf y ∧ m ≤ s.pq.pqMin := by
    show (if _ then _ else _) ≤ _ ∧ (if _ then _ else _) ≤ _
    split <;> omega
  have ht : t.Buckets B Q := hb.frame rfl rfl rfl (Nat.le_refl _) rfl hm.2 hb.leads
    (fun a ha => update_of_ne (hne a ha) ..) (fun a ha => update_of_ne (hne a ha) ..)
    (fun w wx hw => ⟨wx.sitenbr, hw⟩)
  have hty : t.pq.ystar h = y := update_self ..
  have htv : t.pq.vertex h = some v := update_self ..
  have hkey : t.key h = (y, vx.coord.x) := by rw [key_eq htv hx, hty]
  have hins := ht.insert hh hlt htv hx (by rw [hty]; exact hm.1)
  rw [hkey, hty] at hins
  have hfind : t.pqFind y vx.coord (s.el.count + 1) (.bucket (s.bucketOf y)) =
      .ok (lastCell PQCell.he (.bucket (s.bucketOf y))
        ((B (s.bucketOf y)).takeWhile (fun a => before (t.key a) (y, vx.coord.x)))) :=
    pqFind_ok (ht.leads _ (bucketOf_lt hb.size y)) (fun a ha => ht.passes ((ht.mem _ a).mp ha).1 y vx.coord)
      (Nat.lt_succ_of_le (ht.length_le _))
  refine ⟨_, ?_, ⟨_, hins⟩, rfl, rfl⟩
  unfold pqInsert
  rw [vertex_ok hx, ok_bind]
  have hstate : (pqBucket { s with pq :=
      { s.pq with
        vertex := update s.pq.vertex h (some v)
        ystar := update s.pq.ystar h y } } h) = (s.bucketOf y, t) := by
    rw [pqBucket_eq]
    show (s.bucketOf (update s.pq.ystar h y h), Sweep.mk ..) = _
    simp only [update_self]
    rfl
  dsimp only
  rw [hstate]
  show (do
    let last ← t.pqFind y vx.coord (s.el.count + 1) (.bucket (s.bucketOf y))
    _) = _
  rw [hfind]
  rfl

theorem pqDelete_ok (hq : s.Queue Q) (hh : h ∈ Q ∨ s.pq.vertex h = none) :
    ∃ pq', s.pqDelete h = .ok { s with pq := pq' } ∧ Queue { s with pq := pq' } (Q.erase h) ∧
      pq'.vertex = update s.pq.vertex h none ∧ pq'.pqHashsize = s.pq.pqHashsize := by
  obtain ⟨B, hb⟩ := hq
  cases hv : s.pq.vertex h with
  | none =>
    have hnot : h ∉ Q := fun hm => by
      obtain ⟨v, vx, hv', -⟩ := hb.vertex h hm
      exact nomatch hv.symm.trans hv'
    refine ⟨s.pq, by rw [pqDelete, hv], ?_, ?_, rfl⟩
    · rw [List.erase_of_not_mem hnot]
      exact ⟨B, hb⟩
    · rw [← hv, update_eq_self]
  | some v =>
    have hm : h ∈ Q := hh.resolve_right (by rw [hv]; exact Option.some_ne_none v)
    let b := s.bucketOf (s.pq.ystar h)
    have hhB : h ∈ B b := (hb.mem b h).mpr ⟨hm, rfl⟩
    obtain ⟨l₁, l₂, hsplit⟩ := List.append_of_mem hhB
    have hnd := hb.nodup_bucket b
    rw [hsplit] at hnd
    have hperm : (l₁ ++ h :: l₂).Perm (h :: (l₁ ++ l₂)) := List.perm_middle
    have hnd' := List.nodup_cons.mp (hperm.nodup_iff.mp hnd)
    have hl := hb.leads b (bucketOf_lt hb.size _)
    rw [hsplit] at hl
    have hlen : l₁.length < s.el.count + 1 := by
      have := hb.length_le b
      rw [hsplit, List.length_append, List.length_cons] at this
      omega
    have hmem : ∀ i a, a ∈ update B b (l₁ ++ l₂) i ↔ a ∈ Q.erase h ∧ s.bucketOf (s.pq.ystar a) = i := by
      intro i a
      rw [hb.nodup.mem_erase_iff, and_assoc, ← hb.mem i a]
      by_cases hi : i = b
      · subst hi
        rw [update_self, hsplit, hperm.mem_iff, List.mem_cons]
        exact ⟨fun ha => ⟨fun he => hnd'.1 (he ▸ ha), .inr ha⟩, fun ha => ha.2.resolve_left ha.1⟩
      · rw [update_of_ne hi]
        exact ⟨fun ha => ⟨fun he => hi (((hb.mem i a).mp ha).2.symm.trans (by rw [he])), ha⟩, fun ha => ha.2⟩
    have hmin : ¬ b < s.pq.pqMin := Nat.not_lt.mpr (hb.min h hm)
    have hstate : s.pqBucket h = (b, s) := by
      unfold pqBucket
      exact congrArg (Prod.mk b) (if_neg hmin)
    refine ⟨{ s.pq with
        pqNext := update s.pq.pqNext (lastCell PQCell.he (.bucket b) l₁) (s.pq.pqNext (.he h))
        pqCount := s.pq.pqCount - 1
        vertex := update s.pq.vertex h none }, ?_, ⟨update B b (l₁ ++ l₂), ?_⟩, rfl, rfl⟩
    · unfold pqDelete
      rw [hv]
      dsimp only
      rw [hstate]
      simp only [pqSeek_ok hl (fun hm' => hnd'.1 (List.mem_append_left l₂ hm')) hlen, ok_bind]
      rfl
    · have hne : ∀ a ∈ Q.erase h, a ≠ h := fun a ha => ((hb.nodup.mem_erase_iff).mp ha).1
      refine ⟨hb.size, hb.nodup.erase h, hmem, ?_, ?_, ?_, ?_, ?_, ?_, ?_⟩
      · intro i
        by_cases hi : i = b
        · rw [hi, update_self]
          exact hnd'.2
        · rw [update_of_ne hi]
          exact hb.nodup_bucket i
      · intro i hi
        by_cases hib : i = b
        · subst hib
          rw [update_self]
          have hcells := hb.cells_nodup b
          rw [hsplit] at hcells
          exact hl.remove hcells
        · rw [update_of_ne hib]
          refine hb.leads_of_ne (fun he => hib he.symm) (.inl (lastCell_mem_bucket ?_)) (hb.leads i hi)
          rw [hsplit]
          exact List.subset_append_left l₁ _
      · show s.pq.pqCount - 1 = ((Q.erase h).length : Int)
        rw [hb.count, List.length_erase_of_mem hm]
        have := List.length_pos_of_mem hm
        omega
      · exact fun a ha => hb.min a (List.mem_of_mem_erase ha)
      · intro a ha
        obtain ⟨w, wx, hw, hwx⟩ := hb.vertex a (List.mem_of_mem_erase ha)
        exact ⟨w, wx, (update_of_ne (hne a ha) ..).trans hw, hwx⟩
      · exact fun a ha => hb.lt a (List.mem_of_mem_erase ha)
      · intro hord i
        have hkey : ∀ a ∈ Q.erase h, key { s with pq :=
            { s.pq with
              pqNext := update s.pq.pqNext (lastCell PQCell.he (.bucket b) l₁) (s.pq.pqNext (.he h))
              pqCount := s.pq.pqCount - 1
              vertex := update s.pq.vertex h none } } a = s.key a := by
          intro a ha
          show (_, _) = (_, _)
          dsimp only
          rw [update_of_ne (hne a ha)]
        have hold : (update B b (l₁ ++ l₂) i).Pairwise (fun a c => before (s.key c) (s.key a) = false) := by
          by_cases hi : i = b
          · have hs := hb.sorted hord b
            rw [hsplit] at hs
            rw [hi, update_self]
            exact hs.sublist (List.Sublist.append_left ((List.Sublist.refl l₂).cons h) l₁)
          · rw [update_of_ne hi]
            exact hb.sorted hord i
        refine hold.imp_of_mem fun ha hc hac => ?_
        rwa [hkey _ ((hmem i _).mp ha).1, hkey _ ((hmem i _).mp hc).1]

end Sweep

end VastNC
