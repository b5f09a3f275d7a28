import Mathlib

/-! A queue sorted by a key, where an element goes behind those of its own key: elements of
one key leave in the order in which they came. -/

structure StableQueue {κ : Type*} [LinearOrder κ] {α : Type*} (key : α → κ) where
  items : List α := []
  sorted : items.Pairwise (fun a b => key a ≤ key b) := by simp

namespace StableQueue

variable {κ α : Type*} [LinearOrder κ] {key : α → κ}

theorem pairwise_orderedInsert (x : α) {l : List α} (h : l.Pairwise (fun a b => key a ≤ key b)) :
    (l.orderedInsert (fun a b => key a < key b) x).Pairwise (fun a b => key a ≤ key b) := by
  induction l with
  | nil => simp
  | cons y l ih =>
    obtain ⟨hy, hl⟩ := List.pairwise_cons.mp h
    rw [List.orderedInsert]
    split
    · rename_i hlt
      refine List.pairwise_cons.mpr ⟨fun z hz => ?_, h⟩
      rcases List.mem_cons.mp hz with rfl | hz
      · exact hlt.le
      · exact hlt.le.trans (hy z hz)
    · rename_i hle
      refine List.pairwise_cons.mpr ⟨fun z hz => ?_, ih hl⟩
      rcases (List.mem_orderedInsert _).mp hz with rfl | hz
      · exact not_lt.mp hle
      · exact hy z hz

def insert (q : StableQueue key) (x : α) : StableQueue key :=
  ⟨q.items.orderedInsert (fun a b => key a < key b) x, pairwise_orderedInsert x q.sorted⟩

def pop (q : StableQueue key) : Option (α × StableQueue key) :=
  match q with
  | ⟨[], _⟩ => none
  | ⟨x :: l, h⟩ => some (x, ⟨l, (List.pairwise_cons.mp h).2⟩)

theorem items_of_pop {q rest : StableQueue key} {x : α} (h : q.pop = some (x, rest)) : q.items = x :: rest.items := by
  cases q with
  | mk items sorted =>
    cases items with
    | nil => cases h
    | cons y l =>
      obtain ⟨rfl, rfl⟩ := Prod.mk.inj (Option.some.inj h)
      rfl

theorem items_of_pop_none {q : StableQueue key} (h : q.pop = none) : q.items = [] := by
  cases q with
  | mk items sorted =>
    cases items with
    | nil => rfl
    | cons y l => cases h

def ofKey (q : StableQueue key) (k : κ) : List α := q.items.filter (fun a => key a = k)

section Filter

variable {P : α → Bool}

/-- An element goes behind those of its kind when none of them has a greater key. -/
theorem filter_orderedInsert {x : α} {l : List α} (h : l.Pairwise (fun a b => key a ≤ key b))
    (hx : P x → ∀ a ∈ l, P a → key a ≤ key x) :
    (l.orderedInsert (fun a b => key a < key b) x).filter P = l.filter P ++ [x].filter P := by
  induction l with
  | nil => rfl
  | cons y l ih =>
    obtain ⟨hy, hl⟩ := List.pairwise_cons.mp h
    rw [List.orderedInsert]
    split
    · rename_i hlt
      by_cases hp : P x
      · -- behind a greater key there is nothing of its kind
        have hnone : (y :: l).filter P = [] := by
          refine List.filter_eq_nil_iff.mpr (fun z hz hpz => ?_)
          have hz' : key y ≤ key z := by
            rcases List.mem_cons.mp hz with rfl | hz
            · exact le_rfl
            · exact hy z hz
          exact absurd (hx hp z hz hpz) (not_le.mpr (hlt.trans_le hz'))
        rw [List.filter_cons_of_pos hp, hnone]
        simp [hp]
      · simp [hp]
    · rw [List.filter_cons, List.filter_cons,
        ih hl (fun hp a ha => hx hp a (List.mem_cons_of_mem _ ha))]
      split <;> simp

/-- Behind a greater key of its kind an element makes the list of the keys smaller. -/
theorem keys_orderedInsert_lt {x : α} {l : List α} (h : l.Pairwise (fun a b => key a ≤ key b)) (hp : P x)
    (hx : ∃ a ∈ l, P a ∧ key x < key a) (t : List κ) :
    ((l.orderedInsert (fun a b => key a < key b) x).filter P).map key ++ t <
      (l.filter P).map key ++ key x :: t := by
  induction l with
  | nil => exact absurd hx (by simp)
  | cons y l ih =>
    obtain ⟨hy, hl⟩ := List.pairwise_cons.mp h
    rw [List.orderedInsert]
    split
    · rename_i hlt
      -- everything of the kind has a greater key, so the first of it is passed
      obtain ⟨a, ha, hpa, hka⟩ := hx
      obtain ⟨b, rest, hb⟩ := List.exists_cons_of_ne_nil (List.ne_nil_of_mem (List.mem_filter.mpr ⟨ha, hpa⟩))
      have hmem : b ∈ y :: l := (List.mem_filter.mp (hb ▸ List.mem_cons_self)).1
      have hkb : key x < key b := by
        rcases List.mem_cons.mp hmem with rfl | hmem
        · exact hlt
        · exact hlt.trans_le (hy b hmem)
      rw [List.filter_cons_of_pos hp, hb]
      exact List.cons_lt_cons_iff.mpr (.inl hkb)
    · rename_i hle
      have hrest : ∃ a ∈ l, P a ∧ key x < key a := by
        obtain ⟨a, ha, hpa, hka⟩ := hx
        rcases List.mem_cons.mp ha with rfl | ha
        · exact absurd hka hle
        · exact ⟨a, ha, hpa, hka⟩
      rw [List.filter_cons, List.filter_cons]
      split
      · exact List.cons_lt_cons_iff.mpr (.inr ⟨rfl, ih hl hrest⟩)
      · exact ih hl hrest

/-- Elements that go in one by one keep their order when the keys come in order, and else the keys get smaller. -/
theorem filter_foldl_insert_cases {q : StableQueue key} {xs : List α} (hxs : ∀ a ∈ xs, P a) :
    ((q.items.filter P ++ xs).Pairwise (fun a b => key a ≤ key b) →
      (xs.foldl insert q).items.filter P = q.items.filter P ++ xs) ∧
    (¬ (q.items.filter P ++ xs).Pairwise (fun a b => key a ≤ key b) →
      ((xs.foldl insert q).items.filter P).map key < (q.items.filter P ++ xs).map key) := by
  induction xs generalizing q with
  | nil =>
    refine ⟨fun _ => by simp, fun hn => absurd ?_ hn⟩
    rw [List.append_nil]
    exact q.sorted.filter _
  | cons x xs ih =>
    have hp : P x := hxs x List.mem_cons_self
    obtain ⟨heq, hlt⟩ := @ih (q.insert x) (fun a ha => hxs a (List.mem_cons_of_mem _ ha))
    rw [List.foldl_cons]
    by_cases hx : ∃ a ∈ q.items, P a ∧ key x < key a
    · obtain ⟨a, ha, hpa, hka⟩ := hx
      have hstep := keys_orderedInsert_lt q.sorted hp ⟨a, ha, hpa, hka⟩ (xs.map key)
      have hle : ((xs.foldl insert (q.insert x)).items.filter P).map key ≤
          ((q.insert x).items.filter P ++ xs).map key := by
        by_cases hs : ((q.insert x).items.filter P ++ xs).Pairwise (fun a b => key a ≤ key b)
        · rw [heq hs]
        · exact (hlt hs).le
      refine ⟨fun hs => ?_, fun _ => ?_⟩
      · have hax := (List.pairwise_append.mp hs).2.2 a (List.mem_filter.mpr ⟨ha, hpa⟩) x List.mem_cons_self
        exact absurd hka (not_lt.mpr hax)
      · rw [List.map_append] at hle ⊢
        exact hle.trans_lt hstep
    · have hinsert : (q.insert x).items.filter P = q.items.filter P ++ [x] := by
        have hf := filter_orderedInsert q.sorted
          (fun _ a ha hpa => not_lt.mp (fun hka => hx ⟨a, ha, hpa, hka⟩) : P x → ∀ a ∈ q.items, P a → key a ≤ key x)
        rwa [List.filter_cons_of_pos hp, List.filter_nil] at hf
      rw [hinsert, List.append_assoc, List.singleton_append] at heq hlt
      exact ⟨heq, hlt⟩

theorem perm_foldl_insert (q : StableQueue key) (xs : List α) :
    (xs.foldl insert q).items.Perm (q.items ++ xs) := by
  induction xs generalizing q with
  | nil => simp
  | cons x xs ih =>
    have hx : (q.insert x).items.Perm (x :: q.items) := List.perm_orderedInsert _ _ _
    exact (ih _).trans ((hx.append_right xs).trans List.perm_middle.symm)

theorem filter_foldl_insert {q : StableQueue key} {xs : List α} {k : κ}
    (hq : ∀ a ∈ q.items, P a → key a = k) (hxs : ∀ a ∈ xs, P a → key a = k) :
    (xs.foldl insert q).items.filter P = q.items.filter P ++ xs.filter P := by
  induction xs generalizing q with
  | nil => simp
  | cons x xs ih =>
    have hx := hxs x List.mem_cons_self
    have hi : (q.insert x).items.filter P = q.items.filter P ++ [x].filter P :=
      filter_orderedInsert q.sorted (fun hp a ha hpa => ((hq a ha hpa).trans (hx hp).symm).le)
    have hmem : ∀ a ∈ (q.insert x).items, P a → key a = k := by
      intro a ha
      rcases (List.mem_orderedInsert _).mp ha with rfl | ha
      · exact hx
      · exact hq a ha
    rw [List.foldl_cons, ih hmem (fun a ha => hxs a (List.mem_cons_of_mem _ ha)), hi,
      List.append_assoc, ← List.filter_append]
    rfl

end Filter

theorem ofKey_foldl_insert (q : StableQueue key) (xs : List α) (k : κ) :
    (xs.foldl insert q).ofKey k = q.ofKey k ++ xs.filter (fun a => key a = k) :=
  filter_foldl_insert (fun _ _ h => of_decide_eq_true h) (fun _ _ h => of_decide_eq_true h)

end StableQueue
