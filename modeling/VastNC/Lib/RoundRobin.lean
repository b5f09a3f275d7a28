import Mathlib

/-! A queue of non-empty batches of which one element is served at a time, and what is left of
the batch goes to the back. A batch is its first element and the others. -/

namespace RoundRobin

variable {α β : Type*}

def elements (q : List (α × List α)) : List α := q.flatMap (fun b => b.1 :: b.2)

def served : List (α × List α) → List α
  | [] => []
  | (x, []) :: q => x :: served q
  | (x, y :: ys) :: q => x :: served (q ++ [(y, ys)])
termination_by q => (elements q).length
decreasing_by all_goals simp [elements]; try omega

theorem served_nil : served ([] : List (α × List α)) = [] := by rw [served]

theorem served_single (x : α) (q : List (α × List α)) : served ((x, []) :: q) = x :: served q := by
  rw [served]

theorem served_more (x y : α) (ys : List α) (q : List (α × List α)) :
    served ((x, y :: ys) :: q) = x :: served (q ++ [(y, ys)]) := by rw [served]

theorem elements_cons (x : α) (xs : List α) (q : List (α × List α)) :
    elements ((x, xs) :: q) = x :: (xs ++ elements q) := by simp [elements]

theorem elements_append (q q' : List (α × List α)) : elements (q ++ q') = elements q ++ elements q' :=
  List.flatMap_append

/-- Nothing is lost and nothing is served twice. -/
theorem served_perm (q : List (α × List α)) : (served q).Perm (elements q) := by
  induction q using served.induct with
  | case1 =>
    rw [served_nil]
    exact .refl _
  | case2 x q ih =>
    rw [served_single, elements_cons, List.nil_append]
    exact ih.cons x
  | case3 x y ys q ih =>
    rw [served_more, elements_cons]
    refine .cons x (ih.trans ?_)
    rw [elements_append]
    exact List.perm_append_comm.trans (.of_eq (by simp [elements]))

theorem served_map (f : α → β) (q : List (α × List α)) :
    served (q.map (Prod.map f (List.map f))) = (served q).map f := by
  induction q using served.induct with
  | case1 => rw [List.map_nil, served_nil, served_nil, List.map_nil]
  | case2 x q ih =>
    rw [served_single, List.map_cons, List.map_cons, ← ih]
    exact served_single _ _
  | case3 x y ys q ih =>
    rw [served_more, List.map_cons, List.map_cons, ← ih, List.map_append]
    exact served_more _ _ _ _

theorem elements_map (f : α → β) (q : List (α × List α)) :
    elements (q.map (Prod.map f (List.map f))) = (elements q).map f := by
  simp [elements, List.flatMap_map, List.map_flatMap, Prod.map]

theorem served_one (x : α) (xs : List α) : served [(x, xs)] = x :: xs := by
  induction xs generalizing x with
  | nil => rw [served_single, served_nil]
  | cons y ys ih =>
    rw [served_more, List.nil_append, ih]

theorem served_eq_elements {q : List (α × List α)} (h : ∀ b ∈ q.dropLast, b.2 = []) :
    served q = elements q := by
  induction q with
  | nil =>
    rw [served_nil]
    rfl
  | cons b q ih =>
    obtain ⟨x, xs⟩ := b
    cases q with
    | nil => simp [served_one, elements]
    | cons c q =>
      rw [List.dropLast_cons_cons] at h
      obtain rfl : xs = [] := h (x, xs) List.mem_cons_self
      rw [served_single, elements_cons, ih (fun b hb => h b (List.mem_cons_of_mem _ hb)),
        List.nil_append]

theorem dropLast_of_served_eq {q : List (α × List α)} (hn : (elements q).Nodup)
    (h : served q = elements q) : ∀ b ∈ q.dropLast, b.2 = [] := by
  induction q with
  | nil => simp
  | cons b q ih =>
    obtain ⟨x, xs⟩ := b
    cases q with
    | nil => simp
    | cons c q =>
      cases xs with
      | nil =>
        rw [elements_cons, List.nil_append] at hn h
        rw [served_single] at h
        rw [List.dropLast_cons_cons, List.forall_mem_cons]
        exact ⟨rfl, ih (List.nodup_cons.mp hn).2 (List.cons.inj h).2⟩
      | cons y ys =>
        -- the head of the next batch is served before the second element of this one
        obtain ⟨z, zs⟩ := c
        have hz : ∃ tail, served ((z, zs) :: (q ++ [(y, ys)])) = z :: tail := by
          cases zs with
          | nil => exact ⟨_, served_single _ _⟩
          | cons w ws => exact ⟨_, served_more _ _ _ _⟩
        obtain ⟨tail, htail⟩ := hz
        rw [served_more, List.cons_append, htail, elements_cons, elements_cons] at h
        obtain rfl : z = y := (List.cons.inj (List.cons.inj h).2).1
        rw [elements_cons, elements_cons] at hn
        simp at hn

end RoundRobin
