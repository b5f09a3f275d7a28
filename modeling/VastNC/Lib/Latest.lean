import Mathlib

/-! The latest among the items with the greatest key: taking items one by one and keeping the newer of
two, and why batches of them may be reduced first. -/

namespace Latest

variable {α τ : Type*} [LinearOrder τ] (key : α → τ)

/-- `b` is taken unless it is older. -/
def newer (a b : α) : α := if key b < key a then a else b

variable {key} {a b c x : α} {l : List α}

theorem newer_assoc : newer key (newer key a b) c = newer key a (newer key b c) := by
  simp only [newer]
  by_cases hba : key b < key a
  · by_cases hcb : key c < key b
    · simp [hba, hcb, hcb.trans hba]
    · by_cases hca : key c < key a <;> simp [hba, hcb, hca]
  · by_cases hcb : key c < key b
    · simp [hba, hcb]
    · have hca : ¬ key c < key a := fun h => hcb (lt_of_lt_of_le h (not_lt.mp hba))
      simp [hba, hcb, hca]

theorem foldl_newer_assoc (a b : α) (l : List α) :
    newer key a (l.foldl (newer key) b) = (b :: l).foldl (newer key) a := by
  induction l generalizing b with
  | nil => rfl
  | cons c l ih =>
    rw [List.foldl_cons, ih, List.foldl_cons, List.foldl_cons, ← newer_assoc]
    rfl

variable (key) in
/-- `x` comes with the greatest key, and nothing after it has that key too. -/
def IsLatest (l : List α) (x : α) : Prop :=
  ∃ pre post, l = pre ++ x :: post ∧ (∀ y ∈ pre, key y ≤ key x) ∧ ∀ y ∈ post, key y < key x

theorem IsLatest.key_le (h : IsLatest key l x) : ∀ y ∈ l, key y ≤ key x := by
  obtain ⟨pre, post, rfl, hpre, hpost⟩ := h
  intro y hy
  rcases List.mem_append.mp hy with hy | hy
  · exact hpre y hy
  · rcases List.mem_cons.mp hy with rfl | hy
    · exact le_refl _
    · exact (hpost y hy).le

theorem IsLatest.concat (h : IsLatest key l x) (b : α) : IsLatest key (l ++ [b]) (newer key x b) := by
  rw [newer]
  by_cases hb : key b < key x
  · obtain ⟨pre, post, rfl, hpre, hpost⟩ := h
    rw [if_pos hb]
    refine ⟨pre, post ++ [b], by simp, hpre, fun y hy => ?_⟩
    rcases List.mem_append.mp hy with hy | hy
    · exact hpost y hy
    · exact List.mem_singleton.mp hy ▸ hb
  · rw [if_neg hb]
    exact ⟨l, [], rfl, fun y hy => (h.key_le y hy).trans (not_lt.mp hb), by simp⟩

theorem isLatest_foldl (a : α) (l : List α) : IsLatest key (a :: l) (l.foldl (newer key) a) := by
  induction l using List.reverseRecOn with
  | nil => exact ⟨[], [], rfl, by simp, by simp⟩
  | append_singleton l b ih =>
    rw [List.foldl_append, ← List.cons_append]
    exact ih.concat b

variable (key) in
/-- The latest of a batch, if there is one. -/
def ofBatch : List α → Option α
  | [] => none
  | a :: l => some (l.foldl (newer key) a)

/-- A batch may be reduced before more is added to it. -/
theorem ofBatch_append (l l' : List α) : ofBatch key ((ofBatch key l).toList ++ l') = ofBatch key (l ++ l') := by
  cases l with
  | nil => rfl
  | cons a l => simp [ofBatch]

/-- Taking the latest of a batch comes to taking all of it. -/
theorem foldl_ofBatch (a : α) (l : List α) : (ofBatch key l).toList.foldl (newer key) a = l.foldl (newer key) a := by
  cases l with
  | nil => rfl
  | cons b l => exact foldl_newer_assoc a b l

end Latest
