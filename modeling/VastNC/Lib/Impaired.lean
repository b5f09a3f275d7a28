import Mathlib

/-! A list beside the one it should be: a part of it is lost, or nothing is lost and it is out of order. -/

/-- Less weight in all, or the same in as many elements, and then a smaller list of keys. -/
def Impaired {α κ : Type*} [LinearOrder κ] (weight : α → Nat) (key : α → κ) (a b : List α) : Prop :=
  (a.map weight).sum < (b.map weight).sum ∨
    (a.map weight).sum = (b.map weight).sum ∧ a.length = b.length ∧ a.map key < b.map key

namespace Impaired

variable {α κ : Type*} [LinearOrder κ] {weight : α → Nat} {key : α → κ} {a b c : List α}

theorem irrefl (a : List α) : ¬ Impaired weight key a a := by
  rintro (h | ⟨-, -, h⟩)
  · exact Nat.lt_irrefl _ h
  · exact lt_irrefl _ h

theorem trans (hab : Impaired weight key a b) (hbc : Impaired weight key b c) : Impaired weight key a c := by
  rcases hab with hab | ⟨hw, hl, hk⟩
  · rcases hbc with hbc | ⟨hw', -, -⟩
    · exact .inl (hab.trans hbc)
    · exact .inl (hab.trans_eq hw')
  · rcases hbc with hbc | ⟨hw', hl', hk'⟩
    · exact .inl (hw.trans_lt hbc)
    · exact .inr ⟨hw.trans hw', hl.trans hl', hk.trans hk'⟩

theorem append_left (c : List α) (h : Impaired weight key a b) : Impaired weight key (c ++ a) (c ++ b) := by
  rcases h with h | ⟨hw, hl, hk⟩
  · refine .inl ?_
    simpa using h
  · refine .inr ⟨by simp [hw], by simp [hl], ?_⟩
    rw [List.map_append, List.map_append]
    exact List.append_left_lt hk

theorem lt_append_right {l k : List κ} (hlen : l.length = k.length) (h : l < k) (t : List κ) : l ++ t < k ++ t := by
  induction l generalizing k with
  | nil => exact absurd h (by simp [List.length_eq_zero_iff.mp hlen.symm])
  | cons x l ih =>
    cases k with
    | nil => exact absurd hlen (by simp)
    | cons y k =>
      rw [List.cons_append, List.cons_append, List.cons_lt_cons_iff]
      rcases List.cons_lt_cons_iff.mp h with hxy | ⟨hxy, h⟩
      · exact .inl hxy
      · exact .inr ⟨hxy, ih (by simpa using hlen) h⟩

theorem append_right (h : Impaired weight key a b) (c : List α) : Impaired weight key (a ++ c) (b ++ c) := by
  rcases h with h | ⟨hw, hl, hk⟩
  · refine .inl ?_
    simpa using h
  · refine .inr ⟨by simp [hw], by simp [hl], ?_⟩
    rw [List.map_append, List.map_append]
    exact lt_append_right (by simp [hl]) hk _

theorem of_perm (h : a.Perm b) (hk : a.map key < b.map key) : Impaired weight key a b :=
  .inr ⟨(h.map weight).sum_eq, h.length_eq, hk⟩

end Impaired
