import Mathlib.Data.List.Basic

/-! Logs in which an entry counts only as long as no later one cancels it. -/

namespace EventLog

variable {ε : Type*} {cancels P : ε → Prop} {log l : List ε}

/-- An entry with `P` has been made since the last one that cancels. -/
def Since (cancels P : ε → Prop) (log : List ε) : Prop :=
  ∃ pre e post, log = pre ++ e :: post ∧ P e ∧ ∀ x ∈ post, ¬ cancels x

theorem Since.mem (h : Since cancels P log) : ∃ e ∈ log, P e := by
  obtain ⟨pre, e, post, rfl, he, -⟩ := h
  exact ⟨e, by simp, he⟩

theorem Since.append (h : Since cancels P log) (hl : ∀ x ∈ l, ¬ cancels x) : Since cancels P (log ++ l) := by
  obtain ⟨pre, e, post, rfl, he, hpost⟩ := h
  refine ⟨pre, e, post ++ l, by simp, he, fun x hx => ?_⟩
  rcases List.mem_append.mp hx with hx | hx
  · exact hpost x hx
  · exact hl x hx

theorem since_append {e : ε} (he : e ∈ l) (hP : P e) (hl : ∀ x ∈ l, ¬ cancels x) : Since cancels P (log ++ l) := by
  obtain ⟨pre, post, rfl⟩ := List.append_of_mem he
  exact ⟨log ++ pre, e, post, by simp, hP, fun x hx => hl x (by simp [hx])⟩

theorem since_concat {e : ε} : Since cancels P (log ++ [e]) ↔ P e ∨ Since cancels P log ∧ ¬ cancels e := by
  constructor
  · rintro ⟨pre, x, post, heq, hx, hpost⟩
    rcases List.eq_nil_or_concat post with rfl | ⟨post, y, rfl⟩
    · exact .inl (List.singleton_injective (List.append_inj_right' heq rfl) ▸ hx)
    · have heq : log ++ [e] = (pre ++ x :: post) ++ [y] := by
        rw [heq, List.concat_eq_append, List.append_assoc, List.cons_append]
      obtain ⟨rfl, hlast⟩ := List.append_inj' heq rfl
      rw [List.singleton_injective hlast]
      exact .inr ⟨⟨pre, x, post, rfl, hx, fun z hz => hpost z (by simp [hz])⟩, hpost y (by simp)⟩
  · rintro (he | ⟨h, he⟩)
    · exact ⟨log, e, [], rfl, he, fun _ hx => absurd hx List.not_mem_nil⟩
    · exact h.append fun x hx => List.mem_singleton.mp hx ▸ he

end EventLog
