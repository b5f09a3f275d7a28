import Mathlib.Data.List.Nodup
import Mathlib.Data.List.Perm.Subperm
import Mathlib.Data.Fintype.Pigeonhole

/-! Walks of a partial step function: the states that are passed, and why a walk that goes down
in a transitive relation passes each state once and ends. -/

namespace Walk

variable {α : Type*} (next : α → Option α)

/-- The states of the first `n` steps, fewer where the walk ends. -/
def trace : Nat → α → List α
  | 0, x => [x]
  | n + 1, x =>
    match next x with
    | none => [x]
    | some y => x :: trace n y

variable {next} {r : α → α → Prop} {S : α → Prop} {x y : α} {n : Nat}

theorem trace_succ_some (h : next x = some y) : trace next (n + 1) x = x :: trace next n y := by
  simp only [trace, h]

theorem trace_none (h : next x = none) : trace next n x = [x] := by
  cases n with
  | zero => rfl
  | succ n => simp only [trace, h]

theorem forall_mem_trace (hS : ∀ x y, S x → next x = some y → S y) (hx : S x) : ∀ z ∈ trace next n x, S z := by
  induction n generalizing x with
  | zero => exact List.forall_mem_singleton.mpr hx
  | succ n ih =>
    cases h : next x with
    | none =>
      rw [trace_none h]
      exact List.forall_mem_singleton.mpr hx
    | some y =>
      rw [trace_succ_some h]
      exact List.forall_mem_cons.mpr ⟨hx, ih (hS x y hx h)⟩

theorem pairwise_trace (htrans : ∀ a b c, r a b → r b c → r a c)
    (hS : ∀ x y, S x → next x = some y → S y ∧ r x y) (hx : S x) : (trace next n x).Pairwise r := by
  induction n generalizing x with
  | zero => exact List.pairwise_singleton r x
  | succ n ih =>
    cases h : next x with
    | none =>
      rw [trace_none h]
      exact List.pairwise_singleton r x
    | some y =>
      obtain ⟨hy, hxy⟩ := hS x y hx h
      have hpair := ih hy
      have hfirst : ∀ z ∈ trace next n y, z = y ∨ r y z := by
        cases n with
        | zero => exact List.forall_mem_singleton.mpr (.inl rfl)
        | succ n =>
          cases hz : next y with
          | none =>
            rw [trace_none hz]
            exact List.forall_mem_singleton.mpr (.inl rfl)
          | some z =>
            rw [trace_succ_some hz] at hpair ⊢
            rw [List.pairwise_cons] at hpair
            exact List.forall_mem_cons.mpr ⟨.inl rfl, fun w hw => .inr (hpair.1 w hw)⟩
      rw [trace_succ_some h, List.pairwise_cons]
      refine ⟨fun z hz => ?_, hpair⟩
      rcases hfirst z hz with rfl | hyz
      · exact hxy
      · exact htrans x y z hxy hyz

theorem length_trace (h : ∀ z ∈ trace next n x, next z ≠ none) : (trace next n x).length = n + 1 := by
  induction n generalizing x with
  | zero => rfl
  | succ n ih =>
    cases hy : next x with
    | none =>
      rw [trace_none hy] at h
      exact absurd hy (h x (List.mem_singleton_self x))
    | some y =>
      rw [trace_succ_some hy] at h ⊢
      rw [List.length_cons, ih fun z hz => h z (List.mem_cons_of_mem x hz)]

/-- In a finite set of states a walk that never repeats one ends. -/
theorem exists_end {l : List α} (hl : ∀ x y, x ∈ l → next x = some y → y ∈ l)
    (hnd : ∀ n, (trace next n x).Nodup) (hx : x ∈ l) : ∃ n, ∃ y ∈ trace next n x, next y = none := by
  by_contra hend
  push Not at hend
  have hlen := length_trace (hend l.length)
  have hle := ((hnd l.length).subperm (forall_mem_trace (S := (· ∈ l)) hl hx)).length_le
  omega

/-- A total step function on at most `N` states comes to nothing new after `N` steps. -/
theorem exists_iterate_lt {N : Nat} {g : α → Fin N} (hg : Function.Injective g) (f : α → α) (x : α) (n : Nat) :
    ∃ m, m < N ∧ f^[m] x = f^[n] x := by
  induction n using Nat.strong_induction_on with
  | _ n ih =>
    by_cases hn : n < N
    · exact ⟨n, hn, rfl⟩
    · obtain ⟨i, j, hij, he⟩ := Fintype.exists_ne_map_eq_of_card_lt (fun i : Fin (N + 1) => g (f^[i] x)) (by simp)
      wlog hlt : i < j generalizing i j
      · exact this j i hij.symm he.symm (lt_of_le_of_ne (not_lt.mp hlt) hij.symm)
      have hshort : f^[n - j + i] x = f^[n] x := by
        rw [Function.iterate_add_apply, hg he, ← Function.iterate_add_apply, Nat.sub_add_cancel (by omega)]
      obtain ⟨m, hm, heq⟩ := ih (n - j + i) (by omega)
      exact ⟨m, hm, heq.trans hshort⟩

end Walk
