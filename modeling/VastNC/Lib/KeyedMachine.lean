import Mathlib

/-! A family of machines, one for each key, fed from one stream of events: what a machine
does depends on the events of its own key only. -/

namespace KeyedMachine

variable {κ σ α β γ : Type*} [DecidableEq κ] (step : σ → α → σ × List β)

def run (s : σ) : List α → σ × List β
  | [] => (s, [])
  | a :: as => ((run (step s a).1 as).1, (step s a).2 ++ (run (step s a).1 as).2)

def runKeyed (m : κ → σ) : List (κ × α) → (κ → σ) × List (κ × β)
  | [] => (m, [])
  | (k, a) :: es =>
    let rest := runKeyed (Function.update m k (step (m k) a).1) es
    (rest.1, (step (m k) a).2.map (fun b => (k, b)) ++ rest.2)

def ofKey (k : κ) (l : List (κ × γ)) : List γ := (l.filter (fun e => e.1 = k)).map Prod.snd

variable {step}

theorem run_append (s : σ) (as bs : List α) : run step s (as ++ bs) =
    ((run step (run step s as).1 bs).1, (run step s as).2 ++ (run step (run step s as).1 bs).2) := by
  induction as generalizing s with
  | nil => rfl
  | cons a as ih => simp only [List.cons_append, run, ih, List.append_assoc]

theorem ofKey_append (k : κ) (l l' : List (κ × γ)) : ofKey k (l ++ l') = ofKey k l ++ ofKey k l' := by
  simp [ofKey]

theorem ofKey_cons_self (k : κ) (c : γ) (l : List (κ × γ)) : ofKey k ((k, c) :: l) = c :: ofKey k l := by
  simp [ofKey]

theorem ofKey_cons_ne {k k' : κ} (h : k' ≠ k) (c : γ) (l : List (κ × γ)) :
    ofKey k ((k', c) :: l) = ofKey k l := by simp [ofKey, h]

theorem ofKey_map_self (k : κ) (l : List γ) : ofKey k (l.map (fun c => (k, c))) = l := by
  induction l with
  | nil => rfl
  | cons c l ih => rw [List.map_cons, ofKey_cons_self, ih]

theorem ofKey_map_ne {k k' : κ} (h : k' ≠ k) (l : List γ) :
    ofKey k (l.map (fun c => (k', c))) = [] := by
  induction l with
  | nil => rfl
  | cons c l ih => rw [List.map_cons, ofKey_cons_ne h, ih]

theorem mem_ofKey {k : κ} {c : γ} {l : List (κ × γ)} : c ∈ ofKey k l ↔ (k, c) ∈ l := by
  simp only [ofKey, List.mem_map, List.mem_filter, decide_eq_true_eq]
  constructor
  · rintro ⟨e, ⟨he, rfl⟩, rfl⟩
    exact he
  · intro h
    exact ⟨(k, c), ⟨h, rfl⟩, rfl⟩

/-- Projection of an interleaved run to one key. -/
theorem runKeyed_ofKey (m : κ → σ) (es : List (κ × α)) (k : κ) :
    (runKeyed step m es).1 k = (run step (m k) (ofKey k es)).1 ∧
      ofKey k (runKeyed step m es).2 = (run step (m k) (ofKey k es)).2 := by
  induction es generalizing m with
  | nil => exact ⟨rfl, rfl⟩
  | cons e es ih =>
    obtain ⟨k', a⟩ := e
    obtain ⟨hs, ho⟩ := ih (Function.update m k' (step (m k') a).1)
    by_cases hk : k' = k
    · subst hk
      rw [Function.update_self] at hs ho
      rw [runKeyed, ofKey_cons_self, run, ofKey_append, ofKey_map_self, ← ho]
      exact ⟨hs, rfl⟩
    · rw [Function.update_of_ne (Ne.symm hk)] at hs ho
      rw [runKeyed, ofKey_cons_ne hk, ofKey_append, ofKey_map_ne hk, List.nil_append]
      exact ⟨hs, ho⟩

end KeyedMachine
