import Mathlib

/-! Runs of a machine whose steps may fail: composition of runs, and the rules that
carry an invariant and a condition on each step along a run. -/

namespace FallibleRun

/-- The computation returns a value that passes the test. -/
def returns {φ α : Type*} (x : Except φ α) (test : α → Bool) : Bool :=
  match x with
  | .ok a => test a
  | .error _ => false

theorem returns_iff {φ α : Type*} {x : Except φ α} {test : α → Bool} :
    returns x test = true ↔ ∃ a, x = .ok a ∧ test a = true := by
  cases x with
  | ok a => simp [returns]
  | error f => simp [returns]

def fault {φ α : Type*} : Except φ α → Option φ
  | .ok _ => none
  | .error f => some f

theorem fault_eq_some {φ α : Type*} {x : Except φ α} {f : φ} (h : fault x = some f) :
    x = .error f := by
  cases x with
  | ok a => cases h
  | error g => rw [Option.some.inj h]

variable {σ ε φ : Type*} (step : σ → ε → Except φ σ)

def run (s : σ) : List ε → Except φ σ
  | [] => .ok s
  | e :: es =>
    match step s e with
    | .ok s' => run s' es
    | .error f => .error f

/-- The condition `P` holds of every step that the run takes. -/
def Along (P : σ → ε → Prop) (s : σ) : List ε → Prop
  | [] => True
  | e :: es => P s e ∧ ∀ s', step s e = .ok s' → Along P s' es

variable {step}

theorem run_cons {s s' : σ} {e : ε} {es : List ε} (h : step s e = .ok s') :
    run step s (e :: es) = run step s' es := by
  simp only [run, h]

theorem run_concat_ok {s u : σ} {es : List ε} {e : ε} :
    run step s (es ++ [e]) = .ok u ↔ ∃ t, run step s es = .ok t ∧ step t e = .ok u := by
  induction es generalizing s with
  | nil => cases he : step s e <;> simp [run, he]
  | cons x es ih =>
    cases hx : step s x with
    | ok t =>
      rw [List.cons_append, run_cons hx, run_cons hx]
      exact ih
    | error f => simp [run, hx]

theorem Along.cons {P : σ → ε → Prop} {s s' : σ} {e : ε} {es : List ε} (hstep : step s e = .ok s')
    (hp : P s e) (hes : Along step P s' es) : Along step P s (e :: es) := by
  refine ⟨hp, fun t ht => ?_⟩
  rw [hstep, Except.ok.injEq] at ht
  rwa [← ht]

theorem run_total (Inv : σ → Prop) (P : ε → Prop)
    (hstep : ∀ s e, Inv s → P e → ∃ s', step s e = .ok s' ∧ Inv s') {s : σ} {es : List ε}
    (hs : Inv s) (hes : ∀ e ∈ es, P e) : ∃ s', run step s es = .ok s' ∧ Inv s' := by
  induction es generalizing s with
  | nil => exact ⟨s, rfl, hs⟩
  | cons e es ih =>
    obtain ⟨t, ht, hi⟩ := hstep s e hs (hes e List.mem_cons_self)
    rw [run_cons ht]
    exact ih hi (fun x hx => hes x (List.mem_cons_of_mem _ hx))

theorem run_along (Inv : σ → Prop) {P : σ → ε → Prop}
    (hstep : ∀ s e s', Inv s → P s e → step s e = .ok s' → Inv s') {s s' : σ} {es : List ε}
    (hs : Inv s) (hes : Along step P s es) (hrun : run step s es = .ok s') : Inv s' := by
  induction es generalizing s with
  | nil =>
    obtain rfl : s = s' := by simpa [run] using hrun
    exact hs
  | cons e es ih =>
    cases he : step s e with
    | ok t =>
      rw [run_cons he] at hrun
      exact ih (hstep s e t hs hes.1 he) (hes.2 t he) hrun
    | error f => simp [run, he] at hrun

theorem Along.of_forall {P : σ → ε → Prop} {s : σ} {es : List ε} (h : ∀ s, ∀ e ∈ es, P s e) :
    Along step P s es := by
  induction es generalizing s with
  | nil => trivial
  | cons e es ih =>
    exact ⟨h s e List.mem_cons_self, fun _ _ => ih (fun t x hx => h t x (List.mem_cons_of_mem _ hx))⟩

theorem run_preserves (Inv : σ → Prop) (hstep : ∀ s e s', Inv s → step s e = .ok s' → Inv s')
    {s s' : σ} {es : List ε} (hs : Inv s) (hrun : run step s es = .ok s') : Inv s' :=
  run_along (P := fun _ _ => True) Inv (fun s e s' hi _ he => hstep s e s' hi he) hs
    (Along.of_forall (fun _ _ _ => trivial)) hrun

theorem run_error_iff {s : σ} {es : List ε} {f : φ} :
    run step s es = .error f ↔ ∃ pre e post t, es = pre ++ e :: post ∧ run step s pre = .ok t ∧
      step t e = .error f := by
  constructor
  · intro h
    induction es generalizing s with
    | nil => simp [run] at h
    | cons x es ih =>
      cases hx : step s x with
      | ok t =>
        rw [run_cons hx] at h
        obtain ⟨pre, e, post, u, rfl, hpre, he⟩ := ih h
        exact ⟨x :: pre, e, post, u, rfl, by rw [run_cons hx, hpre], he⟩
      | error g =>
        obtain rfl : g = f := by simpa [run, hx] using h
        exact ⟨[], x, es, s, rfl, rfl, hx⟩
  · rintro ⟨pre, e, post, t, rfl, hpre, he⟩
    induction pre generalizing s with
    | nil =>
      obtain rfl : s = t := by simpa [run] using hpre
      simp [run, he]
    | cons x pre ih =>
      cases hx : step s x with
      | ok u =>
        rw [run_cons hx] at hpre
        rw [List.cons_append, run_cons hx]
        exact ih hpre
      | error g => simp [run, hx] at hpre

end FallibleRun
