import Mathlib.Data.List.Basic

/-! Runs of a machine whose steps always succeed: a condition on each step of a run, a
property of each state of it, and the rules that lead from one to the other. -/

namespace StepRun

variable {σ ε : Type*} (step : σ → ε → σ)

/-- The condition `P` holds of every step of the run. -/
def Along (P : σ → ε → Prop) (s : σ) : List ε → Prop
  | [] => True
  | e :: es => P s e ∧ Along P (step s e) es

def decidableAlong (P : σ → ε → Prop) [∀ s e, Decidable (P s e)] (s : σ) :
    (es : List ε) → Decidable (Along step P s es)
  | [] => .isTrue trivial
  | e :: es => @instDecidableAnd _ _ _ (decidableAlong P (step s e) es)

instance (P : σ → ε → Prop) [∀ s e, Decidable (P s e)] (s : σ) (es : List ε) : Decidable (Along step P s es) :=
  decidableAlong step P s es

/-- `Inv` holds in every state of the run. -/
def Always (Inv : σ → Prop) (s : σ) (es : List ε) : Prop :=
  ∀ pre, pre <+: es → Inv (pre.foldl step s)

variable {step} {Inv : σ → Prop} {P : σ → ε → Prop} {s : σ}

theorem always_nil : Always step Inv s [] ↔ Inv s := by
  simp [Always]

theorem always_cons {e : ε} {es : List ε} :
    Always step Inv s (e :: es) ↔ Inv s ∧ Always step Inv (step s e) es := by
  constructor
  · intro h
    refine ⟨h [] List.nil_prefix, fun pre hpre => ?_⟩
    exact h (e :: pre) (List.cons_prefix_cons.mpr ⟨rfl, hpre⟩)
  · rintro ⟨hs, h⟩ pre hpre
    cases pre with
    | nil => exact hs
    | cons x pre =>
      obtain ⟨rfl, htail⟩ := List.cons_prefix_cons.mp hpre
      exact h pre htail

theorem always_of_along (hstep : ∀ s e, Inv s → P s e → Inv (step s e)) {es : List ε} (hs : Inv s)
    (h : Along step P s es) : Always step Inv s es := by
  induction es generalizing s with
  | nil => exact always_nil.mpr hs
  | cons e es ih => exact always_cons.mpr ⟨hs, ih (hstep s e hs h.1) h.2⟩

/-- Where the condition is exact for one step, it is exact for a run. -/
theorem always_iff_along (hstep : ∀ s e, Inv s → (Inv (step s e) ↔ P s e)) {es : List ε} :
    Always step Inv s es ↔ Inv s ∧ Along step P s es := by
  induction es generalizing s with
  | nil => simp [always_nil, Along]
  | cons e es ih =>
    rw [always_cons, ih, Along]
    exact and_congr_right fun hs => and_congr_left fun _ => hstep s e hs

theorem always_of_step (hstep : ∀ s e, Inv s → Inv (step s e)) (es : List ε) (hs : Inv s) :
    Always step Inv s es := by
  induction es generalizing s with
  | nil => exact always_nil.mpr hs
  | cons e es ih => exact always_cons.mpr ⟨hs, ih (hstep s e hs)⟩

theorem Along.last {e : ε} {es : List ε} (h : Along step P s (es ++ [e])) : P (es.foldl step s) e := by
  induction es generalizing s with
  | nil => exact h.1
  | cons x es ih => exact ih h.2

theorem along_append {es fs : List ε} :
    Along step P s (es ++ fs) ↔ Along step P s es ∧ Along step P (es.foldl step s) fs := by
  induction es generalizing s with
  | nil => simp [Along]
  | cons e es ih => rw [List.cons_append, Along, Along, ih, and_assoc, List.foldl_cons]

/-- Where what goes wrong cannot be mended, the last state tells whether the condition held all along. -/
theorem last_iff_along {Good Bad : σ → Prop} {R : σ → ε → Prop}
    (hinv : ∀ s e, Inv s → R s e → Inv (step s e))
    (hgood : ∀ s e, Inv s → R s e → Good s → P s e → Good (step s e))
    (hbad : ∀ s e, Inv s → R s e → Good s → ¬ P s e → Bad (step s e))
    (hstay : ∀ s e, Inv s → R s e → Bad s → Bad (step s e))
    (hnot : ∀ s, Inv s → Bad s → ¬ Good s) {es : List ε} (hR : Along step R s es) (hs : Inv s)
    (hgs : Good s) : Good (es.foldl step s) ↔ Along step P s es := by
  have hlost : ∀ (es : List ε) (s : σ), Along step R s es → Inv s → Bad s → ¬ Good (es.foldl step s) := by
    intro es
    induction es with
    | nil => exact fun s _ hs hb => hnot s hs hb
    | cons e es ih => exact fun s hR hs hb => ih _ hR.2 (hinv s e hs hR.1) (hstay s e hs hR.1 hb)
  induction es generalizing s with
  | nil => simpa [Along] using hgs
  | cons e es ih =>
    rw [List.foldl_cons, Along]
    by_cases hp : P s e
    · have htail := ih hR.2 (hinv s e hs hR.1) (hgood s e hs hR.1 hgs hp)
      exact htail.trans (and_iff_right hp).symm
    · have hb := hlost es _ hR.2 (hinv s e hs hR.1) (hbad s e hs hR.1 hgs hp)
      simp [hp, hb]

/-- Two conditions that agree in every state of an invariant hold along the same runs. -/
theorem along_iff_along {Q : σ → ε → Prop} (hstep : ∀ s e, Inv s → Q s e → Inv (step s e))
    (hPQ : ∀ s e, Inv s → (P s e ↔ Q s e)) {es : List ε} (hs : Inv s) :
    Along step P s es ↔ Along step Q s es := by
  induction es generalizing s with
  | nil => exact .rfl
  | cons e es ih =>
    rw [Along, Along, hPQ s e hs]
    exact and_congr_right fun he => ih (hstep s e hs he)

theorem Along.imp {Q : σ → ε → Prop} {es : List ε} (h : Along step P s es)
    (hstep : ∀ s e, Inv s → P s e → Inv (step s e)) (hPQ : ∀ s e, Inv s → P s e → Q s e) (hs : Inv s) :
    Along step Q s es := by
  induction es generalizing s with
  | nil => trivial
  | cons e es ih => exact ⟨hPQ s e hs h.1, ih h.2 (hstep s e hs h.1)⟩

/-- Two conditions that agree where a third holds, which keeps the invariant, hold along the same of its runs. -/
theorem along_congr {Q R : σ → ε → Prop} (hstep : ∀ s e, Inv s → R s e → Inv (step s e))
    (hPQ : ∀ s e, Inv s → R s e → (P s e ↔ Q s e)) {es : List ε} (hR : Along step R s es) (hs : Inv s) :
    Along step P s es ↔ Along step Q s es := by
  induction es generalizing s with
  | nil => exact .rfl
  | cons e es ih => exact and_congr (hPQ s e hs hR.1) (ih hR.2 (hstep s e hs hR.1))

/-- What a run leaves of what its steps write: the last of it. -/
theorem view_foldl_last {β : Type*} (view : σ → Option β) {p : ε → Bool} {g : ε → β} (I : σ → Prop)
    (hinv : ∀ s e, I s → I (step s e))
    (hview : ∀ s e, I s → view (step s e) = if p e then some (g e) else view s) (es : List ε) (hs : I s) :
    view (es.foldl step s) = ((es.filter p).map g).getLast?.or (view s) := by
  induction es generalizing s with
  | nil => rfl
  | cons e es ih =>
    rw [List.foldl_cons, ih (hinv s e hs), hview s e hs]
    cases hp : p e with
    | false => rw [List.filter_cons_of_neg (by simp [hp]), if_neg Bool.false_ne_true]
    | true =>
      rw [List.filter_cons_of_pos hp, if_pos rfl, List.map_cons, List.getLast?_cons]
      cases ((es.filter p).map g).getLast? <;> rfl

end StepRun
