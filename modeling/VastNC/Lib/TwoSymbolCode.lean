import Mathlib

/-! Random linear coding of two symbols over a field: equations, full rank, and
a solver that recovers both symbols as soon as two equations are independent. -/

namespace TwoSymbolCode

variable {F : Type*} [Field F]

def combine (a b : F) (x y : List F) : List F :=
  List.zipWith (fun u v => a * u + b * v) x y

structure Equation (F : Type*) where
  c0 : F
  c1 : F
  rhs : List F

def Equation.Holds (e : Equation F) (x y : List F) : Prop := combine e.c0 e.c1 x y = e.rhs

def unitEquation (k : Nat) (x : List F) : Equation F :=
  if k = 0 then ⟨1, 0, x⟩ else ⟨0, 1, x⟩

/-- The homogeneous system has only the zero solution. -/
def FullRank (es : List (Equation F)) : Prop :=
  ∀ u v : F, (∀ e ∈ es, e.c0 * u + e.c1 * v = 0) → u = 0 ∧ v = 0

@[simp] theorem length_combine (a b : F) (x y : List F) :
    (combine a b x y).length = min x.length y.length := List.length_zipWith

theorem combine_combine (p q a b c d : F) (x y : List F) :
    combine p q (combine a b x y) (combine c d x y) =
      combine (p * a + q * c) (p * b + q * d) x y := by
  induction x generalizing y with
  | nil => rfl
  | cons u x ih =>
    cases y with
    | nil => rfl
    | cons v y =>
      have hh := ih y
      simp only [combine, List.zipWith_cons_cons] at hh ⊢
      rw [hh]
      congr 1
      ring

theorem combine_swap (a b : F) (x y : List F) : combine a b x y = combine b a y x := by
  rw [combine, combine, List.zipWith_comm]
  congr 1
  funext v u
  ring

theorem combine_one_zero {x y : List F} (h : x.length = y.length) : combine 1 0 x y = x := by
  induction x generalizing y with
  | nil => rfl
  | cons u x ih =>
    cases y with
    | nil => simp at h
    | cons v y =>
      have hh := ih (y := y) (by simpa using h)
      simp only [combine, List.zipWith_cons_cons, one_mul, zero_mul, add_zero] at hh ⊢
      rw [hh]

theorem combine_zero_one {x y : List F} (h : x.length = y.length) : combine 0 1 x y = y := by
  rw [combine_swap, combine_one_zero h.symm]

theorem unitEquation_zero_holds {x y : List F} (h : x.length = y.length) :
    (unitEquation 0 x).Holds x y := combine_one_zero h

theorem unitEquation_one_holds {x y : List F} (h : x.length = y.length) :
    (unitEquation 1 y).Holds x y := combine_zero_one h

theorem fullRank_zero_iff (x : List F) (e : Equation F) :
    FullRank [unitEquation 0 x, e] ↔ e.c1 ≠ 0 := by
  constructor
  · intro h hc
    have hh := h 0 1 (by simp [unitEquation, hc])
    exact one_ne_zero hh.2
  · intro hc u v h
    have hu : u = 0 := by simpa [unitEquation] using h _ List.mem_cons_self
    have he : e.c0 * u + e.c1 * v = 0 := h e (by simp)
    have hv : e.c1 * v = 0 := by simpa [hu] using he
    exact ⟨hu, (mul_eq_zero.mp hv).resolve_left hc⟩

theorem fullRank_one_iff (x : List F) (e : Equation F) :
    FullRank [unitEquation 1 x, e] ↔ e.c0 ≠ 0 := by
  constructor
  · intro h hc
    have hh := h 1 0 (by simp [unitEquation, hc])
    exact one_ne_zero hh.1
  · intro hc u v h
    have hv : v = 0 := by simpa [unitEquation] using h _ List.mem_cons_self
    have he : e.c0 * u + e.c1 * v = 0 := h e (by simp)
    have hu : e.c0 * u = 0 := by simpa [hv] using he
    exact ⟨(mul_eq_zero.mp hu).resolve_left hc, hv⟩

theorem exists_combine_eq {a b : F} (hb : b ≠ 0) {x y : List F} (h : x.length = y.length) :
    ∃ z, z.length = x.length ∧ combine a b x z = y := by
  refine ⟨combine (-(a / b)) b⁻¹ x y, by simp [h], ?_⟩
  calc combine a b x (combine (-(a / b)) b⁻¹ x y)
      = combine a b (combine 1 0 x y) (combine (-(a / b)) b⁻¹ x y) := by
        rw [combine_one_zero h]
    _ = combine 0 1 x y := by
        rw [combine_combine]
        congr 1 <;> field_simp <;> ring
    _ = y := combine_zero_one h

def det (e f : Equation F) : F := e.c0 * f.c1 - e.c1 * f.c0

/-- Cramer's rule. -/
def solvePair (e f : Equation F) : List F × List F :=
  (combine (f.c1 / det e f) (-(e.c1 / det e f)) e.rhs f.rhs,
    combine (-(f.c0 / det e f)) (e.c0 / det e f) e.rhs f.rhs)

theorem solvePair_eq {e f : Equation F} {x y : List F} (hd : det e f ≠ 0)
    (hlen : x.length = y.length) (he : e.Holds x y) (hf : f.Holds x y) :
    solvePair e f = (x, y) := by
  have hx : f.c1 / det e f * e.c0 + -(e.c1 / det e f) * f.c0 = 1 := by
    rw [← div_self hd, det]
    ring
  have hx' : f.c1 / det e f * e.c1 + -(e.c1 / det e f) * f.c1 = 0 := by ring
  have hy : -(f.c0 / det e f) * e.c0 + e.c0 / det e f * f.c0 = 0 := by ring
  have hy' : -(f.c0 / det e f) * e.c1 + e.c0 / det e f * f.c1 = 1 := by
    rw [← div_self hd, det]
    ring
  rw [solvePair, ← show combine e.c0 e.c1 x y = e.rhs from he,
    ← show combine f.c0 f.c1 x y = f.rhs from hf]
  simp only [combine_combine, hx, hx', hy, hy', combine_one_zero hlen, combine_zero_one hlen]

variable [DecidableEq F]

def independentPair : List (Equation F) → Option (Equation F × Equation F)
  | [] => none
  | e :: es =>
    match es.find? (fun f => det e f ≠ 0) with
    | some f => some (e, f)
    | none => independentPair es

theorem independentPair_some {es : List (Equation F)} {e f : Equation F}
    (h : independentPair es = some (e, f)) : e ∈ es ∧ f ∈ es ∧ det e f ≠ 0 := by
  induction es with
  | nil => simp [independentPair] at h
  | cons a es ih =>
    cases hf : es.find? (fun f => det a f ≠ 0) with
    | some b =>
      simp only [independentPair, hf, Option.some.injEq, Prod.mk.injEq] at h
      obtain ⟨rfl, rfl⟩ := h
      have hd := List.find?_some hf
      exact ⟨by simp, List.mem_cons_of_mem _ (List.mem_of_find?_eq_some hf), by simpa using hd⟩
    | none =>
      simp only [independentPair, hf] at h
      obtain ⟨he, hf', hd⟩ := ih h
      exact ⟨List.mem_cons_of_mem _ he, List.mem_cons_of_mem _ hf', hd⟩

theorem independentPair_none {es : List (Equation F)} (h : independentPair es = none) :
    es.Pairwise (fun e f => det e f = 0) := by
  induction es with
  | nil => exact .nil
  | cons a es ih =>
    cases hf : es.find? (fun f => det a f ≠ 0) with
    | some b => simp only [independentPair, hf, reduceCtorEq] at h
    | none =>
      simp only [independentPair, hf] at h
      refine List.pairwise_cons.mpr ⟨fun b hb => ?_, ih h⟩
      simpa using List.find?_eq_none.mp hf b hb

/-- Without an independent pair some nonzero vector solves every equation. -/
theorem not_fullRank_of_dependent {es : List (Equation F)}
    (h : es.Pairwise (fun e f => det e f = 0)) : ¬ FullRank es := by
  intro hr
  by_cases hz : ∀ e ∈ es, e.c0 = 0 ∧ e.c1 = 0
  · have hh := hr 1 0 (fun e he => by simp [hz e he])
    exact one_ne_zero hh.1
  · push Not at hz
    obtain ⟨e, he, hne⟩ := hz
    have hall : ∀ f ∈ es, f.c0 * e.c1 + f.c1 * -e.c0 = 0 := by
      intro f hf
      have hp : e = f ∨ det e f = 0 ∨ det f e = 0 := by
        by_cases hef : e = f
        · exact .inl hef
        · exact .inr ((h.imp (fun hd => Or.inl hd)).forall_of_forall_of_flip
            (fun a _ => .inl (by simp [det]; ring)) (h.imp (fun hd => Or.inr hd)) he hf)
      rcases hp with rfl | hd | hd
      · ring
      · simp only [det] at hd
        linear_combination -hd
      · simp only [det] at hd
        linear_combination hd
    have hh := hr e.c1 (-e.c0) hall
    exact hne (neg_eq_zero.mp hh.2) hh.1

theorem fullRank_iff_independentPair (es : List (Equation F)) :
    FullRank es ↔ (independentPair es).isSome = true := by
  cases h : independentPair es with
  | none => simpa using not_fullRank_of_dependent (independentPair_none h)
  | some p =>
    obtain ⟨e, f⟩ := p
    obtain ⟨he, hf, hd⟩ := independentPair_some h
    simp only [Option.isSome_some, iff_true]
    intro u v huv
    have hu := huv e he
    have hv := huv f hf
    simp only [det] at hd
    constructor
    · apply (mul_eq_zero.mp (?_ : (e.c0 * f.c1 - e.c1 * f.c0) * u = 0)).resolve_left hd
      linear_combination f.c1 * hu - e.c1 * hv
    · apply (mul_eq_zero.mp (?_ : (e.c0 * f.c1 - e.c1 * f.c0) * v = 0)).resolve_left hd
      linear_combination e.c0 * hv - f.c0 * hu

end TwoSymbolCode
