import Mathlib

/-! Taking from a source until it has nothing more, and again at later times. A source may fail. -/

namespace Draining

variable {σ τ α φ : Type*}

/-- What comes out until nothing does. -/
inductive Drains (next : σ → Except φ (σ × Option α)) : σ → List α → σ → Prop
  | done {s s' : σ} (h : next s = .ok (s', none)) : Drains next s [] s'
  | more {s s' t : σ} {a : α} {as : List α} (h : next s = .ok (s', some a)) (hs : Drains next s' as t) :
      Drains next s (a :: as) t

/-- Drained at each of the times in turn, the source never fails, and what has come out by then, with what
had before, is what is due. -/
inductive Exact (next : τ → σ → Except φ (σ × Option α)) (due : τ → List α) : σ → List α → List τ → Prop
  | nil {s : σ} {out : List α} : Exact next due s out []
  | cons {s s' : σ} {out as : List α} {t : τ} {ts : List τ} (hs : Drains (next t) s as s') (hdue : out ++ as = due t)
      (hts : Exact next due s' (out ++ as) ts) : Exact next due s out (t :: ts)

variable {next : σ → Except φ (σ × Option α)} {s s' t u : σ} {as bs : List α}

theorem Drains.unique (h : Drains next s as t) (h' : Drains next s bs u) : as = bs ∧ t = u := by
  induction h generalizing bs with
  | done h =>
    cases h' with
    | done h' =>
      rw [h, Except.ok.injEq, Prod.mk.injEq] at h'
      exact ⟨rfl, h'.1⟩
    | more h' _ =>
      rw [h, Except.ok.injEq, Prod.mk.injEq] at h'
      cases h'.2
  | more h _ ih =>
    cases h' with
    | done h' =>
      rw [h, Except.ok.injEq, Prod.mk.injEq] at h'
      cases h'.2
    | more h' hs' =>
      rw [h, Except.ok.injEq, Prod.mk.injEq, Option.some.injEq] at h'
      obtain ⟨rfl, rfl⟩ := h'
      obtain ⟨rfl, rfl⟩ := ih hs'
      exact ⟨rfl, rfl⟩

/-- Where two states give the same next, they are drained alike. -/
theorem Drains.congr (h : next s = next s') (hs : Drains next s as t) : Drains next s' as t := by
  cases hs with
  | done hn => exact .done (h ▸ hn)
  | more hn hs => exact .more (h ▸ hn) hs

theorem Exact.head {next : τ → σ → Except φ (σ × Option α)} {due : τ → List α} {out : List α} {x : τ} {ts : List τ}
    (h : Exact next due s out (x :: ts)) (hs : Drains (next x) s as s') :
    out ++ as = due x ∧ Exact next due s' (out ++ as) ts := by
  cases h with
  | cons hd hdue hts =>
    obtain ⟨rfl, rfl⟩ := hd.unique hs
    exact ⟨hdue, hts⟩

end Draining
