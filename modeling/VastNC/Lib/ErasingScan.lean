import Mathlib.Data.List.Basic
import Mathlib.Algebra.Group.Nat.Even

/-! A loop over a list that erases the element it looks at and still advances its index. It
looks at every second element and passes over those between them. -/

namespace ErasingScan

variable {α : Type*}

def scan (p : α → Bool) : Nat → Nat → List α → Option α × List α
  | 0, _, l => (none, l)
  | fuel + 1, i, l =>
    match l[i]? with
    | none => (none, l)
    | some x => if p x then (some x, l.eraseIdx i) else scan p fuel (i + 1) (l.eraseIdx i)

def scanned : List α → List α
  | [] => []
  | [x] => [x]
  | x :: _ :: l => x :: scanned l

def skipped : List α → List α
  | [] => []
  | [_] => []
  | _ :: y :: l => y :: skipped l

theorem scanned_append {before : List α} (h : Even before.length) (l : List α) :
    scanned (before ++ l) = scanned before ++ scanned l := by
  induction before using scanned.induct with
  | case1 => rfl
  | case2 x => simp at h
  | case3 x y before ih =>
    have hb : Even before.length := by simpa [Nat.even_add_one] using h
    simp only [List.cons_append, scanned, ih hb]

theorem scanned_cons {a : α} {before : List α} (h : Even before.length) (after : List α) :
    ∃ rest, scanned (before ++ a :: after) = scanned before ++ a :: rest := by
  rw [scanned_append h]
  cases after with
  | nil => exact ⟨[], rfl⟩
  | cons y after => exact ⟨scanned after, rfl⟩

theorem find?_scanned {p : α → Bool} {a : α} (ha : p a = true) (after : List α) {before : List α}
    (h : Even before.length) :
    (scanned (before ++ a :: after)).find? p = ((scanned before).find? p).or (some a) := by
  obtain ⟨rest, hrest⟩ := scanned_cons (a := a) h after
  rw [hrest, List.find?_append, List.find?_cons_of_pos ha]

variable {p : α → Bool}

theorem scan_past {i : Nat} {l : List α} (h : l.length ≤ i) (fuel : Nat) :
    scan p fuel i l = (none, l) := by
  cases fuel with
  | zero => rfl
  | succ fuel => rw [scan, List.getElem?_eq_none h]

theorem scan_stop {a : α} (ha : p a = true) (kept after : List α) (fuel : Nat) :
    scan p (fuel + 1) kept.length (kept ++ a :: after) = (some a, kept ++ after) := by
  rw [scan]
  simp [ha, List.eraseIdx_append_of_length_le]

theorem scan_step {a : α} (ha : p a = false) (kept after : List α) (fuel : Nat) :
    scan p (fuel + 1) kept.length (kept ++ a :: after) =
      scan p fuel (kept.length + 1) (kept ++ after) := by
  rw [scan]
  simp [ha, List.eraseIdx_append_of_length_le]

/-- `kept` is what the loop has passed over so far; its length is the index. -/
theorem scan_none {l : List α} (h : ∀ x ∈ scanned l, p x = false) (kept : List α) {fuel : Nat}
    (hf : l.length ≤ fuel) : scan p fuel kept.length (kept ++ l) = (none, kept ++ skipped l) := by
  induction l using scanned.induct generalizing kept fuel with
  | case1 => exact scan_past (by simp) fuel
  | case2 x =>
    obtain ⟨fuel, rfl⟩ := Nat.exists_eq_add_of_le' hf
    rw [List.length_singleton, scan_step (h x List.mem_cons_self), scan_past (by simp)]
    rfl
  | case3 x y l ih =>
    obtain ⟨fuel, rfl⟩ := Nat.exists_eq_add_of_le' hf
    have hx : p x = false := h x List.mem_cons_self
    have hl : ∀ z ∈ scanned l, p z = false := fun z hz => h z (List.mem_cons_of_mem _ hz)
    have hrest : scan p (fuel + l.length + 1) (kept ++ [y]).length (kept ++ [y] ++ l) = _ :=
      ih hl (kept ++ [y]) (by omega)
    have hstep := scan_step hx kept (y :: l) (fuel + l.length + 1)
    simp only [List.length_append, List.length_singleton, List.append_assoc, List.singleton_append] at hrest
    exact hstep.trans hrest

theorem scan_some {a : α} (ha : p a = true) (after : List α) {before : List α}
    (he : Even before.length) (h : ∀ x ∈ scanned before, p x = false) (kept : List α) {fuel : Nat}
    (hf : before.length < fuel) :
    scan p fuel kept.length (kept ++ (before ++ a :: after)) =
      (some a, kept ++ (skipped before ++ after)) := by
  induction before using scanned.induct generalizing kept fuel with
  | case1 =>
    obtain ⟨fuel, rfl⟩ := Nat.exists_eq_add_of_lt hf
    exact scan_stop ha kept after _
  | case2 x => simp at he
  | case3 x y before ih =>
    obtain ⟨fuel, rfl⟩ := Nat.exists_eq_add_of_lt hf
    have hx : p x = false := h x List.mem_cons_self
    have hb : ∀ z ∈ scanned before, p z = false := fun z hz => h z (List.mem_cons_of_mem _ hz)
    have he' : Even before.length := by simpa [Nat.even_add_one] using he
    have hrest : scan p (before.length + 2 + fuel) (kept ++ [y]).length
        (kept ++ [y] ++ (before ++ a :: after)) = _ := ih he' hb (kept ++ [y]) (by omega)
    have hstep := scan_step hx kept (y :: (before ++ a :: after)) (before.length + 2 + fuel)
    simp only [List.length_append, List.length_singleton, List.append_assoc, List.singleton_append] at hrest
    exact hstep.trans hrest

/-- Either the loop meets no element with `p`, or there is a first one that it meets. -/
theorem first_scanned (p : α → Bool) (l : List α) :
    (∀ x ∈ scanned l, p x = false) ∨
      ∃ before a after, l = before ++ a :: after ∧ Even before.length ∧
        (∀ x ∈ scanned before, p x = false) ∧ p a = true := by
  induction l using scanned.induct with
  | case1 => simp [scanned]
  | case2 x =>
    cases hx : p x with
    | true => exact .inr ⟨[], x, [], rfl, by simp, by simp [scanned], hx⟩
    | false => exact .inl (by simp [scanned, hx])
  | case3 x y l ih =>
    cases hx : p x with
    | true => exact .inr ⟨[], x, y :: l, rfl, by simp, by simp [scanned], hx⟩
    | false =>
      rcases ih with hnone | ⟨before, a, after, rfl, he, hb, ha⟩
      · exact .inl (by simpa [scanned, hx] using hnone)
      · exact .inr ⟨x :: y :: before, a, after, rfl, by simpa [Nat.even_add_one] using he,
          by simpa [scanned, hx] using hb, ha⟩

end ErasingScan
