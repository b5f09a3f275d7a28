import Mathlib.Data.List.Chain
import Mathlib.Data.List.Nodup
import Mathlib.Logic.Function.Basic
import Mathlib.Logic.Relation

/-! Lists that are held by pointers, one function for each pointer field: what it is for the cells
of a list to be linked, and what the usual assignments make of it. -/

namespace Linked

open Function

section Doubly

variable {κ : Type*} {left right : κ → Option κ} {l r m : List κ} {a b c : κ}

/-- Each cell of the list points to the next one and is pointed back to. -/
def Doubly (left right : κ → Option κ) (l : List κ) : Prop :=
  l.IsChain (fun a b => right a = some b ∧ left b = some a)

theorem Doubly.at (h : Doubly left right (l ++ a :: b :: r)) : right a = some b ∧ left b = some a :=
  (List.isChain_append_cons_cons.mp h).2.1

theorem Doubly.reaches (h : Doubly left right (l ++ a :: (r ++ b :: m))) :
    Relation.TransGen (fun x y => right x = some y) a b := by
  induction r generalizing l a with
  | nil => exact .single h.at.1
  | cons c r ih =>
    have hrest : Doubly left right ((l ++ [a]) ++ c :: (r ++ b :: m)) := by simpa using h
    exact .head h.at.1 (ih hrest)

/-- Who follows the pointers from the first cell to the last comes by all cells and no others. -/
theorem Doubly.reach_iff (h : Doubly left right (a :: (l ++ [c]))) (hend : right c = none) :
    Relation.ReflTransGen (fun x y => right x = some y) a b ↔ b ∈ a :: (l ++ [c]) := by
  induction l generalizing a with
  | nil =>
    have hac : right a = some c := (Doubly.at (l := []) h).1
    constructor
    · intro hr
      rcases Relation.ReflTransGen.cases_head hr with rfl | ⟨d, hd, hr⟩
      · simp
      · obtain rfl : c = d := Option.some.inj (hac.symm.trans hd)
        rcases Relation.ReflTransGen.cases_head hr with rfl | ⟨e, he, -⟩
        · simp
        · exact nomatch hend.symm.trans he
    · intro hb
      have hb' : b = a ∨ b = c := by simpa using hb
      rcases hb' with rfl | rfl
      · exact .refl
      · exact .single hac
  | cons d l ih =>
    have had : right a = some d := (Doubly.at (l := []) h).1
    have hrest : Doubly left right (d :: (l ++ [c])) := (List.isChain_cons_cons.mp h).2
    rw [List.cons_append, List.mem_cons, ← ih hrest]
    constructor
    · intro hr
      rcases Relation.ReflTransGen.cases_head hr with rfl | ⟨e, he, hr⟩
      · exact .inl rfl
      · obtain rfl : d = e := Option.some.inj (had.symm.trans he)
        exact .inr hr
    · rintro (rfl | hr)
      · exact .refl
      · exact .head had hr

/-- A list is left alone by assignments that reach none of its links. -/
theorem Doubly.frame {left' right' : κ → Option κ} (h : Doubly left right l)
    (hr : ∀ x y, x ∈ l → y ∈ l → right x = some y → right' x = some y)
    (hl : ∀ x y, x ∈ l → y ∈ l → left y = some x → left' y = some x) : Doubly left' right' l :=
  List.IsChain.imp_of_mem_imp (fun x y hx hy hxy => ⟨hr x y hx hy hxy.1, hl x y hx hy hxy.2⟩) h

variable [DecidableEq κ]

theorem Doubly.insert (h : Doubly left right (l ++ a :: b :: r)) (hnd : (l ++ a :: b :: r).Nodup)
    (hc : c ∉ l ++ a :: b :: r) :
    Doubly (update (update left c (some a)) b (some c)) (update (update right c (some b)) a (some c))
      (l ++ a :: c :: b :: r) := by
  obtain ⟨hfront, ⟨hab, hba⟩, hback⟩ := List.isChain_append_cons_cons.mp h
  have hsplit : (l ++ [a] ++ (b :: r)).Nodup := by simpa using hnd
  have hdis := List.disjoint_of_nodup_append hsplit
  have hmem : ∀ x, x ∈ l ++ [a] ∨ x ∈ b :: r → x ≠ c := by
    intro x hx he
    subst he
    simp only [List.mem_append, List.mem_cons, List.not_mem_nil, or_false] at hx hc
    tauto
  have hne : a ≠ b := fun he => hdis (by simp : a ∈ l ++ [a]) (by simp [he])
  have hca : a ≠ c := hmem a (.inl (by simp))
  have hcb : b ≠ c := hmem b (.inr (by simp))
  refine List.isChain_append_cons_cons.mpr ⟨?_, ⟨by simp, by simp [hcb.symm]⟩, ?_⟩
  · refine Doubly.frame hfront (fun x y hx hy hxy => ?_) (fun x y hx hy hxy => ?_)
    · have hxa : x ≠ a := by
        rintro rfl
        rw [hab] at hxy
        exact hdis hy (by simp [Option.some.inj hxy])
      rwa [update_of_ne hxa, update_of_ne (hmem x (.inl hx))]
    · have hyb : y ≠ b := fun he => hdis hy (by simp [he])
      rwa [update_of_ne hyb, update_of_ne (hmem y (.inl hy))]
  · refine List.isChain_cons_cons.mpr ⟨⟨by simp [hca.symm], by simp⟩, ?_⟩
    refine Doubly.frame hback (fun x y hx hy hxy => ?_) (fun x y hx hy hxy => ?_)
    · have hxa : x ≠ a := fun he => hdis (by simp : a ∈ l ++ [a]) (he ▸ hx)
      rwa [update_of_ne hxa, update_of_ne (hmem x (.inr hx))]
    · have hyb : y ≠ b := by
        rintro rfl
        rw [hba] at hxy
        exact hdis (by simp [Option.some.inj hxy.symm]) hx
      rwa [update_of_ne hyb, update_of_ne (hmem y (.inr hy))]

theorem Doubly.remove (h : Doubly left right (l ++ a :: c :: b :: r)) (hnd : (l ++ a :: c :: b :: r).Nodup) :
    Doubly (update left b (left c)) (update right a (right c)) (l ++ a :: b :: r) := by
  obtain ⟨hfront, ⟨hac, hca⟩, hback⟩ := List.isChain_append_cons_cons.mp h
  obtain ⟨⟨hcb, hbc⟩, hrest⟩ := List.isChain_cons_cons.mp hback
  have hsplit : (l ++ [a] ++ (c :: b :: r)).Nodup := by simpa using hnd
  have hdis := List.disjoint_of_nodup_append hsplit
  have hback' : c ∉ b :: r := (List.nodup_cons.mp (List.Nodup.of_append_right hsplit)).1
  refine List.isChain_append_cons_cons.mpr ⟨?_, ⟨by simp [hcb], by simp [hca]⟩, ?_⟩
  · refine Doubly.frame hfront (fun x y hx hy hxy => ?_) (fun x y hx hy hxy => ?_)
    · have hxa : x ≠ a := by
        rintro rfl
        rw [hac] at hxy
        exact hdis hy (by simp [Option.some.inj hxy])
      rwa [update_of_ne hxa]
    · have hyb : y ≠ b := fun he => hdis hy (by simp [he])
      rwa [update_of_ne hyb]
  · refine Doubly.frame hrest (fun x y hx hy hxy => ?_) (fun x y hx hy hxy => ?_)
    · have hxa : x ≠ a := fun he => hdis (by simp : a ∈ l ++ [a]) (List.mem_cons_of_mem c (he ▸ hx))
      rwa [update_of_ne hxa]
    · have hyb : y ≠ b := by
        rintro rfl
        rw [hbc] at hxy
        exact hback' (Option.some.inj hxy ▸ hx)
      rwa [update_of_ne hyb]

end Doubly

section Singly

variable {κ γ : Type*} (cell : κ → γ) (next : γ → Option κ)

/-- From the cell `c` on, the pointers pass the elements of the list and end. -/
def Leads : γ → List κ → Prop
  | c, [] => next c = none
  | c, a :: l => next c = some a ∧ Leads (cell a) l

/-- The cell that is reached from `c` by passing the elements of the list. -/
def lastCell : γ → List κ → γ
  | c, [] => c
  | _, a :: l => lastCell (cell a) l

variable {cell next} {c d : γ} {l r : List κ} {a : κ}

@[simp] theorem leads_nil : Leads cell next c [] ↔ next c = none := Iff.rfl

@[simp] theorem leads_cons : Leads cell next c (a :: l) ↔ next c = some a ∧ Leads cell next (cell a) l := Iff.rfl

theorem lastCell_mem : lastCell cell c l ∈ c :: l.map cell := by
  induction l generalizing c with
  | nil => exact List.mem_singleton.mpr rfl
  | cons b l ih => exact List.mem_cons_of_mem c ih

variable [DecidableEq γ]

theorem leads_update {v : Option κ} (hd : d ∉ c :: l.map cell) :
    Leads cell (update next d v) c l ↔ Leads cell next c l := by
  induction l generalizing c with
  | nil =>
    have hcd : c ≠ d := fun h => hd (by simp [h])
    simp [update_of_ne hcd]
  | cons a l ih =>
    have hcd : c ≠ d := fun h => hd (by simp [h])
    rw [leads_cons, leads_cons, update_of_ne hcd, ih (fun h => hd (List.mem_cons_of_mem c h))]

theorem Leads.insert (h : Leads cell next c (l ++ r)) (hnd : (c :: (l ++ r).map cell).Nodup)
    (ha : cell a ∉ c :: (l ++ r).map cell) :
    Leads cell (update (update next (cell a) (next (lastCell cell c l))) (lastCell cell c l) (some a)) c
      (l ++ a :: r) := by
  induction l generalizing c with
  | nil =>
    have hac : cell a ≠ c := fun h => ha (by simp [h])
    refine ⟨by simp [lastCell], ?_⟩
    cases r with
    | nil => simpa [lastCell, hac] using h
    | cons b r =>
      have hcr : c ∉ cell b :: r.map cell := by simpa using (List.nodup_cons.mp hnd).1
      have har : cell a ∉ cell b :: r.map cell := fun h => ha (List.mem_cons_of_mem c (by simpa using h))
      exact ⟨by simpa [lastCell, hac] using h.1, (leads_update hcr).mpr ((leads_update har).mpr h.2)⟩
  | cons b l ih =>
    have hnd' := List.nodup_cons.mp hnd
    have hlast : lastCell cell (cell b) l ≠ c := by
      intro he
      have hmem : lastCell cell (cell b) l ∈ cell b :: l.map cell := lastCell_mem
      rw [he] at hmem
      exact hnd'.1 (by simpa using Or.imp_right Or.inl (List.mem_cons.mp hmem))
    have hac : cell a ≠ c := fun h => ha (by simp [h])
    refine ⟨?_, ih h.2 hnd'.2 (fun h => ha (List.mem_cons_of_mem c h))⟩
    rw [lastCell, update_of_ne hlast.symm, update_of_ne hac.symm]
    exact h.1

theorem Leads.remove (h : Leads cell next c (l ++ a :: r)) (hnd : (c :: (l ++ a :: r).map cell).Nodup) :
    Leads cell (update next (lastCell cell c l) (next (cell a))) c (l ++ r) := by
  induction l generalizing c with
  | nil =>
    have hnd' := List.nodup_cons.mp hnd
    have hsame : update next c (next (cell a)) c = next (cell a) := update_self c (next (cell a)) next
    cases r with
    | nil => exact hsame.trans h.2
    | cons b r =>
      have hcr : c ∉ cell b :: r.map cell := fun h => hnd'.1 (List.mem_cons_of_mem _ h)
      exact ⟨hsame.trans h.2.1, (leads_update hcr).mpr h.2.2⟩
  | cons b l ih =>
    have hnd' := List.nodup_cons.mp hnd
    have hlast : lastCell cell (cell b) l ≠ c := by
      intro he
      have hmem : lastCell cell (cell b) l ∈ cell b :: l.map cell := lastCell_mem
      rw [he] at hmem
      exact hnd'.1 (by simpa using Or.imp_right Or.inl (List.mem_cons.mp hmem))
    refine ⟨?_, ih h.2 hnd'.2⟩
    show update next (lastCell cell (cell b) l) _ c = some b
    rw [update_of_ne hlast.symm]
    exact h.1

end Singly

end Linked
