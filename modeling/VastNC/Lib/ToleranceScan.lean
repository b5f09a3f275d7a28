import Mathlib

/-! A scan for the nearest element that lets a smaller key win where the values differ by less
than a tolerance: when its outcome depends on the order of the elements. -/

namespace ToleranceScan

variable {α ι K : Type*} [LinearOrder ι] [LinearOrder K]

/-- Every nonempty list has an element of least value, and of least key among those. -/
theorem exists_least (value : α → K) (key : α → ι) {l : List α} (hl : l ≠ []) :
    ∃ m ∈ l, (∀ x ∈ l, value m ≤ value x) ∧ ∀ x ∈ l, value x = value m → key m ≤ key x := by
  induction l with
  | nil => exact absurd rfl hl
  | cons a l ih =>
    by_cases hn : l = []
    · subst hn
      refine ⟨a, List.mem_singleton_self a, ?_, ?_⟩
      · intro x hx
        rw [List.mem_singleton.mp hx]
      · intro x hx _
        rw [List.mem_singleton.mp hx]
    · obtain ⟨m, hm, hv, hk⟩ := ih hn
      by_cases hb : value a < value m ∨ value a = value m ∧ key a < key m
      · have hle : value a ≤ value m := hb.elim le_of_lt fun h => h.1.le
        refine ⟨a, List.mem_cons_self, ?_, ?_⟩
        · intro x hx
          rcases List.mem_cons.mp hx with rfl | hx
          · exact le_rfl
          · exact hle.trans (hv x hx)
        · intro x hx he
          rcases List.mem_cons.mp hx with rfl | hx
          · exact le_rfl
          · have hma : value a = value m := le_antisymm hle (he ▸ hv x hx)
            have hka : key a < key m := hb.elim (fun h => absurd hma h.ne) fun h => h.2
            exact hka.le.trans (hk x hx (he.trans hma))
      · rw [not_or, not_lt, not_and, not_lt] at hb
        refine ⟨m, List.mem_cons_of_mem _ hm, ?_, ?_⟩
        · intro x hx
          rcases List.mem_cons.mp hx with rfl | hx
          · exact hb.1
          · exact hv x hx
        · intro x hx he
          rcases List.mem_cons.mp hx with rfl | hx
          · exact hb.2 he
          · exact hk x hx he

variable [AddCommGroup K] (value : α → K) (key : α → ι) (tol : K)

def Beats (x c : α) : Prop := value x < value c ∨ value x - value c < tol ∧ key x < key c

instance (x c : α) : Decidable (Beats value key tol x c) := inferInstanceAs (Decidable (_ ∨ _))

def scan (c : α) (l : List α) : α := l.foldl (fun c x => if Beats value key tol x c then x else c) c

/-- A nearest element has the smallest key of all that are nearer than the tolerance to it. -/
def Settled (l : List α) : Prop :=
  ∃ m ∈ l, (∀ x ∈ l, value m ≤ value x) ∧ ∀ x ∈ l, value x - value m < tol → key m ≤ key x

variable {value key tol} {c m x : α} {l : List α}

theorem scan_append (l l' : List α) :
    scan value key tol c (l ++ l') = scan value key tol (scan value key tol c l) l' :=
  List.foldl_append

theorem scan_mem (c : α) (l : List α) : scan value key tol c l ∈ c :: l := by
  induction l generalizing c with
  | nil => exact List.mem_singleton_self c
  | cons x l ih =>
    have hmem : scan value key tol c (x :: l) ∈ (if Beats value key tol x c then x else c) :: l := ih _
    rcases List.mem_cons.mp hmem with he | hl
    · rw [he]
      split
      · exact List.mem_cons_of_mem _ List.mem_cons_self
      · exact List.mem_cons_self
    · exact List.mem_cons_of_mem _ (List.mem_cons_of_mem _ hl)

theorem scan_unbeaten (h : ∀ x ∈ l, ¬ Beats value key tol x m) : scan value key tol m l = m := by
  induction l with
  | nil => rfl
  | cons x l ih =>
    have hx : ¬ Beats value key tol x m := h x List.mem_cons_self
    have hl := ih fun y hy => h y (List.mem_cons_of_mem _ hy)
    rwa [scan, List.foldl_cons, if_neg hx]

theorem scan_last (h : ∀ x ∈ c :: l, Beats value key tol m x) : scan value key tol c (l ++ [m]) = m := by
  rw [scan_append]
  exact if_pos (h _ (scan_mem c l))

/-- An element that nothing beats and that beats the rest is found wherever it stands. -/
theorem scan_winner (hm : m ∈ c :: l) (hunbeaten : ∀ x ∈ l, ¬ Beats value key tol x m)
    (hbeats : ∀ x ∈ c :: l, x ≠ m → Beats value key tol m x) : scan value key tol c l = m := by
  by_cases hc : c = m
  · rw [hc]
    exact scan_unbeaten hunbeaten
  · obtain ⟨l₁, l₂, rfl⟩ := List.append_of_mem ((List.mem_cons.mp hm).resolve_left fun he => hc he.symm)
    have hfront : scan value key tol c l₁ = m ∨ Beats value key tol m (scan value key tol c l₁) := by
      by_cases he : scan value key tol c l₁ = m
      · exact .inl he
      · refine .inr (hbeats _ ?_ he)
        exact List.mem_append_left _ (scan_mem c l₁)
    have hturn : scan value key tol (scan value key tol c l₁) (m :: l₂) = scan value key tol m l₂ := by
      rcases hfront with he | hb
      · rw [he, scan, List.foldl_cons, ite_self]
        rfl
      · rw [scan, List.foldl_cons, if_pos hb]
        rfl
    rw [scan_append, hturn]
    exact scan_unbeaten fun x hx => hunbeaten x (List.mem_append_right _ (List.mem_cons_of_mem _ hx))

theorem beats_of_least (htol : 0 < tol) (hle : value m ≤ value x)
    (hkey : value x = value m → key m < key x) : Beats value key tol m x := by
  rcases hle.lt_or_eq with hlt | heq
  · exact .inl hlt
  · exact .inr ⟨by rwa [heq, sub_self], hkey heq.symm⟩

/-- What the scan finds in a list, in whatever order it goes through it. -/
theorem Settled.scan_perm (h : Settled value key tol l) (htol : 0 < tol) (hinj : (l.map key).Nodup) :
    ∃ m ∈ l, (∀ x ∈ l, value m ≤ value x) ∧ ∀ c l', (c :: l').Perm l → scan value key tol c l' = m := by
  obtain ⟨m, hm, hv, hk⟩ := h
  refine ⟨m, hm, hv, fun c l' hp => scan_winner (hp.mem_iff.mpr hm) ?_ ?_⟩
  · intro x hx hb
    have hxl : x ∈ l := hp.mem_iff.mp (List.mem_cons_of_mem _ hx)
    rcases hb with hlt | ⟨hclose, hkey⟩
    · exact absurd hlt (not_lt.mpr (hv x hxl))
    · exact absurd hkey (not_lt.mpr (hk x hxl hclose))
  · intro x hx hne
    have hxl : x ∈ l := hp.mem_iff.mp hx
    refine beats_of_least htol (hv x hxl) fun he => lt_of_le_of_ne (hk x hxl (by rwa [he, sub_self])) ?_
    exact fun hkey => hne (List.inj_on_of_nodup_map hinj hxl hm hkey.symm)

/-- Where the nearest elements lose the tie to another, two orders lead to two outcomes. -/
theorem exists_orders [DecidableEq α] (h : ¬ Settled value key tol l) (hl : l ≠ []) (htol : 0 < tol)
    (hinj : (l.map key).Nodup) : ∃ c l₁ d l₂, (c :: l₁).Perm l ∧ (d :: l₂).Perm l ∧
      scan value key tol c l₁ ≠ scan value key tol d l₂ := by
  obtain ⟨m, hm, hv, hk⟩ := exists_least value key hl
  obtain ⟨x, hx, hclose, hkey⟩ : ∃ x ∈ l, value x - value m < tol ∧ key x < key m := by
    by_contra hn
    push Not at hn
    exact h ⟨m, hm, hv, hn⟩
  have hxm : x ≠ m := fun he => lt_irrefl _ (he ▸ hkey)
  have hxe : x ∈ l.erase m := (List.mem_erase_of_ne hxm).mpr hx
  have hm_perm := List.perm_cons_erase hm
  have hx_perm := List.perm_cons_erase hxe
  have hnodup : l.Nodup := List.Nodup.of_map key hinj
  have hrest : m ∉ x :: (l.erase m).erase x := by
    rw [← hx_perm.mem_iff]
    exact hnodup.not_mem_erase
  refine ⟨x, (l.erase m).erase x ++ [m], m, x :: (l.erase m).erase x, ?_, ?_, ?_⟩
  · exact (List.perm_append_singleton m (x :: (l.erase m).erase x)).trans
      ((hx_perm.symm.cons m).trans hm_perm.symm)
  · exact (hx_perm.symm.cons m).trans hm_perm.symm
  · have hwin : scan value key tol x ((l.erase m).erase x ++ [m]) = m := by
      refine scan_last fun y hy => ?_
      have hyl : y ∈ l := List.mem_of_mem_erase (hx_perm.mem_iff.mpr hy)
      have hym : y ≠ m := fun he => hrest (he ▸ hy)
      refine beats_of_least htol (hv y hyl) fun he => lt_of_le_of_ne (hk y hyl he) ?_
      exact fun hkey => hym (List.inj_on_of_nodup_map hinj hyl hm hkey.symm)
    have hlose : scan value key tol m (x :: (l.erase m).erase x) =
        scan value key tol x ((l.erase m).erase x) := by
      rw [scan, List.foldl_cons, if_pos (.inr ⟨hclose, hkey⟩)]
      rfl
    rw [hwin, hlose]
    intro he
    have hmem : scan value key tol x ((l.erase m).erase x) ∈ x :: (l.erase m).erase x := scan_mem x _
    rw [← he] at hmem
    exact hrest hmem

end ToleranceScan
