import Mathlib

/-! Ordered tables: writing an optional entry, grouping a list by a key, and loops over keys in
which every turn changes only what belongs to its own key. -/

namespace Tables

variable {κ : Type*} [Ord κ] [Std.TransOrd κ] [Std.LawfulEqOrd κ]

section Assign

variable {ν : Type*}

theorem nodup_keys (m : Std.ExtTreeMap κ ν) : (m.toList.map Prod.fst).Nodup := by
  rw [List.Nodup, List.pairwise_map]
  refine m.distinct_keys_toList.imp fun h he => h ?_
  rw [he]
  exact Std.compare_self

/-- A table with one key at most. -/
theorem toList_of_keys {m : Std.ExtTreeMap κ ν} {k : κ} (h : ∀ e ∈ m.toList, e.1 = k) :
    m.toList = [] ∨ ∃ x, m.toList = [(k, x)] := by
  have hnd := nodup_keys m
  match he : m.toList, h with
  | [], _ => exact .inl rfl
  | [(j, x)], h =>
    obtain rfl : j = k := h (j, x) (List.mem_singleton_self _)
    exact .inr ⟨x, rfl⟩
  | (i, x) :: (j, y) :: l, h =>
    have hi : i = k := h (i, x) List.mem_cons_self
    have hj : j = k := h (j, y) (List.mem_cons_of_mem _ List.mem_cons_self)
    rw [he, List.map_cons, List.map_cons, List.nodup_cons] at hnd
    exact absurd (List.mem_cons.mpr (.inl (hi.trans hj.symm))) hnd.1

theorem mem_filter_keys {m : Std.ExtTreeMap κ ν} {f : κ × ν → Bool} {k : κ} :
    k ∈ (m.toList.filter f).map Prod.fst ↔ m[k]?.any (fun x => f (k, x)) = true := by
  rw [List.mem_map, Option.any_eq_true]
  constructor
  · rintro ⟨⟨j, x⟩, h, rfl⟩
    rw [List.mem_filter, Std.ExtTreeMap.mem_toList_iff_getElem?_eq_some] at h
    exact ⟨x, h⟩
  · rintro ⟨x, h⟩
    exact ⟨(k, x), List.mem_filter.mpr ⟨Std.ExtTreeMap.mem_toList_iff_getElem?_eq_some.mpr h.1, h.2⟩, rfl⟩

theorem mem_insert_iff {m : Std.ExtTreeMap κ ν} {k j : κ} {x : ν} : j ∈ m.insert k x ↔ j = k ∨ j ∈ m := by
  rw [Std.ExtTreeMap.mem_insert, Std.compare_eq_iff_eq, eq_comm]

theorem mem_erase_iff {m : Std.ExtTreeMap κ ν} {k j : κ} : j ∈ m.erase k ↔ j ≠ k ∧ j ∈ m := by
  rw [Std.ExtTreeMap.mem_erase, ne_eq, Std.compare_eq_iff_eq, eq_comm]

theorem filter_eq_singleton [DecidableEq κ] {l : List (κ × ν)} {k : κ} {x : ν} (hnd : (l.map Prod.fst).Nodup)
    (hx : (k, x) ∈ l) : l.filter (fun e => e.1 == k) = [(k, x)] := by
  induction l with
  | nil => exact absurd hx List.not_mem_nil
  | cons e l ih =>
    rw [List.map_cons, List.nodup_cons] at hnd
    rcases List.mem_cons.mp hx with rfl | hx
    · have hrest : l.filter (fun e => e.1 == k) = [] := by
        rw [List.filter_eq_nil_iff]
        intro e he hek
        exact hnd.1 (List.mem_map.mpr ⟨e, he, beq_iff_eq.mp hek⟩)
      simp [hrest]
    · have hne : e.1 ≠ k := by
        rintro rfl
        exact hnd.1 (List.mem_map.mpr ⟨_, hx, rfl⟩)
      rw [List.filter_cons_of_neg (by simp [hne]), ih hnd.2 hx]

theorem toList_filter_key [DecidableEq κ] (m : Std.ExtTreeMap κ ν) (k : κ) :
    m.toList.filter (fun e => e.1 == k) = m[k]?.toList.map (fun x => (k, x)) := by
  cases hk : m[k]? with
  | none =>
    rw [Option.toList_none, List.map_nil, List.filter_eq_nil_iff]
    rintro ⟨j, x⟩ he hj
    obtain rfl := beq_iff_eq.mp hj
    rw [Std.ExtTreeMap.mem_toList_iff_getElem?_eq_some, hk] at he
    cases he
  | some x => exact filter_eq_singleton (nodup_keys m) (Std.ExtTreeMap.mem_toList_iff_getElem?_eq_some.mpr hk)

def assign (m : Std.ExtTreeMap κ ν) (k : κ) : Option ν → Std.ExtTreeMap κ ν
  | some v => m.insert k v
  | none => m.erase k

@[simp] theorem getElem?_assign [DecidableEq κ] (m : Std.ExtTreeMap κ ν) (k : κ) (o : Option ν) (j : κ) :
    (assign m k o)[j]? = if k = j then o else m[j]? := by
  cases o with
  | none => simp [assign, Std.ExtTreeMap.getElem?_erase]
  | some v => simp [assign, Std.ExtTreeMap.getElem?_insert]

end Assign

section GroupBy

variable {α : Type*} (key : α → κ)

def addToGroup (m : Std.ExtTreeMap κ (List α)) (a : α) : Std.ExtTreeMap κ (List α) :=
  m.insert (key a) (m[key a]?.getD [] ++ [a])

/-- The elements of a list by their key, in the order of the list. -/
def groupBy (l : List α) : Std.ExtTreeMap κ (List α) := l.foldl (addToGroup key) ∅

variable [DecidableEq κ]

theorem getElem?_groupBy (l : List α) (k : κ) : (groupBy key l)[k]? =
    if l.filter (fun a => key a == k) = [] then none else some (l.filter (fun a => key a == k)) := by
  induction l using List.reverseRecOn with
  | nil => simp [groupBy]
  | append_singleton l a ih =>
    have hstep : groupBy key (l ++ [a]) = addToGroup key (groupBy key l) a := by
      rw [groupBy, List.foldl_append]
      rfl
    rw [hstep, addToGroup, Std.ExtTreeMap.getElem?_insert, List.filter_append]
    by_cases ha : key a = k
    · subst ha
      rw [if_pos Std.compare_self, ih]
      by_cases he : l.filter (fun b => key b == key a) = []
      · simp [he]
      · simp [he]
    · have hc : ¬ compare (key a) k = .eq := fun hc => ha (Std.compare_eq_iff_eq.mp hc)
      rw [if_neg hc, ih]
      simp [ha]

theorem mem_toList_groupBy {l : List α} {k : κ} {g : List α} : (k, g) ∈ (groupBy key l).toList ↔
    g ≠ [] ∧ g = l.filter (fun a => key a == k) := by
  rw [Std.ExtTreeMap.mem_toList_iff_getElem?_eq_some, getElem?_groupBy]
  constructor
  · intro h
    split at h
    · cases h
    · rename_i hne
      rw [← Option.some.inj h]
      exact ⟨hne, rfl⟩
  · rintro ⟨hne, rfl⟩
    exact if_neg hne

theorem count_flatMap_groups [DecidableEq α] {l : List α} {groups : List (κ × List α)}
    (hkeys : (groups.map Prod.fst).Nodup)
    (hgroups : ∀ e ∈ groups, e.2 = l.filter (fun a => key a == e.1)) (a : α) :
    (groups.flatMap Prod.snd).count a = if key a ∈ groups.map Prod.fst then l.count a else 0 := by
  induction groups with
  | nil => rfl
  | cons e groups ih =>
    rw [List.map_cons, List.nodup_cons] at hkeys
    have hrest := ih hkeys.2 (fun x hx => hgroups x (List.mem_cons_of_mem _ hx))
    rw [List.flatMap_cons, List.count_append, hrest, hgroups e List.mem_cons_self, List.map_cons]
    by_cases ha : key a = e.1
    · have hn : ¬ key a ∈ groups.map Prod.fst := ha ▸ hkeys.1
      rw [if_neg hn, if_pos (List.mem_cons.mpr (.inl ha)), List.count_filter (by simp [ha]), Nat.add_zero]
    · have hz : (l.filter (fun a => key a == e.1)).count a = 0 := by
        rw [List.count_eq_zero, List.mem_filter]
        simp [ha]
      simp only [hz, Nat.zero_add, List.mem_cons, ha, false_or]

/-- Grouping loses nothing and doubles nothing. -/
theorem perm_groupBy [DecidableEq α] (l : List α) :
    ((groupBy key l).toList.flatMap Prod.snd).Perm l := by
  rw [List.perm_iff_count]
  intro a
  rw [count_flatMap_groups key (nodup_keys _) (fun e he => ((mem_toList_groupBy key).mp he).2)]
  split
  · rfl
  · rename_i hn
    have hmem : a ∉ l := by
      intro ha
      refine hn (List.mem_map.mpr ⟨(key a, l.filter (fun b => key b == key a)), ?_, rfl⟩)
      rw [mem_toList_groupBy]
      exact ⟨List.ne_nil_of_mem (List.mem_filter.mpr ⟨ha, by simp⟩), rfl⟩
    rw [List.count_eq_zero.mpr hmem]

end GroupBy

end Tables

namespace Tables

variable {κ σ ν ω : Type*}

/-- A turn changes the part of the state that `view` shows at its own key, as `g` says, and
appends to what was put out. -/
structure Turnwise (view : σ → κ → ν) (out : σ → List ω) (turn : σ → κ → σ) (g : κ → ν → ν)
    (o : κ → ν → List ω) : Prop where
  self : ∀ s k, view (turn s k) k = g k (view s k)
  frame : ∀ s k j, k ≠ j → view (turn s k) j = view s j
  out : ∀ s k, out (turn s k) = out s ++ o k (view s k)

variable {view : σ → κ → ν} {out : σ → List ω} {turn : σ → κ → σ} {g : κ → ν → ν}
  {o : κ → ν → List ω}

theorem Turnwise.out_foldl (h : Turnwise view out turn g o) {ks : List κ} (hks : ks.Nodup) (s : σ) :
    out (ks.foldl turn s) = out s ++ ks.flatMap (fun k => o k (view s k)) := by
  induction ks generalizing s with
  | nil => simp
  | cons k ks ih =>
    rw [List.nodup_cons] at hks
    have hrest : ks.flatMap (fun j => o j (view (turn s k) j)) = ks.flatMap (fun j => o j (view s j)) := by
      apply List.flatMap_congr
      intro j hj
      rw [h.frame s k j (fun he => hks.1 (he ▸ hj))]
    rw [List.foldl_cons, ih hks.2, h.out, hrest, List.append_assoc, List.flatMap_cons]

theorem Turnwise.view_foldl [DecidableEq κ] (h : Turnwise view out turn g o) {ks : List κ} (hks : ks.Nodup) (s : σ)
    (j : κ) : view (ks.foldl turn s) j = if j ∈ ks then g j (view s j) else view s j := by
  induction ks generalizing s with
  | nil => simp
  | cons k ks ih =>
    rw [List.nodup_cons] at hks
    rw [List.foldl_cons, ih hks.2]
    by_cases hk : k = j
    · subst hk
      simp [hks.1, h.self]
    · simp [h.frame s k j hk, Ne.symm hk]

end Tables
