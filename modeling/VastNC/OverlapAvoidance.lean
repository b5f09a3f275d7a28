import VastNC.Lib.Tables

/-! `VONPeer::isOverlapped` over exact coordinates: how a peer steps aside from its neighbours, and
which neighbour it can still end up on. -/

namespace VastNC

/-- A position with coordinates of any kind of number that does not round. -/
@[ext] structure ExactPosition (K : Type*) where
  x : K
  y : K
  z : K
  deriving DecidableEq

namespace ExactPosition

variable {K : Type*} [AddCommGroupWithOne K]

def shift (pos : ExactPosition K) (k : ℕ) : ExactPosition K := { pos with x := pos.x + k }

@[simp] theorem shift_zero (pos : ExactPosition K) : pos.shift 0 = pos := by
  simp [shift]

theorem shift_succ (pos : ExactPosition K) (k : ℕ) : (pos.shift 1).shift k = pos.shift (k + 1) := by
  ext
  · simp only [shift, Nat.cast_one, Nat.cast_add]
    rw [add_assoc, add_comm (1 : K)]
  · rfl
  · rfl

theorem shift_injective [CharZero K] (pos : ExactPosition K) : Function.Injective pos.shift := by
  intro j k h
  simpa [shift] using h

end ExactPosition

namespace VONPeer

variable {K : Type*}

abbrev Centers (K : Type*) := Std.ExtTreeMap UInt64 (ExactPosition K)

/-- A neighbour among the entries stands at the position. -/
def Held (entries : List (UInt64 × ExactPosition K)) (self : UInt64) (pos : ExactPosition K) : Prop :=
  ∃ e ∈ entries, e.1 ≠ self ∧ e.2 = pos

theorem held_cons {e : UInt64 × ExactPosition K} {rest : List (UInt64 × ExactPosition K)} {self : UInt64}
    {pos : ExactPosition K} : Held (e :: rest) self pos ↔ (e.1 ≠ self ∧ e.2 = pos) ∨ Held rest self pos := by
  simp [Held]

variable [AddCommGroupWithOne K] [DecidableEq K]

/-- The loop with `rest` still before it. After a shift the iterator is set to `begin ()`, and the `++it`
of the loop then moves it on. -/
def scan (entries : List (UInt64 × ExactPosition K)) (self : UInt64) :
    ℕ → List (UInt64 × ExactPosition K) → ExactPosition K → Option (ExactPosition K)
  | 0, _, _ => none
  | _ + 1, [], pos => some pos
  | fuel + 1, (id, center) :: rest, pos =>
    if id = self then scan entries self fuel rest pos
    else if center = pos then scan entries self fuel entries.tail { pos with x := pos.x + 1 }
    else scan entries self fuel rest pos

def isOverlapped (fuel : ℕ) (id2node : Centers K) (self : UInt64) (pos : ExactPosition K) :
    Option (ExactPosition K) :=
  scan id2node.toList self fuel id2node.toList pos

section Scan

variable {entries rest : List (UInt64 × ExactPosition K)} {self : UInt64} {pos q : ExactPosition K} {fuel : ℕ}

theorem scan_succ (h : scan entries self fuel rest pos = some q) :
    scan entries self (fuel + 1) rest pos = some q := by
  induction fuel generalizing rest pos with
  | zero => simp [scan] at h
  | succ fuel ih =>
    cases rest with
    | nil => exact h
    | cons e rest =>
      obtain ⟨id, center⟩ := e
      rw [scan] at h ⊢
      by_cases hself : id = self
      · rw [if_pos hself] at h ⊢
        exact ih h
      · rw [if_neg hself] at h ⊢
        by_cases hc : center = pos
        · rw [if_pos hc] at h ⊢
          exact ih h
        · rw [if_neg hc] at h ⊢
          exact ih h

theorem scan_mono {m : ℕ} (h : scan entries self fuel rest pos = some q) (hm : fuel ≤ m) :
    scan entries self m rest pos = some q := by
  induction hm with
  | refl => exact h
  | step _ ih => exact scan_succ ih

theorem scan_unique {m : ℕ} {q' : ExactPosition K} (h : scan entries self fuel rest pos = some q)
    (h' : scan entries self m rest pos = some q') : q = q' := by
  have hmax := scan_mono h (Nat.le_max_left fuel m)
  rw [scan_mono h' (Nat.le_max_right fuel m)] at hmax
  exact (Option.some.inj hmax).symm

theorem scan_of_free (h : ¬ Held rest self pos) :
    scan entries self (rest.length + 1) rest pos = some pos := by
  induction rest with
  | nil => rfl
  | cons e rest ih =>
    obtain ⟨id, center⟩ := e
    rw [held_cons, not_or] at h
    rw [List.length_cons, scan, ih h.2]
    by_cases hself : id = self
    · rw [if_pos hself]
    · have hc : ¬ center = pos := fun hc => h.1 ⟨hself, hc⟩
      rw [if_neg hself, if_neg hc]

/-- A pass that meets a neighbour at the position starts again behind the first entry, one step on. -/
theorem scan_of_held (h : Held rest self pos) (hq : scan entries self fuel entries.tail (pos.shift 1) = some q) :
    scan entries self (fuel + rest.length) rest pos = some q := by
  induction rest with
  | nil => simp [Held] at h
  | cons e rest ih =>
    obtain ⟨id, center⟩ := e
    rw [List.length_cons, ← add_assoc, scan]
    by_cases hself : id = self
    · rw [if_pos hself]
      exact ih ((held_cons.mp h).resolve_left fun he => he.1 hself)
    · rw [if_neg hself]
      by_cases hc : center = pos
      · rw [if_pos hc]
        have hshift : pos.shift 1 = { pos with x := pos.x + 1 } := by simp [ExactPosition.shift]
        rw [← hshift]
        exact scan_mono hq (Nat.le_add_right _ _)
      · rw [if_neg hc]
        exact ih ((held_cons.mp h).resolve_left fun he => hc he.2)

/-- Behind the first entry the loop walks on to the first position that no other entry holds. -/
theorem scan_tail {k : ℕ} (hheld : ∀ j < k, Held entries.tail self (pos.shift j))
    (hfree : ¬ Held entries.tail self (pos.shift k)) :
    ∃ fuel, scan entries self fuel entries.tail pos = some (pos.shift k) := by
  induction k generalizing pos with
  | zero =>
    rw [ExactPosition.shift_zero] at hfree ⊢
    exact ⟨_, scan_of_free hfree⟩
  | succ k ih =>
    have hfirst : Held entries.tail self pos := by
      simpa using hheld 0 (Nat.succ_pos k)
    rw [← ExactPosition.shift_succ] at hfree ⊢
    obtain ⟨fuel, hfuel⟩ := ih
      (fun j hj => ExactPosition.shift_succ pos j ▸ hheld (j + 1) (Nat.succ_lt_succ hj)) hfree
    exact ⟨_, scan_of_held hfirst hfuel⟩

theorem exists_free [CharZero K] (entries : List (UInt64 × ExactPosition K)) (self : UInt64)
    (pos : ExactPosition K) : ∃ k, ¬ Held entries self (pos.shift k) := by
  by_contra hall
  have hmem : ∀ k, pos.shift k ∈ (entries.map Prod.snd).toFinset := by
    intro k
    obtain ⟨e, he, _, hpos⟩ := not_not.mp (not_exists.mp hall k)
    rw [List.mem_toFinset]
    exact List.mem_map.mpr ⟨e, he, hpos⟩
  exact Set.infinite_of_injective_forall_mem pos.shift_injective hmem (Finset.finite_toSet _)

end Scan

section Table

variable {id2node : Centers K} {self : UInt64} {pos : ExactPosition K} {e : UInt64 × ExactPosition K}
  {rest : List (UInt64 × ExactPosition K)}

omit [AddCommGroupWithOne K] [DecidableEq K] in
theorem held_toList : Held id2node.toList self pos ↔ ∃ id, id ≠ self ∧ id2node[id]? = some pos := by
  constructor
  · rintro ⟨⟨id, center⟩, hmem, hself, rfl⟩
    exact ⟨id, hself, Std.ExtTreeMap.mem_toList_iff_getElem?_eq_some.mp hmem⟩
  · rintro ⟨id, hself, hid⟩
    exact ⟨(id, pos), Std.ExtTreeMap.mem_toList_iff_getElem?_eq_some.mpr hid, hself, rfl⟩

omit [AddCommGroupWithOne K] [DecidableEq K] in
theorem minKey?_of_cons (h : id2node.toList = e :: rest) : id2node.minKey? = some e.1 := by
  rw [Std.ExtTreeMap.minKey?_eq_head?_keys, ← Std.ExtTreeMap.map_fst_toList_eq_keys, h]
  rfl

omit [AddCommGroupWithOne K] [DecidableEq K] in
theorem held_tail (h : id2node.toList = e :: rest) :
    Held rest self pos ↔ ∃ id, id ≠ self ∧ id ≠ e.1 ∧ id2node[id]? = some pos := by
  have hnodup := Tables.nodup_keys id2node
  rw [h, List.map_cons, List.nodup_cons] at hnodup
  constructor
  · rintro ⟨⟨id, center⟩, hmem, hself, rfl⟩
    have hid : (id, center) ∈ id2node.toList := h ▸ List.mem_cons_of_mem _ hmem
    refine ⟨id, hself, ?_, Std.ExtTreeMap.mem_toList_iff_getElem?_eq_some.mp hid⟩
    rintro rfl
    exact hnodup.1 (List.mem_map.mpr ⟨_, hmem, rfl⟩)
  · rintro ⟨id, hself, hne, hid⟩
    have hmem := Std.ExtTreeMap.mem_toList_iff_getElem?_eq_some.mpr hid
    rw [h, List.mem_cons] at hmem
    rcases hmem with rfl | hmem
    · exact absurd rfl hne
    · exact ⟨(id, pos), hmem, hself, rfl⟩

end Table

/-- The neighbour of the smallest id, alone there, stands at the end of a chain of neighbours that
starts at the position. -/
def FirstMissed (id2node : Centers K) (self : UInt64) (pos : ExactPosition K) : Prop :=
  ∃ first k, id2node.minKey? = some first ∧ first ≠ self ∧ id2node[first]? = some (pos.shift (k + 1)) ∧
    (∀ j ≤ k, ∃ id, id ≠ self ∧ id2node[id]? = some (pos.shift j)) ∧
    ∀ id, id ≠ self → id2node[id]? = some (pos.shift (k + 1)) → id = first

theorem scan_result [CharZero K] (entries : List (UInt64 × ExactPosition K)) (self : UInt64)
    (pos : ExactPosition K) :
    (¬ Held entries self pos ∧ ∃ fuel, scan entries self fuel entries pos = some pos) ∨
    ∃ k, Held entries self pos ∧ (∀ j < k, Held entries.tail self (pos.shift (j + 1))) ∧
      ¬ Held entries.tail self (pos.shift (k + 1)) ∧
      ∃ fuel, scan entries self fuel entries pos = some (pos.shift (k + 1)) := by
  by_cases hheld : Held entries self pos
  · right
    classical
    have hfree := exists_free entries.tail self (pos.shift 1)
    obtain ⟨fuel, hfuel⟩ := scan_tail (fun j hj => not_not.mp (Nat.find_min hfree hj)) (Nat.find_spec hfree)
    refine ⟨Nat.find hfree, hheld, fun j hj => ?_, ?_, fuel + entries.length, ?_⟩
    · rw [← ExactPosition.shift_succ]
      exact not_not.mp (Nat.find_min hfree hj)
    · rw [← ExactPosition.shift_succ]
      exact Nat.find_spec hfree
    · rw [← ExactPosition.shift_succ]
      exact scan_of_held hheld hfuel
  · left
    exact ⟨hheld, _, scan_of_free hheld⟩

theorem isOverlapped_terminates [CharZero K] (id2node : Centers K) (self : UInt64) (pos : ExactPosition K) :
    ∃ fuel k, isOverlapped fuel id2node self pos = some (pos.shift k) := by
  rcases scan_result id2node.toList self pos with ⟨_, fuel, h⟩ | ⟨k, _, _, _, fuel, h⟩
  · exact ⟨fuel, 0, by simpa [isOverlapped] using h⟩
  · exact ⟨fuel, k + 1, h⟩

/-- What `move` asks of `isOverlapped`. -/
def StepsAside (id2node : Centers K) (self : UInt64) (pos : ExactPosition K) : Prop :=
  ∃ fuel k, isOverlapped fuel id2node self pos = some (pos.shift k) ∧
    ∀ id center, id ≠ self → id2node[id]? = some center → center ≠ pos.shift k

section Aside

variable {id2node : Centers K} {self : UInt64} {pos : ExactPosition K}

theorem stepsAside_iff [CharZero K] {k fuel : ℕ} (h : isOverlapped fuel id2node self pos = some (pos.shift k)) :
    StepsAside id2node self pos ↔ ¬ Held id2node.toList self (pos.shift k) := by
  rw [held_toList]
  constructor
  · rintro ⟨fuel', k', hrun, haway⟩ ⟨id, hself, hid⟩
    obtain rfl : k' = k := ExactPosition.shift_injective pos (scan_unique hrun h)
    exact haway id _ hself hid rfl
  · intro hfree
    refine ⟨fuel, k, h, fun id center hself hid hc => hfree ⟨id, hself, ?_⟩⟩
    rw [hid, hc]

omit [DecidableEq K] in
theorem FirstMissed.of_held {k : ℕ} (hheld : Held id2node.toList self pos)
    (hchain : ∀ j < k, Held id2node.toList.tail self (pos.shift (j + 1)))
    (hfree : ¬ Held id2node.toList.tail self (pos.shift (k + 1)))
    (hend : Held id2node.toList self (pos.shift (k + 1))) : FirstMissed id2node self pos := by
  cases hl : id2node.toList with
  | nil => simp [hl, Held] at hend
  | cons e rest =>
    rw [hl, List.tail_cons, held_tail hl] at hfree
    have honly : ∀ id, id ≠ self → id2node[id]? = some (pos.shift (k + 1)) → id = e.1 := by
      intro id hself hid
      by_contra hne
      exact hfree ⟨id, hself, hne, hid⟩
    obtain ⟨id, hself, hid⟩ := held_toList.mp hend
    obtain rfl := honly id hself hid
    refine ⟨e.1, k, minKey?_of_cons hl, hself, hid, fun j hj => ?_, honly⟩
    cases j with
    | zero => exact (ExactPosition.shift_zero pos).symm ▸ held_toList.mp hheld
    | succ j =>
      have htail := hchain j hj
      rw [hl, List.tail_cons, held_tail hl] at htail
      obtain ⟨id, hself, _, hid⟩ := htail
      exact ⟨id, hself, hid⟩

omit [DecidableEq K] in
theorem FirstMissed.held [CharZero K] (h : FirstMissed id2node self pos) :
    Held id2node.toList self pos ∧ ∀ k, (∀ j < k, Held id2node.toList.tail self (pos.shift (j + 1))) →
      ¬ Held id2node.toList.tail self (pos.shift (k + 1)) → Held id2node.toList self (pos.shift (k + 1)) := by
  obtain ⟨first, m, hmin, hself, hfirst, hchain, honly⟩ := h
  refine ⟨held_toList.mpr (ExactPosition.shift_zero pos ▸ hchain 0 (Nat.zero_le m)), ?_⟩
  intro k hwalk hfree
  cases hl : id2node.toList with
  | nil =>
    have hmem := Std.ExtTreeMap.mem_toList_iff_getElem?_eq_some.mpr hfirst
    simp [hl] at hmem
  | cons e rest =>
    obtain rfl : first = e.1 := Option.some.inj (hmin.symm.trans (minKey?_of_cons hl))
    rw [hl, List.tail_cons] at hwalk hfree
    -- no neighbour but the first ends the chain, and the first is not in it
    have hle : k ≤ m := by
      by_contra hlt
      obtain ⟨id, hid, hne, hat⟩ := (held_tail hl).mp (hwalk m (Nat.lt_of_not_le hlt))
      exact hne (honly id hid hat)
    have hge : m ≤ k := by
      by_contra hlt
      obtain ⟨id, hid, hat⟩ := hchain (k + 1) (Nat.lt_of_not_le hlt)
      refine hfree ((held_tail hl).mpr ⟨id, hid, ?_, hat⟩)
      rintro rfl
      rw [hfirst] at hat
      have hkm := ExactPosition.shift_injective pos (Option.some.inj hat)
      omega
    obtain rfl := Nat.le_antisymm hle hge
    exact hl ▸ held_toList.mpr ⟨e.1, hself, hfirst⟩

end Aside

/-- The shifted position is free exactly when the chain does not end at the entry the restarted loop skips. -/
theorem stepsAside_iff_not_firstMissed [CharZero K] (id2node : Centers K) (self : UInt64)
    (pos : ExactPosition K) :
    (∃ fuel k, isOverlapped fuel id2node self pos = some (pos.shift k)) ∧
      (StepsAside id2node self pos ↔ ¬ FirstMissed id2node self pos) := by
  refine ⟨isOverlapped_terminates id2node self pos, ?_⟩
  rcases scan_result id2node.toList self pos with ⟨hfree, fuel, h⟩ | ⟨k, hheld, hwalk, hfree, fuel, h⟩
  · rw [stepsAside_iff (k := 0) (by simpa [isOverlapped] using h), ExactPosition.shift_zero]
    exact iff_of_true hfree fun hmissed => hfree hmissed.held.1
  · rw [stepsAside_iff h, not_iff_not]
    exact ⟨FirstMissed.of_held hheld hwalk hfree, fun hmissed => hmissed.held.2 k hwalk hfree⟩

theorem stepsAside_iff_not_firstMissed_rational :
    let near := (∅ : Centers ℚ).insert 2 ⟨5 / 2, 0, 0⟩
    (∃ fuel k, isOverlapped fuel near 1 ⟨5 / 2, 0, 0⟩ = some (ExactPosition.shift ⟨5 / 2, 0, 0⟩ k)) ∧
      (StepsAside near 1 ⟨5 / 2, 0, 0⟩ ↔ ¬ FirstMissed near 1 ⟨5 / 2, 0, 0⟩) :=
  stepsAside_iff_not_firstMissed _ 1 ⟨5 / 2, 0, 0⟩

/-- The tables of peer 4: neighbour 2 stands one step on from neighbour 3. -/
def inLine : Centers ℤ := (((∅ : Centers ℤ).insert 4 ⟨0, 0, 0⟩).insert 2 ⟨11, 0, 0⟩).insert 3 ⟨10, 0, 0⟩

/-- Peer 4 asks for the position of neighbour 3 and moves onto neighbour 2. -/
theorem isOverlapped_onto_first : ¬ StepsAside inLine 4 ⟨10, 0, 0⟩ := by
  have hrun : isOverlapped 5 inLine 4 ⟨10, 0, 0⟩ = some ((⟨10, 0, 0⟩ : ExactPosition ℤ).shift 1) := by decide
  rw [stepsAside_iff hrun, not_not, held_toList]
  exact ⟨2, by decide, by decide⟩

end VONPeer

end VastNC
