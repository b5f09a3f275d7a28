import VastNC.BeachLine
import VastNC.Lib.Linked
import VastNC.Sweep

/-! The half-edges of edgelist.c are a doubly linked list between two ends. The operations do to it
what their names say, and the table that the search sets out from only makes it shorter. -/

namespace VastNC

open Function Linked Block

/-- The edge list holds the half-edges of `L` between its ends, and all others are marked as deleted. -/
structure EdgeList.Holds (el : EdgeList) (L : List Nat) : Prop where
  linked : Doubly el.elLeft el.elRight (el.elLeftend :: (L ++ [el.elRightend]))
  nodup : (el.elLeftend :: (L ++ [el.elRightend])).Nodup
  lt : ∀ h ∈ el.elLeftend :: (L ++ [el.elRightend]), h < el.count
  left_null : el.elEdge el.elLeftend = .null
  right_null : el.elEdge el.elRightend = .null
  edge : ∀ h ∈ L, ∃ k, el.elEdge h = .edge k
  gone : ∀ h < el.count, h ∉ el.elLeftend :: (L ++ [el.elRightend]) → el.elEdge h = .deleted
  size : 2 ≤ el.elHash.length
  hash_first : el.elHash[0]? = some (some el.elLeftend)
  hash_last : el.elHash[el.elHash.length - 1]? = some (some el.elRightend)
  hash_lt : ∀ i h : Nat, el.elHash[i]? = some (some h) → h < el.count
  ending : el.elRight el.elRightend = none

/-- `y` and `x` are neighbours in the edge list where it falls into `l` and `r`. -/
structure EdgeList.Gap (el : EdgeList) (L l r : List Nat) (y x : Nat) : Prop where
  split : L = l ++ r
  last : ∃ pre, el.elLeftend :: l = pre ++ [y]
  first : ∃ post, r ++ [el.elRightend] = x :: post

namespace EdgeList

variable {el : EdgeList} {L l r : List Nat} {h k y x a b : Nat}

theorem Holds.length_lt (hh : el.Holds L) : L.length + 2 ≤ el.count := by
  have hsub : (el.elLeftend :: (L ++ [el.elRightend])).Subperm (List.range el.count) :=
    hh.nodup.subperm (fun x hx => List.mem_range.mpr (hh.lt x hx))
  have := hsub.length_le
  simp only [List.length_cons, List.length_append, List.length_nil, List.length_range] at this
  omega

theorem Holds.ne_left (hh : el.Holds L) (hm : h ∈ L) : h ≠ el.elLeftend :=
  fun he => (List.nodup_cons.mp hh.nodup).1 (he ▸ List.mem_append_left [el.elRightend] hm)

theorem Holds.ne_right (hh : el.Holds L) (hm : h ∈ L) : h ≠ el.elRightend := by
  have hd := List.disjoint_of_nodup_append (List.nodup_cons.mp hh.nodup).2
  exact fun he => hd hm (List.mem_singleton.mpr he)

theorem Holds.nodup_beach (hh : el.Holds L) : L.Nodup :=
  (List.nodup_append.mp (List.nodup_cons.mp hh.nodup).2).1

theorem Holds.lt_of_mem (hh : el.Holds L) (hm : h ∈ L) : h < el.count :=
  hh.lt h (List.mem_cons_of_mem _ (List.mem_append_left _ hm))

theorem Gap.cells (g : el.Gap L l r y x) :
    ∃ pre post, el.elLeftend :: (L ++ [el.elRightend]) = pre ++ y :: x :: post ∧
      el.elLeftend :: l = pre ++ [y] ∧ r ++ [el.elRightend] = x :: post := by
  obtain ⟨pre, hpre⟩ := g.last
  obtain ⟨post, hpost⟩ := g.first
  refine ⟨pre, post, ?_, hpre, hpost⟩
  rw [g.split, List.append_assoc, hpost, ← List.cons_append, hpre, List.append_assoc]
  rfl

theorem Gap.right (g : el.Gap L l r y x) (hh : el.Holds L) : el.elRight y = some x := by
  obtain ⟨pre, post, hall, -, -⟩ := g.cells
  exact (hall ▸ hh.linked).at.1

theorem Gap.left (g : el.Gap L l r y x) (hh : el.Holds L) : el.elLeft x = some y := by
  obtain ⟨pre, post, hall, -, -⟩ := g.cells
  exact (hall ▸ hh.linked).at.2

theorem Gap.left_mem (g : el.Gap L l r y x) : y ∈ el.elLeftend :: l := by
  obtain ⟨pre, hpre⟩ := g.last
  simp [hpre]

theorem Gap.left_ne (g : el.Gap L l r y x) (hh : el.Holds L) : y ≠ el.elRightend := by
  rcases List.mem_cons.mp g.left_mem with rfl | hy
  · exact fun he => (List.nodup_cons.mp hh.nodup).1 (he ▸ by simp)
  · exact hh.ne_right (g.split ▸ List.mem_append_left r hy)

theorem exists_last (el : EdgeList) (l : List Nat) : ∃ y pre, el.elLeftend :: l = pre ++ [y] := by
  rcases List.eq_nil_or_concat (el.elLeftend :: l) with h | ⟨pre, y, h⟩
  · exact absurd h (List.cons_ne_nil _ _)
  · exact ⟨y, pre, by rw [h, List.concat_eq_append]⟩

/-- The two gaps beside a half-edge of the list. -/
theorem exists_gap_left (el : EdgeList) (hL : L = l ++ h :: r) : ∃ y, el.Gap L l (h :: r) y h := by
  obtain ⟨y, hy⟩ := exists_last el l
  exact ⟨y, hL, hy, r ++ [el.elRightend], rfl⟩

theorem exists_gap_right (el : EdgeList) (hL : L = l ++ h :: r) : ∃ x, el.Gap L (l ++ [h]) r h x := by
  cases r with
  | nil => exact ⟨el.elRightend, by simp [hL], ⟨el.elLeftend :: l, rfl⟩, [], rfl⟩
  | cons b r => exact ⟨b, by simp [hL], ⟨el.elLeftend :: l, rfl⟩, r ++ [el.elRightend], rfl⟩

end EdgeList

namespace Sweep

variable {K : Type} {s : Sweep K} {L l r : List Nat} {he y x fuel bucket i : Nat} {p : Point K}

def setHash (s : Sweep K) (hash : List (Option Nat)) : Sweep K := { s with el := { s.el with elHash := hash } }

section Table

theorem elGethash_cases (h : s.el.Holds L) (b : Int) :
    (∃ he ∈ s.el.elLeftend :: (L ++ [s.el.elRightend]), s.elGethash b = (some he, s)) ∨
      ∃ hash, s.elGethash b = (none, s.setHash hash) ∧ (s.setHash hash).el.Holds L ∧
        hash.length = s.el.elHash.length := by
  unfold elGethash
  split
  · exact .inr ⟨s.el.elHash, rfl, h, rfl⟩
  · split
    · exact .inr ⟨s.el.elHash, rfl, h, rfl⟩
    · next he hhe =>
      obtain ⟨o, ho, heo⟩ : ∃ o, s.el.elHash[b.toNat]? = some o ∧ o = some he := by
        cases ho : s.el.elHash[b.toNat]? with
        | none => simp [ho] at hhe
        | some o => exact ⟨o, rfl, by simpa [ho] using hhe⟩
      subst heo
      split
      · next hne =>
        refine .inl ⟨he, ?_, rfl⟩
        by_contra hout
        exact hne (h.gone he (h.hash_lt _ he ho) hout)
      · next hdel =>
        have hdel : s.el.elEdge he = .deleted := not_not.mp hdel
        have hfirst : b.toNat ≠ 0 := by
          intro h0
          have := h.hash_first
          rw [← h0, ho] at this
          have hl := h.left_null
          rw [← Option.some.inj (Option.some.inj this), hdel] at hl
          exact EdgePtr.noConfusion hl
        have hlast : b.toNat ≠ s.el.elHash.length - 1 := by
          intro h0
          have := h.hash_last
          rw [← h0, ho] at this
          have hl := h.right_null
          rw [← Option.some.inj (Option.some.inj this), hdel] at hl
          exact EdgePtr.noConfusion hl
        refine .inr ⟨s.el.elHash.set b.toNat none, rfl, ?_, List.length_set⟩
        exact
          { h with
            size := by simpa [setHash] using h.size
            hash_first := by simpa [setHash, List.getElem?_set, hfirst] using h.hash_first
            hash_last := by simpa [setHash, List.getElem?_set, hlast] using h.hash_last
            hash_lt := fun i c hc => by
              rw [setHash, List.getElem?_set] at hc
              split at hc
              · split at hc <;> simp at hc
              · exact h.hash_lt i c hc }

theorem elGethash_zero (h : s.el.Holds L) : s.elGethash 0 = (some s.el.elLeftend, s) := by
  have h0 : s.el.elHash[(0 : Int).toNat]?.join = some s.el.elLeftend := by
    rw [Int.toNat_zero, h.hash_first]
    rfl
  have hsize := h.size
  have hrange : ¬ ((0 : Int) < 0 ∨ (0 : Int) ≥ s.el.elHash.length) := by omega
  unfold elGethash
  rw [if_neg hrange, h0]
  exact if_pos (by rw [h.left_null]; exact EdgePtr.noConfusion)

/-- The search through the table ends: its first entry is never empty. -/
theorem elSearch_ok (h : s.el.Holds L) (hi : i ≤ bucket) (hfuel : bucket < fuel + i) :
    ∃ he ∈ s.el.elLeftend :: (L ++ [s.el.elRightend]), ∃ hash,
      s.elSearch bucket fuel i = .ok (he, s.setHash hash) ∧ (s.setHash hash).el.Holds L ∧
        hash.length = s.el.elHash.length := by
  induction fuel generalizing s i with
  | zero => omega
  | succ fuel ih =>
    unfold elSearch
    rcases elGethash_cases h ((bucket : Int) - i) with ⟨he, hm, hg⟩ | ⟨hash, hg, hh, hlen⟩
    · exact ⟨he, hm, s.el.elHash, by rw [hg]; rfl, h, rfl⟩
    · rcases Nat.lt_or_ge i bucket with hlt | hge
      · rcases elGethash_cases hh ((bucket : Int) + i) with ⟨he, hm, hg'⟩ | ⟨hash', hg', hh', hlen'⟩
        · exact ⟨he, hm, hash, by rw [hg]; simp only [hg'], hh, hlen⟩
        · obtain ⟨he, hm, hash'', ho, hh'', hlen''⟩ := ih hh' (by omega : i + 1 ≤ bucket) (by omega)
          exact ⟨he, hm, hash'', by rw [hg]; simp only [hg']; exact ho, hh'', hlen''.trans (hlen'.trans hlen)⟩
      · have h0 : (bucket : Int) - i = 0 := by omega
        rw [h0, elGethash_zero h] at hg
        exact nomatch hg

theorem elEntry_ok (h : s.el.Holds L) (hb : bucket < s.el.elHash.length) :
    ∃ he ∈ s.el.elLeftend :: (L ++ [s.el.elRightend]), ∃ hash,
      s.elEntry bucket = .ok (he, s.setHash hash) ∧ (s.setHash hash).el.Holds L ∧
        hash.length = s.el.elHash.length := by
  unfold elEntry
  rcases elGethash_cases h bucket with ⟨he, hm, hg⟩ | ⟨hash, hg, hh, hlen⟩
  · exact ⟨he, hm, s.el.elHash, by rw [hg]; rfl, h, rfl⟩
  · rcases Nat.eq_zero_or_pos bucket with rfl | hpos
    · rw [Int.natCast_zero, elGethash_zero h] at hg
      exact nomatch hg
    · have hl : (s.setHash hash).el.elHash.length = s.el.elHash.length := hlen
      obtain ⟨he, hm, hash', ho, hh', hlen'⟩ := elSearch_ok hh hpos (hl ▸ Nat.lt_succ_of_lt hb)
      exact ⟨he, hm, hash', by rw [hg]; exact ho, hh', hlen'.trans hlen⟩

theorem clamp_lt {b : Int} {size : Nat} (h : 0 < size) : clamp b size < size := by
  unfold clamp
  dsimp only
  split <;> split <;> omega

end Table

theorem elDelete_ok (h : s.el.Holds (l ++ he :: r)) :
    ∃ el', s.elDelete he = .ok { s with el := el' } ∧ el'.Holds (l ++ r) ∧
      el'.elEdge = update s.el.elEdge he .deleted ∧ el'.elPm = s.el.elPm ∧ el'.count = s.el.count ∧
      el'.elLeftend = s.el.elLeftend ∧ el'.elRightend = s.el.elRightend := by
  obtain ⟨y, gl⟩ := EdgeList.exists_gap_left s.el (rfl : l ++ he :: r = l ++ he :: r)
  obtain ⟨x, gr⟩ := EdgeList.exists_gap_right s.el (rfl : l ++ he :: r = l ++ he :: r)
  obtain ⟨pre, hpre⟩ := gl.last
  obtain ⟨post, hpost⟩ := gr.first
  have hmem : he ∈ l ++ he :: r := by simp
  have hcells : s.el.elLeftend :: ((l ++ he :: r) ++ [s.el.elRightend]) = pre ++ y :: he :: x :: post := by
    rw [List.append_assoc, List.cons_append, hpost, ← List.cons_append, hpre, List.append_assoc]
    rfl
  have hcells' : s.el.elLeftend :: ((l ++ r) ++ [s.el.elRightend]) = pre ++ y :: x :: post := by
    rw [List.append_assoc, hpost, ← List.cons_append, hpre, List.append_assoc]
    rfl
  have hperm : (s.el.elLeftend :: ((l ++ he :: r) ++ [s.el.elRightend])).Perm
      (he :: (s.el.elLeftend :: ((l ++ r) ++ [s.el.elRightend]))) := by
    rw [hcells, hcells']
    exact (List.Perm.append_left pre (List.Perm.swap _ _ _)).trans List.perm_middle
  have hnd := List.nodup_cons.mp (hperm.nodup_iff.mp h.nodup)
  have hedge : ∀ z, z ≠ he → update s.el.elEdge he .deleted z = s.el.elEdge z := fun z hz => update_of_ne hz ..
  have hold : ∀ z, z ∈ s.el.elLeftend :: ((l ++ r) ++ [s.el.elRightend]) → z ≠ he := fun z hz e => hnd.1 (e ▸ hz)
  refine ⟨{ s.el with
      elRight := update s.el.elRight y (some x)
      elLeft := update s.el.elLeft x (some y)
      elEdge := update s.el.elEdge he .deleted }, ?_, ?_, rfl, rfl, rfl, rfl, rfl⟩
  · unfold elDelete
    rw [gl.left h, gr.right h]
    rfl
  · refine ⟨?_, hnd.2, ?_, ?_, ?_, ?_, ?_, h.size, h.hash_first, h.hash_last, h.hash_lt,
      (update_of_ne (gl.left_ne h).symm ..).trans h.ending⟩
    · show Doubly (update s.el.elLeft x (some y)) (update s.el.elRight y (some x)) _
      rw [← gl.left h, ← gr.right h]
      show Doubly _ _ (s.el.elLeftend :: ((l ++ r) ++ [s.el.elRightend]))
      rw [hcells']
      exact (hcells ▸ h.linked).remove (hcells ▸ h.nodup)
    · exact fun z hz => h.lt z (hperm.mem_iff.mpr (List.mem_cons_of_mem he hz))
    · exact (hedge _ (hold _ (List.mem_cons_self ..))).trans h.left_null
    · exact (hedge s.el.elRightend (hold _ (by simp))).trans h.right_null
    · intro z hz
      show ∃ j, update s.el.elEdge he .deleted z = .edge j
      rw [hedge z (hold z (List.mem_cons_of_mem _ (List.mem_append_left _ hz)))]
      refine h.edge z ?_
      rcases List.mem_append.mp hz with hz | hz <;> simp [hz]
    · intro z hz hout
      show update s.el.elEdge he .deleted z = .deleted
      by_cases hzh : z = he
      · rw [hzh, update_self]
      · rw [hedge z hzh]
        exact h.gone z hz (fun hm => ((List.mem_cons.mp (hperm.mem_iff.mp hm)).resolve_left hzh) |> hout)

variable [Double K]

section Walk

theorem rightOf_ok {e : Edge K} (h : s.edgeOf he = .ok e) : ∃ t, s.rightOf he p = .ok t := by
  unfold rightOf
  rw [h]
  simp only [ok_bind]
  split
  · exact ⟨true, rfl⟩
  · split
    · exact ⟨false, rfl⟩
    · exact ⟨_, rfl⟩

/-- A point is right of the left end, and of the half-edges for which `rightOf` says so. -/
def LeftBound (s : Sweep K) (p : Point K) (y : Nat) : Prop := y = s.el.elLeftend ∨ s.rightOf y p = .ok true

def RightBound (s : Sweep K) (p : Point K) (x : Nat) : Prop := x = s.el.elRightend ∨ s.rightOf x p = .ok false

theorem goRight_ok (h : s.el.Holds L) (hv : ∀ h ∈ L, ∃ t, s.rightOf h p = .ok t) (hL : L = l ++ r)
    (hy : ∃ pre, s.el.elLeftend :: l = pre ++ [y]) (hyb : s.LeftBound p y) (hfuel : r.length < fuel) :
    ∃ l' r' y' x', s.el.Gap L l' r' y' x' ∧ s.LeftBound p y' ∧ s.RightBound p x' ∧
      s.goRight p fuel y = .ok x' := by
  induction r generalizing l y fuel with
  | nil =>
    obtain ⟨fuel, rfl⟩ : ∃ n, fuel = n + 1 := ⟨fuel - 1, by simp at hfuel; omega⟩
    have g : s.el.Gap L l [] y s.el.elRightend := ⟨hL, hy, [], rfl⟩
    refine ⟨l, [], y, s.el.elRightend, g, hyb, .inl rfl, ?_⟩
    rw [goRight, g.right h, deref_some, ok_bind, if_pos rfl]
    rfl
  | cons c r ih =>
    obtain ⟨fuel, rfl⟩ : ∃ n, fuel = n + 1 := ⟨fuel - 1, by simp at hfuel; omega⟩
    have g : s.el.Gap L l (c :: r) y c := ⟨hL, hy, r ++ [s.el.elRightend], rfl⟩
    have hc : c ∈ L := by simp [hL]
    obtain ⟨t, ht⟩ := hv c hc
    have hstep : s.goRight p (fuel + 1) y = if t = true then s.goRight p fuel c else .ok c := by
      rw [goRight, g.right h, deref_some, ok_bind, if_neg (h.ne_right hc), ht]
      rfl
    cases t with
    | false => exact ⟨l, c :: r, y, c, g, hyb, .inr ht, hstep⟩
    | true =>
      have hlen : r.length < fuel := by simpa using hfuel
      obtain ⟨l', r', y', x', g', hy', hx', ho⟩ :=
        ih (l := l ++ [c]) (by simp [hL]) ⟨s.el.elLeftend :: l, rfl⟩ (.inr ht) hlen
      exact ⟨l', r', y', x', g', hy', hx', hstep.trans ho⟩

theorem goLeft_ok (h : s.el.Holds L) (hv : ∀ h ∈ L, ∃ t, s.rightOf h p = .ok t) (hL : L = l ++ r)
    (hx : ∃ post, r ++ [s.el.elRightend] = x :: post) (hxb : s.RightBound p x) (hfuel : l.length < fuel) :
    ∃ l' r' y' x', s.el.Gap L l' r' y' x' ∧ s.LeftBound p y' ∧ s.RightBound p x' ∧
      s.goLeft p fuel x = .ok y' := by
  induction l using List.reverseRecOn generalizing r x fuel with
  | nil =>
    obtain ⟨fuel, rfl⟩ : ∃ n, fuel = n + 1 := ⟨fuel - 1, by simp at hfuel; omega⟩
    have g : s.el.Gap L [] r s.el.elLeftend x := ⟨hL, ⟨[], rfl⟩, hx⟩
    refine ⟨[], r, s.el.elLeftend, x, g, .inl rfl, hxb, ?_⟩
    rw [goLeft, g.left h, deref_some, ok_bind, if_pos rfl]
    rfl
  | append_singleton l c ih =>
    obtain ⟨fuel, rfl⟩ : ∃ n, fuel = n + 1 := ⟨fuel - 1, by simp at hfuel; omega⟩
    have g : s.el.Gap L (l ++ [c]) r c x := ⟨hL, ⟨s.el.elLeftend :: l, rfl⟩, hx⟩
    have hc : c ∈ L := by simp [hL]
    obtain ⟨t, ht⟩ := hv c hc
    have hstep : s.goLeft p (fuel + 1) x = if t = true then .ok c else s.goLeft p fuel c := by
      rw [goLeft, g.left h, deref_some, ok_bind, if_neg (h.ne_left hc), ht]
      rfl
    cases t with
    | true => exact ⟨l ++ [c], r, c, x, g, .inr ht, hxb, hstep⟩
    | false =>
      have hlen : l.length < fuel := by simpa using hfuel
      obtain ⟨l', r', y', x', g', hy', hx', ho⟩ :=
        ih (r := c :: r) (by simp [hL]) ⟨r ++ [s.el.elRightend], rfl⟩ (.inr ht) hlen
      exact ⟨l', r', y', x', g', hy', hx', hstep.trans ho⟩

/-- From wherever the search sets out, it ends where the point is right of the one half-edge and not
of the next. -/
theorem elWalk_ok (h : s.el.Holds L) (hv : ∀ h ∈ L, ∃ t, s.rightOf h p = .ok t)
    (hm : he ∈ s.el.elLeftend :: (L ++ [s.el.elRightend])) :
    ∃ l r y x, s.el.Gap L l r y x ∧ s.LeftBound p y ∧ s.RightBound p x ∧ s.elWalk he p = .ok y := by
  have hcount := h.length_lt
  have forward : ∀ l r y, L = l ++ r → (∃ pre, s.el.elLeftend :: l = pre ++ [y]) → s.LeftBound p y →
      ∃ l r y' x, s.el.Gap L l r y' x ∧ s.LeftBound p y' ∧ s.RightBound p x ∧
        (do
          let he ← s.goRight p (s.el.count + 1) y
          deref "ELleft is null" (s.el.elLeft he)) = .ok y' := by
    intro l r y hL hy hyb
    have hlen : r.length < s.el.count + 1 := by
      have := congrArg List.length hL
      rw [List.length_append] at this
      omega
    obtain ⟨l', r', y', x', g, hy', hx', ho⟩ := goRight_ok h hv hL hy hyb hlen
    exact ⟨l', r', y', x', g, hy', hx', by rw [ho, ok_bind, g.left h, deref_some]⟩
  unfold elWalk
  by_cases hleft : he = s.el.elLeftend
  · obtain ⟨l, r, y, x, g, hy, hx, ho⟩ := forward [] L he rfl ⟨[], by rw [hleft]; rfl⟩ (.inl hleft)
    refine ⟨l, r, y, x, g, hy, hx, ?_⟩
    rw [if_pos hleft]
    exact ho
  · by_cases hright : he = s.el.elRightend
    · have hlen : L.length < s.el.count + 1 := by omega
      obtain ⟨l, r, y, x, g, hy, hx, ho⟩ :=
        goLeft_ok h hv (List.append_nil L).symm ⟨[], by rw [hright]; rfl⟩ (.inl hright) hlen
      refine ⟨l, r, y, x, g, hy, hx, ?_⟩
      rw [if_neg hleft, if_pos hright]
      exact ho
    · have hmL : he ∈ L := by simpa [hleft, hright] using hm
      obtain ⟨l, r, hL⟩ := List.append_of_mem hmL
      obtain ⟨t, ht⟩ := hv he hmL
      cases t with
      | true =>
        obtain ⟨l', r', y, x, g, hy, hx, ho⟩ :=
          forward (l ++ [he]) r he (by simp [hL]) ⟨s.el.elLeftend :: l, rfl⟩ (.inr ht)
        refine ⟨l', r', y, x, g, hy, hx, ?_⟩
        rw [if_neg hleft, if_neg hright, ht]
        exact ho
      | false =>
        have hlen : l.length < s.el.count + 1 := by
          have := congrArg List.length hL
          rw [List.length_append] at this
          omega
        obtain ⟨l', r', y, x, g, hy, hx, ho⟩ :=
          goLeft_ok h hv hL ⟨r ++ [s.el.elRightend], rfl⟩ (.inr ht) hlen
        refine ⟨l', r', y, x, g, hy, hx, ?_⟩
        rw [if_neg hleft, if_neg hright, ht]
        exact ho

theorem elLeftbnd_ok (h : s.el.Holds L) (hv : ∀ h ∈ L, ∃ e, s.edgeOf h = .ok e) (p : Point K) :
    ∃ l r y x hash, s.el.Gap L l r y x ∧ s.LeftBound p y ∧ s.RightBound p x ∧
      s.elLeftbnd p = .ok (y, s.setHash hash) ∧ (s.setHash hash).el.Holds L := by
  have hr : ∀ h ∈ L, ∃ t, s.rightOf h p = .ok t := by
    intro c hc
    obtain ⟨e, he⟩ := hv c hc
    exact rightOf_ok he
  have hsize := h.size
  unfold elLeftbnd
  dsimp only
  generalize hbucket : clamp _ s.el.elHash.length = bucket
  have hb : bucket < s.el.elHash.length := hbucket ▸ clamp_lt (by omega)
  obtain ⟨he, hm, hash, hentry, hh, hlen⟩ := elEntry_ok h hb
  obtain ⟨l, r, y, x, g, hy, hx, hwalk⟩ := elWalk_ok (s := s.setHash hash) hh hr hm
  have hlt : y < s.el.count := h.lt y (by
    rcases List.mem_cons.mp g.left_mem with he | hl
    · exact he ▸ List.mem_cons_self ..
    · rw [g.split]
      simp [hl])
  rw [hentry]
  simp only [ok_bind, hwalk]
  split
  · next hrange =>
    refine ⟨l, r, y, x, hash.set bucket (some y), ⟨g.split, g.last, g.first⟩, hy, hx, rfl, ?_⟩
    have hfirst : bucket ≠ 0 := by omega
    have hlast : bucket ≠ hash.length - 1 := by omega
    exact
      { hh with
        size := by simpa [setHash] using hh.size
        hash_first := by simpa [setHash, List.getElem?_set, hfirst] using hh.hash_first
        hash_last := by simpa [setHash, List.getElem?_set, hlast] using hh.hash_last
        hash_lt := fun i c hc => by
          rw [setHash, List.getElem?_set] at hc
          split at hc
          · split at hc
            · exact Option.some.inj (Option.some.inj hc) ▸ hlt
            · exact nomatch hc
          · exact hh.hash_lt i c hc }
  · exact ⟨l, r, y, x, hash, ⟨g.split, g.last, g.first⟩, hy, hx, rfl, hh⟩

end Walk

/-- What the two halves of an insertion leave: the new half-edge lies in the gap. -/
theorem elInsert_ok (h : s.el.Holds L) (g : s.el.Gap L l r y x) (k : Nat) (pm : EdgeSide) :
    ∃ el', (s.heCreate (.edge k) pm).2.elInsert y s.el.count = .ok { (s.heCreate (.edge k) pm).2 with el := el' } ∧
      el'.Holds (l ++ s.el.count :: r) ∧ el'.elEdge = update s.el.elEdge s.el.count (.edge k) ∧
      el'.elPm = update s.el.elPm s.el.count pm ∧ el'.count = s.el.count + 1 ∧
      el'.elLeftend = s.el.elLeftend ∧ el'.elRightend = s.el.elRightend := by
  obtain ⟨pre, post, hall, hl, hr⟩ := g.cells
  have hright : (s.heCreate (.edge k) pm).2.el.elRight y = some x := g.right h
  have hnew : s.el.count ∉ s.el.elLeftend :: (L ++ [s.el.elRightend]) := fun hm => Nat.lt_irrefl _ (h.lt _ hm)
  have hcells : s.el.elLeftend :: ((l ++ s.el.count :: r) ++ [s.el.elRightend]) = pre ++ y :: s.el.count :: x :: post := by
    rw [List.append_assoc, List.cons_append, hr, ← List.cons_append, hl, List.append_assoc]
    rfl
  have hperm : (s.el.elLeftend :: ((l ++ s.el.count :: r) ++ [s.el.elRightend])).Perm
      (s.el.count :: (s.el.elLeftend :: (L ++ [s.el.elRightend]))) := by
    rw [hcells, hall]
    exact (List.Perm.append_left pre (List.Perm.swap _ _ _)).trans List.perm_middle
  have hold : ∀ z, z ∈ s.el.elLeftend :: (L ++ [s.el.elRightend]) → z ≠ s.el.count := fun z hz he => hnew (he ▸ hz)
  have hedge : ∀ z, z ≠ s.el.count → update s.el.elEdge s.el.count (.edge k) z = s.el.elEdge z :=
    fun z hz => update_of_ne hz ..
  refine ⟨{ (s.heCreate (.edge k) pm).2.el with
      elLeft := update (update s.el.elLeft s.el.count (some y)) x (some s.el.count)
      elRight := update (update s.el.elRight s.el.count (some x)) y (some s.el.count) }, ?_, ?_, rfl, rfl, rfl, rfl, rfl⟩
  · unfold elInsert
    rw [hright, deref_some, ok_bind]
    rfl
  · refine ⟨?_, ?_, ?_, ?_, ?_, ?_, ?_, h.size, h.hash_first, h.hash_last, ?_, ?_⟩
    · show Doubly _ _ (s.el.elLeftend :: ((l ++ s.el.count :: r) ++ [s.el.elRightend]))
      rw [hcells]
      exact (hall ▸ h.linked).insert (hall ▸ h.nodup) (hall ▸ hnew)
    · exact hperm.nodup_iff.mpr (List.nodup_cons.mpr ⟨hnew, h.nodup⟩)
    · intro z hz
      show z < s.el.count + 1
      rcases List.mem_cons.mp (hperm.mem_iff.mp hz) with rfl | hz
      · omega
      · exact Nat.lt_succ_of_lt (h.lt z hz)
    · exact (hedge _ (hold _ (List.mem_cons_self ..))).trans h.left_null
    · exact (hedge s.el.elRightend (hold _ (by simp))).trans h.right_null
    · intro z hz
      show ∃ j, update s.el.elEdge s.el.count (.edge k) z = .edge j
      have hz' : z = s.el.count ∨ z ∈ L := by
        have hm : z ∈ l ++ s.el.count :: r := hz
        rw [g.split]
        simpa [or_left_comm] using hm
      rcases hz' with rfl | hz'
      · exact ⟨k, update_self ..⟩
      · rw [hedge z (hold z (by simp [hz']))]
        exact h.edge z hz'
    · intro z hz hout
      have hz' := mt hperm.mem_iff.mpr hout
      have hne : z ≠ s.el.count := fun he => hz' (he ▸ List.mem_cons_self ..)
      show update s.el.elEdge s.el.count (.edge k) z = .deleted
      rw [hedge z hne]
      exact h.gone z (lt_of_le_of_ne (Nat.lt_succ_iff.mp hz) hne) (fun hm => hz' (List.mem_cons_of_mem _ hm))
    · intro i c hc
      exact Nat.lt_succ_of_lt (h.hash_lt i c hc)
    · show update (update s.el.elRight s.el.count (some x)) y (some s.el.count) s.el.elRightend = none
      rw [update_of_ne (g.left_ne h).symm, update_of_ne (hold _ (by simp))]
      exact h.ending

end Sweep

end VastNC
