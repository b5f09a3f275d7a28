import Mathlib.Data.List.Pairwise
import Mathlib.Data.List.Range

/-! Regions of memory blocks: when they do not overlap, and how a region is cut into equal pieces. -/

namespace Regions

variable {β : Type*}

structure Region (β : Type*) where
  block : β
  off : Nat
  len : Nat

variable {a b r t : Region β} {l l' : List (Region β)} {size n : Nat}

def Apart (a b : Region β) : Prop := a.block = b.block → a.off + a.len ≤ b.off ∨ b.off + b.len ≤ a.off

def Within (a r : Region β) : Prop := a.block = r.block ∧ r.off ≤ a.off ∧ a.off + a.len ≤ r.off + r.len

theorem Apart.symm (h : Apart a b) : Apart b a := fun he => (h he.symm).symm

theorem Apart.within (h : Apart r b) (ha : Within a r) : Apart a b := by
  intro he
  have hoff := h (ha.1.symm.trans he)
  have hin := ha.2
  omega

/-- No two of the regions overlap. -/
def Separate (l : List (Region β)) : Prop := l.Pairwise Apart

theorem Separate.perm (h : Separate l) (hp : l.Perm l') : Separate l' :=
  (hp.pairwise_iff fun hab => hab.symm).mp h

theorem separate_cons : Separate (r :: l) ↔ (∀ x ∈ l, Apart r x) ∧ Separate l := List.pairwise_cons

/-- The region as `n` pieces of one size. -/
def cut (r : Region β) (size n : Nat) : List (Region β) :=
  (List.range n).map fun i => ⟨r.block, r.off + i * size, size⟩

theorem length_cut : (cut r size n).length = n := by rw [cut, List.length_map, List.length_range]

theorem within_of_mem_cut (h : n * size ≤ r.len) (ht : t ∈ cut r size n) : Within t r := by
  obtain ⟨i, hi, rfl⟩ := List.mem_map.mp ht
  have hlast := Nat.mul_le_mul_right size (Nat.succ_le_of_lt (List.mem_range.mp hi))
  rw [Nat.succ_mul] at hlast
  refine ⟨rfl, Nat.le_add_right _ _, ?_⟩
  dsimp only
  omega

theorem separate_cut : Separate (cut r size n) := by
  refine List.pairwise_map.mpr (List.pairwise_lt_range.imp fun {i j} hij _ => .inl ?_)
  have hstep := Nat.mul_le_mul_right size (Nat.succ_le_of_lt hij)
  rw [Nat.succ_mul] at hstep
  dsimp only
  omega

/-- A region may be replaced by its pieces. -/
theorem Separate.cut_append (h : Separate (r :: l)) (hn : n * size ≤ r.len) :
    Separate (cut r size n ++ l) := by
  obtain ⟨hr, hl⟩ := separate_cons.mp h
  refine List.pairwise_append.mpr ⟨separate_cut, hl, fun t ht x hx => ?_⟩
  exact (hr x hx).within (within_of_mem_cut hn ht)

end Regions
