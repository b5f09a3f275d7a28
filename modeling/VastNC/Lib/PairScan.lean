import Mathlib

/-! A scan that visits each unordered pair of a list once and updates both ends, closing an
element when it has met all later ones. If an update reads only a part of the other element
that updates leave alone, the scan is as good as letting each element meet all the others. -/

namespace PairScan

variable {α β : Type*} (meet : α → α → α) (close : α → α)

def meetRest (a : α) : List α → α × List α
  | [] => (a, [])
  | b :: rest =>
    let a := meet a b
    let b := meet b a
    ((meetRest a rest).1, b :: (meetRest a rest).2)

def scan : Nat → List α → List α
  | 0, _ => []
  | _ + 1, [] => []
  | n + 1, a :: rest => close (meetRest meet a rest).1 :: scan n (meetRest meet a rest).2

/-- Each element of the list is mapped together with the others, in their order. -/
def mapOthers (f : α → List α → β) (pre : List α) : List α → List β
  | [] => []
  | a :: rest => f a (pre ++ rest) :: mapOthers f (pre ++ [a]) rest

variable {meet close}

theorem meet_foldl (hmeet : ∀ a b c, meet a (meet b c) = meet a b) (x a : α) (l : List α) :
    meet x (l.foldl meet a) = meet x a := by
  induction l generalizing a with
  | nil => rfl
  | cons b l ih => rw [List.foldl_cons, ih, hmeet]

theorem meetRest_map (hmeet : ∀ a b c, meet a (meet b c) = meet a b) {A a : α} {R : α → α}
    (hA : ∀ x, meet x A = meet x a) (hR : ∀ x s, meet x (R s) = meet x s) (rest : List α) :
    meetRest meet A (rest.map R) = (rest.foldl meet A, rest.map (fun s => meet (R s) a)) := by
  induction rest generalizing A with
  | nil => rfl
  | cons b rest ih =>
    have hb : ∀ x, meet x (meet A (R b)) = meet x a := fun x => by rw [hmeet, hA]
    rw [List.map_cons, meetRest, ih hb, hb, hR, List.foldl_cons, List.map_cons]

theorem scan_map_foldl (close : α → α) (hmeet : ∀ a b c, meet a (meet b c) = meet a b) (pre l : List α) :
    scan meet close l.length (l.map (fun s => pre.foldl meet s)) =
      mapOthers (fun a others => close (others.foldl meet a)) pre l := by
  induction l generalizing pre with
  | nil => rfl
  | cons a rest ih =>
    have hrest : (fun s => meet (pre.foldl meet s) a) = fun s => (pre ++ [a]).foldl meet s := by
      funext s
      rw [List.foldl_append, List.foldl_cons, List.foldl_nil]
    rw [List.length_cons, List.map_cons, scan, meetRest_map hmeet (meet_foldl hmeet · a pre)
      (fun x s => meet_foldl hmeet x s pre), hrest, ih, mapOthers, List.foldl_append]

theorem scan_eq_mapOthers (hmeet : ∀ a b c, meet a (meet b c) = meet a b) (l : List α) :
    scan meet close l.length l = mapOthers (fun a others => close (others.foldl meet a)) [] l := by
  have h := scan_map_foldl close hmeet [] l
  rwa [show (fun s : α => [].foldl meet s) = id from rfl, List.map_id] at h

theorem mem_mapOthers {f : α → List α → β} {pre l : List α} {x : β} : x ∈ mapOthers f pre l ↔
    ∃ l₁ a l₂, l = l₁ ++ a :: l₂ ∧ x = f a (pre ++ l₁ ++ l₂) := by
  induction l generalizing pre with
  | nil => simp [mapOthers]
  | cons b rest ih =>
    rw [mapOthers, List.mem_cons, ih]
    constructor
    · rintro (rfl | ⟨l₁, a, l₂, rfl, rfl⟩)
      · exact ⟨[], b, rest, rfl, by rw [List.append_nil]⟩
      · exact ⟨b :: l₁, a, l₂, rfl, by simp⟩
    · rintro ⟨l₁, a, l₂, he, rfl⟩
      cases l₁ with
      | nil =>
        obtain ⟨rfl, rfl⟩ := List.cons.inj he
        exact .inl (by rw [List.append_nil])
      | cons c l₁ =>
        obtain ⟨rfl, rfl⟩ := List.cons.inj he
        exact .inr ⟨l₁, a, l₂, rfl, by simp⟩

theorem map_mapOthers {γ : Type*} (g : β → γ) (h : α → γ) {f : α → List α → β}
    (hf : ∀ a others, g (f a others) = h a) (pre l : List α) :
    (mapOthers f pre l).map g = l.map h := by
  induction l generalizing pre with
  | nil => rfl
  | cons a rest ih => rw [mapOthers, List.map_cons, List.map_cons, hf, ih]

end PairScan
