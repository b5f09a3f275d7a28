import Mathlib.Data.List.Sort
import VastNC.Lib.Block
import VastNC.Types

/-! What `sfVoronoi` leaves behind for a set of sites: the lines that bisect them, the vertices where
lines end, and the questions that are asked of these. -/

namespace VastNC

/-- The operations on `double` that the code uses. No law is assumed of them. -/
class Double (K : Type) extends Add K, Sub K, Mul K, Div K, Neg K, OfScientific K, LT K, LE K, BEq K where
  decidableLT : DecidableLT K
  decidableLE : DecidableLE K
  sqrt : K → K
  pow : K → K → K
  fabs : K → K
  /-- The conversion to `int`, whatever it gives out of range. -/
  toInt : K → Int
  ofInt : Int → K

instance Double.instDecidableLT {K : Type} [Double K] : DecidableLT K := Double.decidableLT

instance Double.instDecidableLE {K : Type} [Double K] : DecidableLE K := Double.decidableLE

/-- A null pointer or an index out of range when nothing is there. -/
def deref {α : Type} (what : String) : Option α → Except Fault α
  | none => .error (.undefined what)
  | some a => .ok a

@[simp] theorem deref_some {α : Type} (what : String) (a : α) : deref what (some a) = .ok a := rfl

/-- `ELpm` and the indices of `ep`, `reg`, `bisecting` and `vertexIndex`. -/
inductive EdgeSide where
  | le
  | re
  deriving DecidableEq, Repr

namespace EdgeSide

/-- `re - pm`. -/
def other : EdgeSide → EdgeSide
  | le => re
  | re => le

@[simp] theorem other_other (sd : EdgeSide) : sd.other.other = sd := by cases sd <;> rfl

@[simp] theorem other_ne (sd : EdgeSide) : sd.other ≠ sd := by cases sd <;> exact EdgeSide.noConfusion

theorem eq_other_of_ne {a b : EdgeSide} (h : a ≠ b) : a = b.other := by
  cases a <;> cases b <;> simp [other] at h ⊢

end EdgeSide

structure Point (K : Type) where
  x : K
  y : K

/-- `point2d` of a site, with the lines that bisect it and another. -/
structure SiteEx (K : Type) where
  pos : Point K
  mEdgeIndexSet : List Nat := []

/-- `line2d`. An index of -1 is `none`. -/
structure Line (K : Type) where
  a : K
  b : K
  c : K
  bisecting : EdgeSide → Nat
  vertexIndex : EdgeSide → Option Nat := fun _ => none
  seg : Point K × Point K

/-- The public members of `sfVoronoi`. -/
structure Diagram (K : Type) where
  mSites : List (SiteEx K) := []
  mLines : List (Line K) := []
  mVertex : List (Point K) := []

/-- `set<int>::insert`. -/
def setInsert (l : List Nat) (k : Nat) : List Nat := if k ∈ l then l else l.orderedInsert (· ≤ ·) k

@[simp] theorem mem_setInsert {l : List Nat} {k j : Nat} : j ∈ setInsert l k ↔ j = k ∨ j ∈ l := by
  by_cases hk : k ∈ l
  · rw [setInsert, if_pos hk]
    exact ⟨.inr, fun h => h.elim (fun he => he ▸ hk) id⟩
  · rw [setInsert, if_neg hk, List.mem_orderedInsert]

theorem nodup_setInsert {l : List Nat} {k : Nat} (h : l.Nodup) : (setInsert l k).Nodup := by
  by_cases hk : k ∈ l
  · rwa [setInsert, if_pos hk]
  · rw [setInsert, if_neg hk]
    exact (List.perm_orderedInsert (· ≤ ·) k l).nodup_iff.mpr (List.nodup_cons.mpr ⟨hk, h⟩)

namespace Diagram

variable {K : Type} (d : Diagram K)

def site (index : Nat) : Except Fault (SiteEx K) := deref "a site out of range" d.mSites[index]?

def line (j : Nat) : Except Fault (Line K) := deref "a line out of range" d.mLines[j]?

def vertex (j : Nat) : Except Fault (Point K) := deref "a vertex out of range" d.mVertex[j]?

/-- The set is left as it is when the index is out of range; -1 is `none`. -/
def getNeighborSet (index : Option Nat) (nset : List Nat) : Except Fault (List Nat) :=
  match index.bind (fun i => (d.mSites[i]?).map (fun s => (i, s))) with
  | none => .ok nset
  | some (i, s) => s.mEdgeIndexSet.foldlM
      (fun nset j => do
        let l ← d.line j
        return setInsert nset (if l.bisecting .le = i then l.bisecting .re else l.bisecting .le)) []

def isBoundarySite (index : Nat) : Except Fault Bool := do
  let s ← d.site index
  s.mEdgeIndexSet.anyM (fun j => do
    let l ← d.line j
    return (l.vertexIndex .le).isNone || (l.vertexIndex .re).isNone)

variable [Double K]

def isPointInsideSiteRegion (index : Nat) (p : Point K) : Except Fault Bool := do
  let s ← d.site index
  s.mEdgeIndexSet.allM (fun j => do
    let l ← d.line j
    let b1 := decide (l.a * s.pos.x + l.b * s.pos.y > l.c)
    let b2 := decide (l.a * p.x + l.b * p.y > l.c)
    let b2 := if Double.fabs (l.a * p.x + l.b * p.y - l.c) < 0.001 then b1 else b2
    return b1 == b2)

/-- `point2d::distance`. -/
def distance (q p : Point K) : K :=
  let dx := p.x - q.x
  let dy := p.y - q.y
  Double.sqrt (Double.pow dx 2.0 + Double.pow dy 2.0)

/-- `segment::intersects`. -/
def intersects (seg : Point K × Point K) (p3 : Point K) (radius : Int) : Bool :=
  let (p, q) := if seg.2.x > seg.1.x then seg else (seg.2, seg.1)
  let u := ((p3.x - p.x) * (q.x - p.x) + (p3.y - p.y) * (q.y - p.y)) /
    ((q.x - p.x) * (q.x - p.x) + (q.y - p.y) * (q.y - p.y))
  if u ≥ 0.0 && u ≤ 1.0 then
    let x := p.x + (q.x - p.x) * u
    let y := p.y + (q.y - p.y) * u
    distance ⟨x, y⟩ p3 ≤ Double.ofInt radius
  else false

def endWithin (l : Line K) (center : Point K) (radius : Int) (k : EdgeSide) : Except Fault Bool :=
  match l.vertexIndex k with
  | none => .ok false
  | some idx => do
    let v ← d.vertex idx
    return distance v center ≤ Double.ofInt radius

def collides (index : Nat) (center : Point K) (radius : Int) : Except Fault Bool := do
  let inside ← d.isPointInsideSiteRegion index center
  if inside then return true
  let s ← d.site index
  s.mEdgeIndexSet.anyM (fun j => do
    let l ← d.line j
    let first ← d.endWithin l center radius .le
    if first then return true
    let second ← d.endWithin l center radius .re
    if second then return true
    return intersects l.seg center radius)

def enclosed (index : Nat) (center : Point K) (radius : Int) : Except Fault Bool := do
  let s ← d.site index
  s.mEdgeIndexSet.allM (fun j => do
    let l ← d.line j
    match l.vertexIndex .le, l.vertexIndex .re with
    | some idx1, some idx2 => do
      let v1 ← d.vertex idx1
      if distance center v1 ≥ Double.ofInt radius then return false
      let v2 ← d.vertex idx2
      return !decide (distance center v2 ≥ Double.ofInt radius)
    | _, _ => return false)

end Diagram

end VastNC
