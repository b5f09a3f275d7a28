import Mathlib.Data.Nat.Sqrt
import Mathlib.Logic.Function.Basic
import VastNC.Diagram

/-! `sfVoronoi::calsfv`: the sweep over the sites that computes their diagram. The cells of `getfree`
are never handed out twice, so a pointer is the number of its cell. -/

namespace VastNC

open Function

structure Site (K : Type) where
  coord : Point K
  sitenbr : Nat

/-- A `Site` that `intersect` makes; `sitenbr` is not set before `makevertex`. -/
structure Vertex (K : Type) where
  coord : Point K
  sitenbr : Option Nat

/-- `Edge`, whose `edgenbr` is the number of its cell. -/
structure Edge (K : Type) where
  a : K
  b : K
  c : K
  ep : EdgeSide → Option Nat
  reg : EdgeSide → Site K

/-- `ELedge`. -/
inductive EdgePtr where
  | null
  | deleted
  | edge (k : Nat)
  deriving DecidableEq

/-- What `PQnext` is a field of: an entry of `PQhash` or another half-edge. -/
inductive PQCell where
  | bucket (i : Nat)
  | he (h : Nat)
  deriving DecidableEq

/-- edgelist.c: the half-edges of the beach line between two ends, and a table that finds them fast. -/
structure EdgeList where
  elLeft : Nat → Option Nat := fun _ => none
  elRight : Nat → Option Nat := fun _ => none
  elEdge : Nat → EdgePtr := fun _ => .null
  elPm : Nat → EdgeSide := fun _ => .le
  /-- How many half-edges there are. -/
  count : Nat := 0
  elLeftend : Nat := 0
  elRightend : Nat := 0
  elHash : List (Option Nat) := []

/-- heap.c: the half-edges whose vertex is still to be passed. -/
structure EventHeap (K : Type) where
  vertex : Nat → Option Nat := fun _ => none
  ystar : Nat → K
  pqNext : PQCell → Option Nat := fun _ => none
  pqHashsize : Nat := 0
  pqCount : Int := 0
  pqMin : Nat := 0

structure Sweep (K : Type) where
  xmin : K
  xmax : K
  ymin : K
  ymax : K
  sites : List (Site K)
  siteidx : Nat := 0
  bottomsite : Site K
  el : EdgeList := {}
  pq : EventHeap K
  edges : List (Edge K) := []
  vertices : List (Vertex K) := []
  nvertices : Nat := 0
  out : Diagram K

/-- The clamping of `PQbucket` and of `ELleftbnd`. -/
def clamp (bucket : Int) (size : Nat) : Nat :=
  let bucket := if bucket < 0 then 0 else bucket
  (if bucket ≥ size then (size : Int) - 1 else bucket).toNat

namespace Sweep

variable {K : Type} [Double K]

section Geometry

variable (s : Sweep K)

def nsites : Nat := s.sites.length

/-- `(int)sqrt((double)(nsites+4))`. -/
def sqrtNsites : Nat := Nat.sqrt (s.nsites + 4)

def deltay : K := s.ymax - s.ymin

def deltax : K := s.xmax - s.xmin

def edge (k : Nat) : Except Fault (Edge K) := deref "an edge out of range" s.edges[k]?

def vertex (v : Nat) : Except Fault (Vertex K) := deref "a vertex out of range" s.vertices[v]?

/-- `he->ELedge->..`. -/
def edgeOf (he : Nat) : Except Fault (Edge K) :=
  match s.el.elEdge he with
  | .edge k => s.edge k
  | _ => .error (.undefined "the edge of a half-edge without one")

def edgePtr (he : Nat) : Except Fault Nat :=
  match s.el.elEdge he with
  | .edge k => .ok k
  | _ => .error (.undefined "the edge of a half-edge without one")

def outBisector (e : Edge K) (edgenbr : Nat) : Except Fault (Sweep K) := do
  let temp : Line K :=
    { a := e.a, b := e.b, c := e.c
      bisecting := fun sd => (e.reg sd).sitenbr
      seg := (⟨0.0, 0.0⟩, ⟨0.0, 0.0⟩) }
  let _ ← s.out.site (temp.bisecting .le)
  let _ ← s.out.site (temp.bisecting .re)
  let enter (sx : SiteEx K) : SiteEx K := { sx with mEdgeIndexSet := setInsert sx.mEdgeIndexSet edgenbr }
  return { s with out :=
    { s.out with
      mSites := (s.out.mSites.modify (temp.bisecting .le) enter).modify (temp.bisecting .re) enter
      mLines := s.out.mLines ++ [temp] } }

/-- The edge that `bisect` makes. -/
def newedge (s1 s2 : Site K) : Edge K :=
  let dx := s2.coord.x - s1.coord.x
  let dy := s2.coord.y - s1.coord.y
  let adx := if dx > 0.0 then dx else -dx
  let ady := if dy > 0.0 then dy else -dy
  let c := s1.coord.x * dx + s1.coord.y * dy + (dx * dx + dy * dy) * 0.5
  let (a, b, c) := if adx > ady then (1.0, dy / dx, c / dx) else (dx / dy, 1.0, c / dy)
  { a := a, b := b, c := c
    ep := fun _ => none
    reg := fun
      | .le => s1
      | .re => s2 }

def bisect (s1 s2 : Site K) : Except Fault (Nat × Sweep K) := do
  let s ← s.outBisector (newedge s1 s2) s.edges.length
  return (s.edges.length, { s with edges := s.edges ++ [newedge s1 s2] })

/-- Two `reg` pointers are equal when they are to the site of one number. -/
def intersect (el1 el2 : Nat) : Except Fault (Option Nat × Sweep K) :=
  if s.el.elEdge el1 = .null ∨ s.el.elEdge el2 = .null then .ok (none, s)
  else do
    let e1 ← s.edgeOf el1
    let e2 ← s.edgeOf el2
    if (e1.reg .re).sitenbr = (e2.reg .re).sitenbr then return (none, s)
    let d := e1.a * e2.b - e1.b * e2.a
    if -1.0e-10 < d ∧ d < 1.0e-10 then return (none, s)
    let xint := (e1.c * e2.b - e2.c * e1.b) / d
    let yint := (e2.c * e1.a - e1.c * e2.a) / d
    let r1 := (e1.reg .re).coord
    let r2 := (e2.reg .re).coord
    let (el, e) := if r1.y < r2.y || (r1.y == r2.y && r1.x < r2.x) then (el1, e1) else (el2, e2)
    let rightOfSite := decide (xint ≥ (e.reg .re).coord.x)
    if (rightOfSite && s.el.elPm el = .le) || (!rightOfSite && s.el.elPm el = .re) then return (none, s)
    return (some s.vertices.length, { s with vertices := s.vertices ++ [⟨⟨xint, yint⟩, none⟩] })

def rightOf (el : Nat) (p : Point K) : Except Fault Bool := do
  let e ← s.edgeOf el
  let topsite := (e.reg .re).coord
  let rightOfSite := decide (p.x > topsite.x)
  if rightOfSite && s.el.elPm el = .le then return true
  if !rightOfSite && s.el.elPm el = .re then return false
  let above : Bool :=
    if e.a == 1.0 then
      let dyp := p.y - topsite.y
      let dxp := p.x - topsite.x
      let plain := (!rightOfSite && e.b < 0.0) || (rightOfSite && e.b ≥ 0.0)
      let above : Bool :=
        if plain then dyp ≥ e.b * dxp
        else
          let above : Bool := p.x + p.y * e.b > e.c
          if e.b < 0.0 then !above else above
      let fast := if plain then above else !above
      if fast then above
      else
        let dxs := topsite.x - (e.reg .le).coord.x
        let above : Bool :=
          if !(dxs == 0.0) then e.b * (dxp * dxp - dyp * dyp) < dxs * dyp * (1.0 + 2.0 * dxp / dxs + e.b * e.b)
          else false
        if e.b < 0.0 then !above else above
    else
      let yl := e.c - e.a * p.x
      let t1 := p.y - yl
      let t2 := p.x - topsite.x
      let t3 := yl - topsite.y
      t1 * t1 > t2 * t2 + t3 * t3
  return if s.el.elPm el = .le then above else !above

def dist (p q : Point K) : K :=
  let dx := p.x - q.x
  let dy := p.y - q.y
  Double.sqrt (dx * dx + dy * dy)

def makevertex (v : Nat) : Except Fault (Sweep K) := do
  let vx ← s.vertex v
  return { s with
    vertices := s.vertices.set v { vx with sitenbr := some s.nvertices }
    nvertices := s.nvertices + 1
    out := { s.out with mVertex := s.out.mVertex ++ [vx.coord] } }

end Geometry

section Output

variable (s : Sweep K)

/-- `pxmin`, `pxmax`, `pymin` and `pymax` of `plotinit`. -/
def plotinit : (K × K) × (K × K) :=
  let dy := s.ymax - s.ymin
  let dx := s.xmax - s.xmin
  let d := (if dx > dy then dx else dy) * 1.1
  ((s.xmin - (d - dx) / 2.0, s.xmax + (d - dx) / 2.0), (s.ymin - (d - dy) / 2.0, s.ymax + (d - dy) / 2.0))

/-- The end of a segment that lies outside the bounds is moved along its line. -/
def pull (bounds : K × K) (other : K → K) (u v : K) : K × K :=
  let (u, v) := if u > bounds.2 then (bounds.2, other bounds.2) else (u, v)
  if u < bounds.1 then (bounds.1, other bounds.1) else (u, v)

/-- One branch of `clip_line`: `p1` and `p2` along the axis that the line crosses, the other
coordinate by `value`. `none` where it returns early. -/
def clipAxis (along across : K × K) (p1 p2 : Option K) (value back : K → K) : Option ((K × K) × (K × K)) :=
  let u1 := match p1 with
    | some u => if u > along.1 then u else along.1
    | none => along.1
  if u1 > along.2 then none
  else
    let v1 := value u1
    let u2 := match p2 with
      | some u => if u < along.2 then u else along.2
      | none => along.2
    if u2 < along.1 then none
    else
      let v2 := value u2
      if (v1 > across.2 ∧ v2 > across.2) ∨ (v1 < across.1 ∧ v2 < across.1) then none
      else
        some (pull across back v1 u1, pull across back v2 u2)

/-- `clip_line`, the ends of the edge given by their coordinates. -/
def clipLine (e : Edge K) (ends : EdgeSide → Option (Point K)) : Option (Point K × Point K) :=
  let (s1, s2) := if e.a == 1.0 && e.b ≥ 0.0 then (ends .re, ends .le) else (ends .le, ends .re)
  let (px, py) := s.plotinit
  if e.a == 1.0 then
    (clipAxis py px (s1.map Point.y) (s2.map Point.y) (fun y => e.c - e.b * y) (fun x => (e.c - x) / e.b)).map
      (fun r => (⟨r.1.1, r.1.2⟩, ⟨r.2.1, r.2.2⟩))
  else
    (clipAxis px py (s1.map Point.x) (s2.map Point.x) (fun x => e.c - e.a * x) (fun y => (e.c - y) / e.a)).map
      (fun r => (⟨r.1.2, r.1.1⟩, ⟨r.2.2, r.2.1⟩))

/-- `ep[lr]->sitenbr`, with the coordinates. -/
def endOf (e : Edge K) (lr : EdgeSide) : Except Fault (Option (Nat × Point K)) :=
  match e.ep lr with
  | none => .ok none
  | some v => do
    let vx ← s.vertex v
    let nbr ← deref "a vertex without a number" vx.sitenbr
    return some (nbr, vx.coord)

def outEp (k : Nat) : Except Fault (Sweep K) := do
  let e ← s.edge k
  let line ← s.out.line k
  let left ← s.endOf e .le
  let right ← s.endOf e .re
  let ends : EdgeSide → Option (Nat × Point K) := fun
    | .le => left
    | .re => right
  let line := { line with vertexIndex := fun lr => (ends lr).map Prod.fst }
  let line := match s.clipLine e (fun lr => (ends lr).map Prod.snd) with
    | some seg => { line with seg := seg }
    | none => line
  return { s with out := { s.out with mLines := s.out.mLines.set k line } }

def endpoint (k : Nat) (lr : EdgeSide) (v : Nat) : Except Fault (Sweep K) := do
  let e ← s.edge k
  let e := { e with ep := update e.ep lr (some v) }
  let s := { s with edges := s.edges.set k e }
  if e.ep lr.other = none then return s
  s.outEp k

end Output

section Heap

/-- `PQbucket` of an event at `ystar`. -/
def bucketOf (s : Sweep K) (ystar : K) : Nat :=
  clamp (Double.toInt ((ystar - s.ymin) / s.deltay * Double.ofInt s.pq.pqHashsize)) s.pq.pqHashsize

def pqBucket (s : Sweep K) (he : Nat) : Nat × Sweep K :=
  let bucket := s.bucketOf (s.pq.ystar he)
  (bucket, if bucket < s.pq.pqMin then { s with pq := { s.pq with pqMin := bucket } } else s)

/-- Whether an event at `p` comes after the one of `next`. -/
def passes (s : Sweep K) (ystar : K) (v : Point K) (next : Nat) : Except Fault Bool := do
  let w ← deref "an event without a vertex" (s.pq.vertex next)
  let w ← s.vertex w
  return ystar > s.pq.ystar next || (ystar == s.pq.ystar next && v.x > w.coord.x)

def pqFind (s : Sweep K) (ystar : K) (v : Point K) : Nat → PQCell → Except Fault PQCell
  | 0, _ => .error (.undefined "the list of a bucket never ends")
  | fuel + 1, last =>
    match s.pq.pqNext last with
    | none => .ok last
    | some next => do
      let after ← s.passes ystar v next
      if after then s.pqFind ystar v fuel (.he next) else return last

def pqInsert (s : Sweep K) (he v : Nat) (offset : K) : Except Fault (Sweep K) := do
  let vx ← s.vertex v
  let ystar := vx.coord.y + offset
  let s := { s with pq :=
    { s.pq with
      vertex := update s.pq.vertex he (some v)
      ystar := update s.pq.ystar he ystar } }
  let (bucket, s) := s.pqBucket he
  let last ← s.pqFind ystar vx.coord (s.el.count + 1) (.bucket bucket)
  return { s with pq :=
    { s.pq with
      pqNext := update (update s.pq.pqNext (.he he) (s.pq.pqNext last)) last (some he)
      pqCount := s.pq.pqCount + 1 } }

def pqSeek (s : Sweep K) (he : Nat) : Nat → PQCell → Except Fault PQCell
  | 0, _ => .error (.undefined "the list of a bucket never ends")
  | fuel + 1, last =>
    if s.pq.pqNext last = some he then .ok last
    else
      match s.pq.pqNext last with
      | none => .error (.undefined "the event is in no bucket")
      | some next => s.pqSeek he fuel (.he next)

def pqDelete (s : Sweep K) (he : Nat) : Except Fault (Sweep K) :=
  match s.pq.vertex he with
  | none => .ok s
  | some _ => do
    let (bucket, s) := s.pqBucket he
    let last ← s.pqSeek he (s.el.count + 1) (.bucket bucket)
    return { s with pq :=
      { s.pq with
        pqNext := update s.pq.pqNext last (s.pq.pqNext (.he he))
        pqCount := s.pq.pqCount - 1
        vertex := update s.pq.vertex he none } }

/-- The loop of `PQ_min`: the first bucket from `PQmin` on that is not empty. -/
def pqAdvance (s : Sweep K) : Nat → Nat → Except Fault (Nat × Nat)
  | 0, _ => .error (.undefined "the buckets never end")
  | fuel + 1, i =>
    if s.pq.pqHashsize ≤ i then .error (.undefined "a bucket out of range")
    else
      match s.pq.pqNext (.bucket i) with
      | none => s.pqAdvance fuel (i + 1)
      | some he => .ok (i, he)

def pqMinPoint (s : Sweep K) : Except Fault (Point K × Sweep K) := do
  let (i, he) ← s.pqAdvance (s.pq.pqHashsize + 1) s.pq.pqMin
  let v ← deref "an event without a vertex" (s.pq.vertex he)
  let vx ← s.vertex v
  return (⟨vx.coord.x, s.pq.ystar he⟩, { s with pq := { s.pq with pqMin := i } })

def pqExtractmin (s : Sweep K) : Except Fault (Nat × Sweep K) := do
  let curr ← deref "an empty bucket" (s.pq.pqNext (.bucket s.pq.pqMin))
  return (curr, { s with pq :=
    { s.pq with
      pqNext := update s.pq.pqNext (.bucket s.pq.pqMin) (s.pq.pqNext (.he curr))
      pqCount := s.pq.pqCount - 1 } })

def pqInitialize (s : Sweep K) : Sweep K :=
  { s with pq :=
    { s.pq with
      pqCount := 0
      pqMin := 0
      pqHashsize := 4 * s.sqrtNsites
      pqNext := fun _ => none } }

end Heap

section EdgeList

def heCreate (s : Sweep K) (e : EdgePtr) (pm : EdgeSide) : Nat × Sweep K :=
  let he := s.el.count
  (he, { s with
    el := { s.el with
      elEdge := update s.el.elEdge he e
      elPm := update s.el.elPm he pm
      count := s.el.count + 1 }
    pq := { s.pq with
      pqNext := update s.pq.pqNext (.he he) none
      vertex := update s.pq.vertex he none
      ystar := update s.pq.ystar he 0.0 } })

def elInitialize (s : Sweep K) : Sweep K :=
  let size := 2 * s.sqrtNsites
  let (leftend, s) := s.heCreate .null .le
  let (rightend, s) := s.heCreate .null .le
  { s with el :=
    { s.el with
      elLeftend := leftend
      elRightend := rightend
      elLeft := update (update s.el.elLeft leftend none) rightend (some leftend)
      elRight := update (update s.el.elRight leftend (some rightend)) rightend none
      elHash := ((List.replicate size none).set 0 (some leftend)).set (size - 1) (some rightend) } }

def elInsert (s : Sweep K) (lb newH : Nat) : Except Fault (Sweep K) := do
  let right ← deref "ELright is null" (s.el.elRight lb)
  return { s with el :=
    { s.el with
      elLeft := update (update s.el.elLeft newH (some lb)) right (some newH)
      elRight := update (update s.el.elRight newH (some right)) lb (some newH) } }

/-- An entry of the table that is for a deleted half-edge is taken out when it is met. -/
def elGethash (s : Sweep K) (b : Int) : Option Nat × Sweep K :=
  if b < 0 ∨ b ≥ s.el.elHash.length then (none, s)
  else
    match s.el.elHash[b.toNat]?.join with
    | none => (none, s)
    | some he =>
      if s.el.elEdge he ≠ .deleted then (some he, s)
      else (none, { s with el := { s.el with elHash := s.el.elHash.set b.toNat none } })

def elSearch (s : Sweep K) (bucket : Nat) : Nat → Nat → Except Fault (Nat × Sweep K)
  | 0, _ => .error (.undefined "the table holds no half-edge")
  | fuel + 1, i =>
    match s.elGethash ((bucket : Int) - i) with
    | (some he, s) => .ok (he, s)
    | (none, s) =>
      match s.elGethash ((bucket : Int) + i) with
      | (some he, s) => .ok (he, s)
      | (none, s) => s.elSearch bucket fuel (i + 1)

/-- `do {he = he->ELright;} while (he!=ELrightend && right_of(he,p));` -/
def goRight (s : Sweep K) (p : Point K) : Nat → Nat → Except Fault Nat
  | 0, _ => .error (.undefined "the beach line never ends")
  | fuel + 1, he => do
    let he ← deref "ELright is null" (s.el.elRight he)
    if he = s.el.elRightend then return he
    let right ← s.rightOf he p
    if right then s.goRight p fuel he else return he

/-- `do {he = he->ELleft;} while (he!=ELleftend && !right_of(he,p));` -/
def goLeft (s : Sweep K) (p : Point K) : Nat → Nat → Except Fault Nat
  | 0, _ => .error (.undefined "the beach line never ends")
  | fuel + 1, he => do
    let he ← deref "ELleft is null" (s.el.elLeft he)
    if he = s.el.elLeftend then return he
    let right ← s.rightOf he p
    if right then return he else s.goLeft p fuel he

/-- Where the search of `ELleftbnd` sets out from. -/
def elEntry (s : Sweep K) (bucket : Nat) : Except Fault (Nat × Sweep K) :=
  match s.elGethash bucket with
  | (some he, s) => .ok (he, s)
  | (none, s) => s.elSearch bucket s.el.elHash.length 1

/-- The linear search of `ELleftbnd`. -/
def elWalk (s : Sweep K) (he : Nat) (p : Point K) : Except Fault Nat := do
  let forward ←
    if he = s.el.elLeftend then pure true
    else if he = s.el.elRightend then pure false
    else s.rightOf he p
  if forward then
    let he ← s.goRight p (s.el.count + 1) he
    deref "ELleft is null" (s.el.elLeft he)
  else
    s.goLeft p (s.el.count + 1) he

def elLeftbnd (s : Sweep K) (p : Point K) : Except Fault (Nat × Sweep K) := do
  let size := s.el.elHash.length
  let bucket := clamp (Double.toInt ((p.x - s.xmin) / s.deltax * Double.ofInt size)) size
  let (he, s) ← s.elEntry bucket
  let he ← s.elWalk he p
  if 0 < bucket ∧ bucket + 1 < size then
    return (he, { s with el := { s.el with elHash := s.el.elHash.set bucket (some he) } })
  return (he, s)

def elDelete (s : Sweep K) (he : Nat) : Except Fault (Sweep K) := do
  let left ← deref "ELleft is null" (s.el.elLeft he)
  let right ← deref "ELright is null" (s.el.elRight he)
  return { s with el :=
    { s.el with
      elRight := update s.el.elRight left (some right)
      elLeft := update s.el.elLeft right (some left)
      elEdge := update s.el.elEdge he .deleted } }

/-- `reg[le]` for a half-edge of that side, else `reg[re]`; `bottomsite` beside the ends. -/
def leftreg (s : Sweep K) (he : Nat) : Except Fault (Site K) :=
  if s.el.elEdge he = .null then .ok s.bottomsite
  else do
    let e ← s.edgeOf he
    return e.reg (s.el.elPm he)

def rightreg (s : Sweep K) (he : Nat) : Except Fault (Site K) :=
  if s.el.elEdge he = .null then .ok s.bottomsite
  else do
    let e ← s.edgeOf he
    return e.reg (s.el.elPm he).other

end EdgeList

section Voronoi

def nextone (s : Sweep K) : Option (Site K) × Sweep K :=
  match s.sites[s.siteidx]? with
  | some p => (some p, { s with siteidx := s.siteidx + 1 })
  | none => (none, s)

/-- `PQinsert(he, p, dist(p, q))`. -/
def schedule (s : Sweep K) (he p : Nat) (q : Site K) : Except Fault (Sweep K) := do
  let vx ← s.vertex p
  s.pqInsert he p (dist vx.coord q.coord)

/-- The half-edge left of a new one, whose event is replaced when the two meet. -/
def meetLeft (s : Sweep K) (lbnd bisector : Nat) (q : Site K) : Except Fault (Sweep K) := do
  let (p, s) ← s.intersect lbnd bisector
  match p with
  | some p => do
    let s ← s.pqDelete lbnd
    s.schedule lbnd p q
  | none => return s

/-- A new half-edge and the one right of it. -/
def meetRight (s : Sweep K) (bisector rbnd : Nat) (q : Site K) : Except Fault (Sweep K) := do
  let (p, s) ← s.intersect bisector rbnd
  match p with
  | some p => s.schedule bisector p q
  | none => return s

/-- "new site is smallest" -/
def siteEvent (s : Sweep K) (newsite : Site K) : Except Fault (Sweep K) := do
  let (lbnd, s) ← s.elLeftbnd newsite.coord
  let rbnd ← deref "ELright is null" (s.el.elRight lbnd)
  let bot ← s.rightreg lbnd
  let (e, s) ← s.bisect bot newsite
  let (bisector, s) := s.heCreate (.edge e) .le
  let s ← s.elInsert lbnd bisector
  let s ← s.meetLeft lbnd bisector newsite
  let lbnd := bisector
  let (bisector, s) := s.heCreate (.edge e) .re
  let s ← s.elInsert lbnd bisector
  s.meetRight bisector rbnd newsite

/-- The new edge of a vertex: the site of the smaller y comes first, `pm` tells on which side the
half-edge is. -/
def orient (bot top : Site K) : Site K × Site K × EdgeSide :=
  if bot.coord.y > top.coord.y then (top, bot, .re) else (bot, top, .le)

/-- "intersection is smallest" -/
def vertexEvent (s : Sweep K) : Except Fault (Sweep K) := do
  let (lbnd, s) ← s.pqExtractmin
  let llbnd ← deref "ELleft is null" (s.el.elLeft lbnd)
  let rbnd ← deref "ELright is null" (s.el.elRight lbnd)
  let rrbnd ← deref "ELright is null" (s.el.elRight rbnd)
  let bot ← s.leftreg lbnd
  let top ← s.rightreg rbnd
  let v ← deref "an event without a vertex" (s.pq.vertex lbnd)
  let s ← s.makevertex v
  let el ← s.edgePtr lbnd
  let s ← s.endpoint el (s.el.elPm lbnd) v
  let er ← s.edgePtr rbnd
  let s ← s.endpoint er (s.el.elPm rbnd) v
  let s ← s.elDelete lbnd
  let s ← s.pqDelete rbnd
  let s ← s.elDelete rbnd
  let (bot, top, pm) := orient bot top
  let (e, s) ← s.bisect bot top
  let (bisector, s) := s.heCreate (.edge e) pm
  let s ← s.elInsert llbnd bisector
  let s ← s.endpoint e pm.other v
  let s ← s.meetLeft llbnd bisector bot
  s.meetRight bisector rrbnd bot

/-- Whether the site is passed before the first of the events, of which there may be none. -/
def siteIsSmallest (newsite : Site K) (newintstar : Option (Point K)) : Bool :=
  match newintstar with
  | none => true
  | some q => newsite.coord.y < q.y || (newsite.coord.y == q.y && newsite.coord.x < q.x)

/-- The event that is passed next, if there is one. -/
def peek (s : Sweep K) : Except Fault (Option (Point K) × Sweep K) :=
  if s.pq.pqCount = 0 then .ok (none, s)
  else do
    let (q, s) ← s.pqMinPoint
    return (some q, s)

/-- One turn of the loop of `Voronoi`; nothing when it is done. -/
def step (s : Sweep K) (newsite : Option (Site K)) : Except Fault (Option (Sweep K × Option (Site K))) := do
  let (newintstar, s) ← s.peek
  match newsite.filter (fun p => siteIsSmallest p newintstar) with
  | some p => do
    let s ← s.siteEvent p
    let (next, s) := s.nextone
    return some (s, next)
  | none =>
    if newintstar.isSome then do
      let s ← s.vertexEvent
      return some (s, newsite)
    else return none

def sweep : Nat → Sweep K → Option (Site K) → Except Fault (Sweep K)
  | 0, _, _ => .error (.undefined "the sweep never ends")
  | fuel + 1, s, newsite => do
    let next ← s.step newsite
    match next with
    | none => return s
    | some (s, newsite) => sweep fuel s newsite

/-- The lines that are still open when the sweep is over. -/
def outOpen (s : Sweep K) : Nat → Nat → Except Fault (Sweep K)
  | 0, _ => .error (.undefined "the beach line never ends")
  | fuel + 1, lbnd =>
    if lbnd = s.el.elRightend then .ok s
    else do
      let k ← s.edgePtr lbnd
      let s ← s.outEp k
      let lbnd ← deref "ELright is null" (s.el.elRight lbnd)
      s.outOpen fuel lbnd

/-- `Voronoi` when `nextone` has returned the first site. `fuel` bounds the turns of its loop. -/
def voronoi (fuel : Nat) (s : Sweep K) (bottomsite : Site K) : Except Fault (Sweep K) := do
  let s := { s with bottomsite := bottomsite }
  let s := s.pqInitialize.elInitialize
  let (newsite, s) := s.nextone
  let s ← s.sweep fuel newsite
  let lbnd ← deref "ELright is null" (s.el.elRight s.el.elLeftend)
  s.outOpen (s.el.count + 1) lbnd

end Voronoi

end Sweep

namespace Diagram

variable {K : Type} [Double K]

def scomp (s1 s2 : Site K) : Int :=
  if s1.coord.y < s2.coord.y then -1
  else if s1.coord.y > s2.coord.y then 1
  else if s1.coord.x < s2.coord.x then -1
  else if s1.coord.x > s2.coord.x then 1
  else 0

/-- `qsort`. -/
def qsort (sites : List (Site K)) : List (Site K) := sites.insertionSort (fun a b => scomp a b ≤ 0)

/-- `mSites` as `sites`, numbered. -/
def readsites (d : Diagram K) : List (Site K) := d.mSites.zipIdx.map (fun s => ⟨s.1.pos, s.2⟩)

/-- `calsfv`; the sites are sorted before the first of them is taken. -/
def calsfv (fuel : Nat) (d : Diagram K) : Except Fault (Diagram K) := do
  let first ← d.site 0
  let least (m : K) (s : Site K) : K := if s.coord.x < m then s.coord.x else m
  let most (m : K) (s : Site K) : K := if s.coord.x > m then s.coord.x else m
  let sites := qsort d.readsites
  let bottom ← deref "there is no site" sites.head?
  let top ← deref "there is no site" sites.getLast?
  let s : Sweep K :=
    { xmin := d.readsites.foldl least first.pos.x
      xmax := d.readsites.foldl most first.pos.x
      ymin := bottom.coord.y
      ymax := top.coord.y
      sites := sites
      siteidx := 1
      bottomsite := bottom
      pq := { ystar := fun _ => 0.0 }
      out := d }
  let s ← s.voronoi fuel bottom
  return s.out

end Diagram

end VastNC
