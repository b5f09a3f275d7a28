import VastNC.Subscription

/-! `VONPeer`: a node of the overlay, what it knows of its neighbours, and how it handles the
messages of others. -/

namespace VastNC

/-- `SFVoronoi`, which knows the sites by their index, and the comparisons of distances. -/
structure Geometry where
  isPointInsideSiteRegion : List Position → Nat → Position → Bool
  enclosed : List Position → Nat → Position → UInt16 → Bool
  collides : List Position → Nat → Position → UInt16 → Bool
  getNeighborSet : List Position → Option Nat → List Nat
  within : Position → Position → UInt16 → Bool
  closestTo : List (UInt64 × Position) → Position → UInt64
  /-- The position that `isOverlapped` arrives at. -/
  freePosition : List Position → Position → Position

/-- No id has two sites. -/
structure VoronoiSF where
  sites : List (UInt64 × Position) := []
  nodup : (sites.map Prod.fst).Nodup := by exact List.nodup_nil

namespace VoronoiSF

def ids (v : VoronoiSF) : List UInt64 := v.sites.map Prod.fst

def getIdx (v : VoronoiSF) (id : UInt64) : Option Nat := v.sites.findIdx? (fun s => s.1 == id)

theorem nodup_append {l : List (UInt64 × Position)} {id : UInt64} (pt : Position)
    (h : (l.map Prod.fst).Nodup) (hid : id ∉ l.map Prod.fst) : ((l ++ [(id, pt)]).map Prod.fst).Nodup := by
  rw [List.map_append, List.map_singleton, ← List.concat_eq_append]
  exact h.concat hid

theorem map_fst_update (l : List (UInt64 × Position)) (id : UInt64) (pt : Position) :
    (l.map (fun s => if s.1 = id then (s.1, pt) else s)).map Prod.fst = l.map Prod.fst := by
  rw [List.map_map]
  refine List.map_congr_left fun s _ => ?_
  rw [Function.comp_apply]
  split <;> rfl

def insert (v : VoronoiSF) (id : UInt64) (pt : Position) : VoronoiSF :=
  if h : id ∈ v.sites.map Prod.fst then v else ⟨v.sites ++ [(id, pt)], nodup_append pt v.nodup h⟩

def remove (v : VoronoiSF) (id : UInt64) : VoronoiSF :=
  ⟨v.sites.filter (fun s => s.1 != id), v.nodup.sublist (List.filter_sublist.map Prod.fst)⟩

def update (v : VoronoiSF) (id : UInt64) (pt : Position) : VoronoiSF :=
  ⟨v.sites.map (fun s => if s.1 = id then (s.1, pt) else s), (map_fst_update v.sites id pt).symm ▸ v.nodup⟩

variable (g : Geometry)

def contains (v : VoronoiSF) (id : UInt64) (pt : Position) : Bool :=
  (v.getIdx id).any (fun idx => g.isPointInsideSiteRegion (v.sites.map Prod.snd) idx pt)

def isBoundary (v : VoronoiSF) (id : UInt64) (pt : Position) (radius : UInt16) : Bool :=
  (v.getIdx id).any (fun idx => !g.enclosed (v.sites.map Prod.snd) idx pt radius)

def getEn (v : VoronoiSF) (id : UInt64) : List UInt64 :=
  (g.getNeighborSet (v.sites.map Prod.snd) (v.getIdx id)).filterMap (fun i => v.ids[i]?)

def isEnclosing (v : VoronoiSF) (id centerNodeId : UInt64) : Bool :=
  let center := if centerNodeId = 0 - 1 then some 0 else v.getIdx centerNodeId
  ((g.getNeighborSet (v.sites.map Prod.snd) center).filterMap (fun i => v.ids[i]?)).contains id

def overlaps (v : VoronoiSF) (id : UInt64) (pt : Position) (radius : UInt16) (accurateMode : Bool) : Bool :=
  (v.getIdx id).any (fun idx =>
    if accurateMode then g.collides (v.sites.map Prod.snd) idx pt radius
    else (v.sites[idx]?).any (fun s => g.within s.2 pt radius))

end VoronoiSF

/-- What a neighbour is known to know of another: `NEIGHBOR_OVERLAPPED` and `NEIGHBOR_ENCLOSED`. -/
structure NeighborKnowledge where
  overlapped : Bool := false
  enclosed : Bool := false
  deriving DecidableEq

inductive VONCall where
  | query (target : UInt64) (joiner : Node)
  | hello (target : UInt64) (self : Node) (ids : List UInt64)
  | helloR (target : UInt64) (center : Position)
  | en (target : UInt64) (ids : List UInt64)
  | move (boundary : Bool) (targets : List UInt64) (x y : Coord) (time : UInt64)
  | moveF (boundary : Bool) (targets : List UInt64) (self : Node)
  | node (target : UInt64) (nodes : List Node) (reliable : Bool)
  | bye (targets : List UInt64)

inductive VONMessage where
  | query (joiner : Node)
  | hello (node : Node) (ids : List UInt64)
  | helloR (center : Position)
  | en (ids : List UInt64)
  | move (boundary : Bool) (x y : Coord) (time : UInt64)
  | moveF (boundary : Bool) (node : Node)
  | node (nodes : List Node)
  | bye
  | disconnect

/-- `_neighbors` holds pointers into `_id2node`, given here by the keys of what they point to. -/
structure VONPeer where
  geometry : Geometry
  self : Node
  aoiBuffer : UInt16
  strictAoi : Bool := true
  state : NodeState := .absent
  voronoi : VoronoiSF := {}
  neighbors : List UInt64 := []
  id2node : Std.ExtTreeMap UInt64 Node := ∅
  neighborStates : Std.ExtTreeMap UInt64 (Std.ExtTreeMap UInt64 NeighborKnowledge) := ∅
  newNeighbors : Std.ExtTreeMap UInt64 Node := ∅
  potentialNeighbors : Std.ExtTreeMap UInt64 Node := ∅
  reqNodes : Std.ExtTreeMap UInt64 Bool := ∅
  updateStatus : Std.ExtTreeMap UInt64 NeighborUpdateStatus := ∅
  timeDrop : Std.ExtTreeMap UInt64 UInt64 := ∅
  net : List VONCall := []

namespace VONPeer

def send (p : VONPeer) (call : VONCall) : VONPeer := { p with net := p.net ++ [call] }

def isNeighbor (p : VONPeer) (id : UInt64) : Bool := p.id2node.contains id

def nodeOf (p : VONPeer) (id : UInt64) : Node := p.id2node[id]?.getD {}

/-- `_id2node[id]` inserts a default node where there is none. -/
def touch (p : VONPeer) (id : UInt64) : VONPeer :=
  if p.isNeighbor id then p else { p with id2node := p.id2node.insert id {} }

def neighborIds (p : VONPeer) : List UInt64 := p.neighbors.map (fun k => (p.nodeOf k).id)

def isAOINeighbor (p : VONPeer) (id : UInt64) (neighbor : Node) (buffer : UInt16) : Bool :=
  p.voronoi.overlaps p.geometry id neighbor.aoi.center (neighbor.aoi.radius + buffer) (!p.strictAoi)

def isRelevantNeighbor (p : VONPeer) (node1 node2 : Node) (buffer : UInt16) : Bool :=
  p.voronoi.isEnclosing p.geometry node1.id node2.id || p.isAOINeighbor node1.id node2 buffer ||
    p.isAOINeighbor node2.id node1 buffer

def accessed (now : UInt64) (node : Node) : Node := { node with addr := { node.addr with lastAccessed := now } }

def insertNode (now : UInt64) (p : VONPeer) (node : Node) : VONPeer :=
  if p.isNeighbor node.id then p
  else
    { p with
      voronoi := p.voronoi.insert node.id node.aoi.center
      id2node := p.id2node.insert node.id (accessed now node)
      neighbors := p.neighbors ++ [node.id]
      neighborStates := p.neighborStates.insert node.id ∅
      timeDrop := p.timeDrop.insert node.id 0
      updateStatus := p.updateStatus.insert node.id .inserted }

def deleteNode (p : VONPeer) (id : UInt64) : VONPeer :=
  if p.isNeighbor id then
    { p with
      voronoi := p.voronoi.remove id
      neighbors := p.neighbors.eraseP (fun k => (p.nodeOf k).id == id)
      id2node := p.id2node.erase id
      neighborStates := p.neighborStates.erase id
      timeDrop := p.timeDrop.erase id
      updateStatus := p.updateStatus.insert id .deleted }
  else p

def updateNode (p : VONPeer) (node : Node) : VONPeer × Bool :=
  if p.isNeighbor node.id = false ∨ node.time < (p.nodeOf node.id).time then (p, false)
  else
    ({ p with
       voronoi := p.voronoi.update node.id node.aoi.center
       id2node := p.id2node.insert node.id node
       updateStatus := if p.updateStatus[node.id]? = some .inserted then p.updateStatus
         else p.updateStatus.insert node.id .updated }, true)

/-- `listsize_t` counts modulo 256. -/
def listsize {α : Type} (l : List α) : Nat := l.length % 256

def sendNodes (p : VONPeer) (target : UInt64) (list : List UInt64) (reliable : Bool := false) : VONPeer :=
  let ids := list.take (listsize list)
  if listsize list = 0 then p
  else
    let p := ids.foldl touch p
    p.send (.node target (ids.map p.nodeOf) reliable)

def sendHello (p : VONPeer) (target : UInt64) (idList : List UInt64) : VONPeer :=
  if listsize idList = 0 then p else p.send (.hello target p.self (idList.take (listsize idList)))

def sendEN (p : VONPeer) (target : UInt64) : VONPeer :=
  let idList := p.voronoi.getEn p.geometry target
  p.send (.en target (idList.take (listsize idList)))

def checkConsistency (p : VONPeer) (skipId : UInt64) : VONPeer :=
  ((p.voronoi.getEn p.geometry p.self.id).filter (fun target => target != skipId)).foldl sendEN p

def isJoined (p : VONPeer) : VONPeer × Bool :=
  let p := if p.state = .joining ∧ 1 < p.neighbors.length then { p with state := .joined } else p
  (p, p.state == .joined)

def join (now : UInt64) (p : VONPeer) (aoi : Area) (gateway : Node) : VONPeer :=
  let r := p.isJoined
  if r.2 then r.1
  else
    let self := { r.1.self with aoi }
    let p := { r.1.insertNode now self with
      self := if r.1.isNeighbor self.id then self else accessed now self }
    if p.self.id = gateway.id then { p with state := .joined }
    else { p.send (.query gateway.id p.self) with state := .joining }

/-- `leave`, which keeps the diagram and the nodes that have been heard of. -/
def leave (p : VONPeer) (notifyNeighbors : Bool := true) : VONPeer :=
  let targets := p.neighborIds.filter (fun id => id != p.self.id) ++ p.potentialNeighbors.toList.map (fun e => e.2.id)
  let p := if notifyNeighbors && !targets.isEmpty then p.send (.bye targets) else p
  { p with neighborStates := ∅, id2node := ∅, neighbors := [], state := .absent }

def sendMove (fails : UInt64 → Bool) (p : VONPeer) (targets : List UInt64) (call : VONCall) : VONPeer :=
  if targets = [] then p else (targets.filter fails).foldl deleteNode (p.send call)

def move (now : UInt64) (fails : UInt64 → Bool) (p : VONPeer) (aoi : Area) (sendtime : UInt64 := 0) : VONPeer :=
  let reshaped := Area.differs { p.self.aoi with center := aoi.center } aoi
  let others := p.id2node.toList.filter (fun e => e.1 != p.self.id)
  let center := p.geometry.freePosition (others.map (fun e => e.2.aoi.center)) aoi.center
  let self := { p.self with aoi := { aoi with center }, time := if sendtime ≠ 0 then sendtime else now }
  let r := { p with self }.updateNode self
  let p := { r.1 with self := if r.2 then accessed now self else self }
  let call (boundary : Bool) (targets : List UInt64) : VONCall :=
    if reshaped then .moveF boundary targets self else .move boundary targets center.x center.y self.time
  let isBoundary (id : UInt64) := p.voronoi.isBoundary p.geometry id center aoi.radius
  let boundaryList := (others.map Prod.fst).filter isBoundary
  let targets := (others.map Prod.fst).filter (fun id => !isBoundary id)
  (p.sendMove fails targets (call false targets)).sendMove fails boundaryList (call true boundaryList)

def handleQuery (now : UInt64) (p : VONPeer) (sender : UInt64) (joiner : Node) : VONPeer :=
  let closest := p.geometry.closestTo p.voronoi.sites joiner.aoi.center
  if p.voronoi.contains p.geometry p.self.id joiner.aoi.center = false ∧ closest ≠ p.self.id ∧ closest ≠ sender then
    p.send (.query closest joiner)
  else
    let p := p.insertNode now joiner
    p.sendNodes joiner.id (p.neighborIds.filter (fun id =>
      id != joiner.id && p.isRelevantNeighbor (p.nodeOf id) joiner p.aoiBuffer)) true

/-- `VON_EN`. Whether an enclosing neighbour is missing is looked up in `_id2node`. -/
def handleEN (p : VONPeer) (sender : UInt64) (ids : List UInt64) : VONPeer :=
  let list := ids.foldl (fun m id => m.insertIfNew id ⟨true, false⟩)
    (∅ : Std.ExtTreeMap UInt64 NeighborKnowledge)
  let p := { p with neighborStates := p.neighborStates.insert sender list }
  let asked := (p.voronoi.getEn p.geometry p.self.id).filter (fun id => id != sender && !list.contains id)
  let p := asked.foldl (fun p id => (p.touch id).touch sender) p
  p.sendNodes sender (asked.filter (fun id =>
    p.isRelevantNeighbor (p.nodeOf id) (p.nodeOf sender) p.aoiBuffer))

/-- `VON_HELLO`, which goes on with `VON_EN`. -/
def handleHello (now : UInt64) (p : VONPeer) (sender : UInt64) (node : Node) (ids : List UInt64) : VONPeer :=
  let p := if p.isNeighbor sender then (p.updateNode node).1 else p.insertNode now node
  ((p.send (.helloR sender p.self.aoi.center)).checkConsistency sender).handleEN sender ids

def handleHelloR (now : UInt64) (p : VONPeer) (sender : UInt64) (center : Position) : VONPeer :=
  match p.potentialNeighbors[sender]? with
  | some node =>
    { p.insertNode now { node with aoi := { node.aoi with center } } with
      potentialNeighbors := p.potentialNeighbors.erase sender }
  | none => p

/-- `VON_MOVE` and its variants, taken from neighbours only. -/
def handleMove (p : VONPeer) (sender : UInt64) (boundary : Bool) (node : Node) : VONPeer :=
  if p.isNeighbor sender then
    let r := p.updateNode node
    if r.2 && boundary then { r.1 with reqNodes := r.1.reqNodes.insert sender true } else r.1
  else p

/-- One node of `VON_NODE`: an older notice does not replace a newer one. -/
def storeNewNeighbor (p : VONPeer) (node : Node) : VONPeer :=
  if p.newNeighbors[node.id]?.all (fun known => known.time ≤ node.time) then
    { p with newNeighbors := p.newNeighbors.insert node.id node }
  else p

/-- `VON_BYE` and `VON_DISCONNECT`. -/
def handleBye (p : VONPeer) (sender : UInt64) : VONPeer :=
  if sender ∈ p.neighborIds then (p.checkConsistency sender).deleteNode sender else p

def handleMessage (now : UInt64) (p : VONPeer) (sender : UInt64) (msg : VONMessage) : VONPeer :=
  if p.state = .absent then p
  else
    match msg with
    | .query joiner => p.handleQuery now sender joiner
    | .hello node ids => p.handleHello now sender node ids
    | .helloR center => p.handleHelloR now sender center
    | .en ids => p.handleEN sender ids
    | .move boundary x y time =>
      let known := p.nodeOf sender
      p.handleMove sender boundary
        { known with aoi := { known.aoi with center := { known.aoi.center with x, y } }, time }
    | .moveF boundary node => p.handleMove sender boundary node
    | .node nodes => nodes.foldl storeNewNeighbor p
    | .bye => p.handleBye sender
    | .disconnect => p.handleBye sender

def tryNewNeighbor (r : VONPeer × List Node) (node : Node) : VONPeer × List Node :=
  if r.1.isNeighbor node.id then ((r.1.updateNode node).1, r.2)
  else ({ r.1 with voronoi := r.1.voronoi.insert node.id node.aoi.center }, r.2 ++ [node])

def greetNewNeighbor (p : VONPeer) (node : Node) : VONPeer :=
  if p.isRelevantNeighbor node p.self p.aoiBuffer then
    { p with potentialNeighbors := p.potentialNeighbors.insert node.id node }.sendHello node.id
      (p.voronoi.getEn p.geometry node.id)
  else p

def contactNewNeighbors (p : VONPeer) : VONPeer :=
  let r := (p.newNeighbors.toList.map Prod.snd).foldl tryNewNeighbor (p, [])
  let p := r.2.foldl greetNewNeighbor r.1
  { p with
    voronoi := r.2.foldl (fun v node => v.remove node.id) p.voronoi
    newNeighbors := ∅ }

def knowledge (p : VONPeer) (fromId id : UInt64) : NeighborKnowledge where
  overlapped := p.isAOINeighbor id (p.nodeOf fromId) p.aoiBuffer
  enclosed := p.voronoi.isEnclosing p.geometry id fromId

/-- `checkNeighborDiscovery` for one neighbour. -/
def discover (p : VONPeer) (fromId : UInt64) : VONPeer :=
  let others := p.neighborIds.filter (fun id => id != p.self.id && id != fromId)
  let p := if others = [] then p else p.touch fromId
  let known := p.neighborStates[fromId]?.getD ∅
  let found := others.filter (fun id => p.knowledge fromId id != {})
  let notifyList := found.filter (fun id =>
    let before := known[id]?.getD {}
    let state := p.knowledge fromId id
    !before.overlapped && (state.overlapped || !before.enclosed && state.enclosed))
  let p := { p with
    neighborStates := p.neighborStates.insert fromId (found.foldl (fun m id =>
      m.insertIfNew id (p.knowledge fromId id)) (∅ : Std.ExtTreeMap UInt64 NeighborKnowledge)) }
  if p.reqNodes.contains fromId then p.sendNodes fromId notifyList else p

def checkNeighborDiscovery (p : VONPeer) : VONPeer :=
  { (p.neighborIds.filter (fun id => id != p.self.id)).foldl discover p with reqNodes := ∅ }

/-- `removeNonOverlapped` for one known node, with the list of those to be removed. -/
def checkOverlap (now gracePeriod : UInt64) (r : VONPeer × List UInt64) (id : UInt64) : VONPeer × List UInt64 :=
  let p := r.1
  if id = p.self.id ∨ p.isRelevantNeighbor p.self (p.nodeOf id) (UInt16.ofNat (p.aoiBuffer.toNat * 5 / 4)) = true then
    ({ p with timeDrop := p.timeDrop.insert id gracePeriod }, r.2)
  else if now ≥ p.timeDrop[id]?.getD 0 then ({ p with timeDrop := p.timeDrop.erase id }, r.2 ++ [id])
  else r

def removeNonOverlapped (now gracePeriod : UInt64) (p : VONPeer) : VONPeer :=
  let r := p.id2node.keys.foldl (checkOverlap now gracePeriod) (p, [])
  if r.2 = [] then r.1 else r.2.foldl deleteNode (r.1.send (.bye r.2))

/-- `tick`. The network hands its messages to `handleMessage` itself; every neighbour counts as
timely, so that no keepalive is sent. -/
def tick (now gracePeriod : UInt64) (p : VONPeer) : VONPeer :=
  (p.isJoined.1.contactNewNeighbors.checkNeighborDiscovery).removeNonOverlapped now gracePeriod

end VONPeer

end VastNC
