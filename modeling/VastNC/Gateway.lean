import VastNC.Area
import VastNC.Lib.StepRun
import VastNC.Lib.Tables

/-! The gateway's part of `VASTMatcher`: the matchers that have announced themselves, the worlds
that they are the origins of, and how candidates are promoted. -/

namespace VastNC

open Std (ExtTreeMap)

/-- `Addr::operator!=`. -/
def Addr.differs (a b : Addr) : Bool :=
  a.hostId != b.hostId || !a.publicIP.equals b.publicIP

/-- `unset` is the zero that an inserted default record has. -/
inductive MatcherState where
  | unset
  | candidate
  | promoting
  | active
  | origin
  deriving DecidableEq

structure MatcherInfo where
  state : MatcherState := .unset
  worldId : UInt16 := 0
  addr : Addr := {}
  time : UInt64 := 0
  deriving DecidableEq

/-- What the gateway sends, promotions with whether they were accepted for sending, and which
candidates it takes. -/
inductive GatewayCall where
  | selected (id : UInt64)
  | init (worldId : UInt16) (originId target : UInt64) (accepted : Bool)
  | promote (target : UInt64) (joinPos : Position) (origin : Node) (accepted : Bool)
  | worldInfo (target : UInt64) (worldId : UInt16) (addr : Addr)
  | notifyMatcher (targets : List UInt64) (addr : Addr)
  deriving DecidableEq

/-- `hung` says that a handler has not returned. -/
structure Gateway where
  matchers : ExtTreeMap UInt64 MatcherInfo := ∅
  origins : ExtTreeMap UInt16 UInt64 := ∅
  requests : ExtTreeMap UInt16 (List UInt64) := ∅
  worldCounter : UInt16 := 2
  hung : Bool := false
  calls : List GatewayCall := []

namespace Gateway

def call (g : Gateway) (c : GatewayCall) : Gateway := { g with calls := g.calls ++ [c] }

def setMatcher (g : Gateway) (id : UInt64) (info : MatcherInfo) : Gateway :=
  { g with matchers := g.matchers.insert id info }

variable (accepts : UInt64 → Bool)

def initMatcher (g : Gateway) (worldId : UInt16) (originId target : UInt64) : Gateway :=
  g.call (.init worldId originId target (accepts target))

def firstCandidate (g : Gateway) : Option (UInt64 × MatcherInfo) :=
  g.matchers.toList.find? (fun e => e.2.state == .candidate)

/-- `findCandidate`, which marks the record before anything is sent. -/
def findCandidate (g : Gateway) : Option (Addr × Gateway) :=
  g.firstCandidate.map fun e =>
    (e.2.addr, (g.setMatcher e.1 { e.2 with state := .promoting }).call (.selected e.1))

/-- The loops that send `message` to candidates until one is accepted, over at most `n` of them,
with the address it was accepted for. -/
def promoteCandidate (message : Addr → Bool → GatewayCall) : Nat → Gateway → Gateway × Option Addr
  | 0, g => (g, none)
  | n + 1, g =>
    match g.findCandidate with
    | none => (g, none)
    | some (addr, g) =>
      let g := g.call (message addr (accepts addr.hostId))
      if accepts addr.hostId then (g, some addr) else promoteCandidate message n g

def handleCandidate (now : UInt64) (g : Gateway) (candidate : Addr) : Gateway :=
  if candidate.hostId ∈ g.matchers then g
  else g.setMatcher candidate.hostId { state := .candidate, worldId := 0, addr := candidate, time := now }

def nextWorld (w : UInt16) : UInt16 := if w + 1 = 0 then 2 else w + 1

/-- The search for a world without an origin, through all ids at most. -/
def freeWorld (g : Gateway) : Nat → UInt16 → Option UInt16
  | 0, _ => none
  | n + 1, w => if w ∈ g.origins then g.freeWorld n (nextWorld w) else some w

def storeRequestingClient (g : Gateway) (worldId : UInt16) (client : UInt64) : Gateway :=
  let list := g.requests[worldId]?.getD []
  { g with requests := g.requests.insert worldId (if client ∈ list then list else list ++ [client]) }

def createOrigin (g : Gateway) (worldId : UInt16) (client : UInt64) : Gateway :=
  let r := g.promoteCandidate accepts (fun addr ok => .init worldId addr.hostId addr.hostId ok) g.matchers.size
  match r.2 with
  | some addr => { r.1 with origins := r.1.origins.insert worldId addr.hostId }.storeRequestingClient worldId client
  | none => r.1

def joinWorld (g : Gateway) (worldId : UInt16) (client : UInt64) : Gateway :=
  match g.origins[worldId]? with
  | none => g.createOrigin accepts worldId client
  | some id =>
    match g.matchers[id]? with
    | none => if id = 0 then { g with origins := g.origins.erase worldId } else g
    | some info =>
      if info.state = .promoting then g.storeRequestingClient worldId client
      else g.call (.notifyMatcher [client] info.addr)

/-- `JOIN`: 0 leaves the world to the gateway, whose search does not end where none is free. -/
def handleJoin (g : Gateway) (worldId : UInt16) (client : UInt64) : Gateway :=
  if worldId = 0 then
    match g.freeWorld 65536 g.worldCounter with
    | some w => { g with worldCounter := w + 1 }.joinWorld accepts w client
    | none => { g with hung := true }
  else g.joinWorld accepts worldId client

def handleInsert (g : Gateway) (joinPos : Position) (origin : Node) : Gateway :=
  (g.promoteCandidate accepts (fun addr ok => .promote addr.hostId joinPos origin ok) g.matchers.size).1

/-- `MATCHER_WORLD_INFO`. Indexing `_matchers` inserts a default record where there is none. -/
def sendWorldInfo (g : Gateway) (target : UInt64) (worldId : UInt16) (originId : UInt64) : Gateway :=
  let info := g.matchers[originId]?.getD {}
  (g.setMatcher originId info).call (.worldInfo target worldId info.addr)

def becomeOrigin (g : Gateway) (id : UInt64) (info : MatcherInfo) : Gateway :=
  let g := g.setMatcher id { info with state := .origin }
  let g := match g.requests[info.worldId]? with
    | some targets => { g with requests := g.requests.erase info.worldId }.call (.notifyMatcher targets info.addr)
    | none => g
  { g with origins := g.origins.insert info.worldId id }

/-- `MATCHER_ALIVE` with the record `info` of the matcher brought up to date. -/
def keepAlive (g : Gateway) (sender id originId : UInt64) (info : MatcherInfo) : Gateway :=
  let g := g.setMatcher id info
  if id = originId then
    match g.origins[info.worldId]? with
    | none => g.becomeOrigin id info
    | some origin =>
      if info.state = .promoting ∨ info.state = .origin then g.becomeOrigin id info
      else g.initMatcher accepts info.worldId origin sender
  else if info.state = .candidate ∨ info.state = .promoting then g.setMatcher id { info with state := .active }
  else g

/-- `MATCHER_ALIVE` for the world `worldId`, from the address `addr`. -/
def handleAliveIn (now : UInt64) (g : Gateway) (sender : UInt64) (worldId : UInt16) (addr : Addr)
    (originId : UInt64) : Gateway :=
  let refreshed (info : MatcherInfo) : MatcherInfo :=
    { info with time := now, worldId, addr := if info.addr.differs addr then addr else info.addr }
  match g.matchers[addr.hostId]? with
  | some info => g.keepAlive accepts sender addr.hostId originId (refreshed info)
  | none =>
    match g.origins[worldId]? with
    | some origin => g.initMatcher accepts worldId origin sender
    | none => g.keepAlive accepts sender addr.hostId originId (refreshed { state := .active, addr })

/-- `MATCHER_ALIVE`: a matcher that does not know its world is put into that of its origin. -/
def handleAlive (now : UInt64) (g : Gateway) (sender : UInt64) (requestReply : Bool) (worldId : UInt16)
    (addr : Addr) (originId : UInt64) : Gateway :=
  let worldId := if worldId = 0 then (g.matchers[originId]?.getD {}).worldId else worldId
  if worldId = 0 then g
  else
    (if requestReply then g.sendWorldInfo sender worldId originId else g).handleAliveIn accepts now sender worldId
      addr originId

def isOriginMatcher (g : Gateway) (id : UInt64) : Bool :=
  g.matchers[id]?.any (fun info => g.origins[info.worldId]? == some id)

def backup (g : Gateway) (worldId : UInt16) : Option (UInt64 × MatcherInfo) :=
  g.matchers.toList.find? (fun e => e.2.worldId == worldId && e.2.state == .active)

def originDisconnected (g : Gateway) (id : UInt64) : Gateway :=
  match g.matchers[id]? with
  | none => g
  | some gone =>
    let g := { g with matchers := g.matchers.erase id }
    match g.backup gone.worldId with
    | some (k, info) =>
      { g.setMatcher k { info with state := .origin } with origins := g.origins.insert gone.worldId k }.initMatcher
        accepts gone.worldId info.addr.hostId info.addr.hostId
    | none => { g with origins := g.origins.erase gone.worldId }

/-- `DISCONNECT`, as far as the tables of the gateway go. -/
def handleDisconnect (g : Gateway) (id : UInt64) : Gateway :=
  if g.isOriginMatcher id then g.originDisconnected accepts id else g

/-- The messages that the gateway handles. `accepts` says which targets a message can be sent to
meanwhile. -/
inductive Event where
  | candidate (now : UInt64) (candidate : Addr)
  | join (accepts : UInt64 → Bool) (worldId : UInt16) (client : UInt64)
  | insert (accepts : UInt64 → Bool) (joinPos : Position) (origin : Node)
  | alive (accepts : UInt64 → Bool) (now sender : UInt64) (requestReply : Bool) (worldId : UInt16) (addr : Addr)
      (originId : UInt64)
  | disconnect (accepts : UInt64 → Bool) (id : UInt64)

def handle (g : Gateway) : Event → Gateway
  | .candidate now candidate => g.handleCandidate now candidate
  | .join accepts worldId client => g.handleJoin accepts worldId client
  | .insert accepts joinPos origin => g.handleInsert accepts joinPos origin
  | .alive accepts now sender requestReply worldId addr originId =>
    g.handleAlive accepts now sender requestReply worldId addr originId
  | .disconnect accepts id => g.handleDisconnect accepts id

def step (g : Gateway) (e : Event) : Gateway := if g.hung then g else g.handle e

end Gateway

end VastNC
