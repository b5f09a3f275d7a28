import VastNC.GhostRemoval

/-! `VASTClient` over whole runs: how it joins, subscribes, loses its matcher or its relay and tries
again. -/

namespace VastNC

/-- The messages that a client sends. -/
inductive ClientMessage where
  | join (worldId : UInt16)
  | leave
  | stat (type : UInt16)
  | syncClock (time : UInt64)
  | subscribe (sub : Subscription)
  | publish (area : Area) (layer : UInt16) (msg : Message)
  | move (msg : AreaMessage)
  | send (msg : Message)
  | report (msg : Message)
  | neighborRequest (subId id : UInt64)

/-- What the client hands to its message queue. -/
inductive ClientCall where
  | send (targets : List UInt64) (msg : ClientMessage)
  | notifyMapping (id : UInt64) (addr : Addr)

/-- What the client meets during a call: the manager's clock, the relay and the network. `unreachable` are
the targets to which there is no connection. -/
structure ClientEnv where
  clock : UInt64
  hostId : UInt64
  hostIP : UInt32
  uniqueId : UInt64
  relayJoined : Bool
  relayId : UInt64
  relayAddr : Addr
  isConnected : UInt64 → Bool
  unreachable : UInt64 → Bool

/-- `asked` is a history: `subscribe` was called after the last `leave`. -/
structure VASTClient where
  state : NodeState := .absent
  matcherId : UInt64 := netIdUnassigned
  closestId : UInt64 := netIdUnassigned
  gateway : Addr := {}
  worldId : UInt16 := 0
  client : AreaClient := { sub := {} }
  selfAoi : Area := {}
  table : ClientNeighbors := { neighbors := ⟨[], List.nodup_nil⟩ }
  msglist : List Message := []
  nextPeriodic : UInt64 := 0
  timeoutJoin : UInt64 := 0
  timeoutSubscribe : UInt64 := 0
  sec2timestamp : UInt64 := 1000
  msPerTimestep : Int := 10
  calls : List ClientCall := []
  asked : Bool := false

/-- A message that arrives, with what it carries. -/
inductive ClientInput where
  | subscribeR (subNo : UInt64) (matcher : Addr)
  | notifyMatcher (matcher : Addr)
  | notifyClosest (fromId : UInt64) (matcher : Addr)
  | neighbor (entries : List NeighborChange)
  | message (msg : Message)
  | syncClock (sent gateway : UInt64)
  | disconnect (fromId : UInt64)

inductive ClientEvent where
  | join (gateway : IPaddr) (worldId : UInt16)
  | leave
  | subscribe (area : Area) (layer : UInt16)
  | publish (area : Area) (layer : UInt16) (msg : Message)
  | move (id : UInt64) (aoi : Area) (updateOnly : Bool)
  | send (msg : Message)
  | reportGateway (msg : Message)
  | reportOrigin (msg : Message)
  | input (m : ClientInput)
  | postHandling

namespace VASTClient

variable (env : ClientEnv)

def now (c : VASTClient) : UInt64 := c.client.getTimestamp env.clock

/-- `_TIMEOUT_JOIN_`, `_TIMEOUT_SUBSCRIBE_` and `_TIMEOUT_REMOVE_GHOST_` seconds in units of the clock. -/
def timeout (c : VASTClient) : UInt64 := UInt64.ofInt ((500 * c.msPerTimestep).tdiv 1000) * c.sec2timestamp

def call (c : VASTClient) (call : ClientCall) : VASTClient := { c with calls := c.calls ++ [call] }

def handleMatcherDisconnect (c : VASTClient) : VASTClient :=
  { c with
    matcherId := c.closestId
    closestId := 0
    client := { c.client with active := false }
    timeoutSubscribe := 1 }

def dropClosest (c : VASTClient) (failed : UInt64) : VASTClient :=
  if failed ≠ c.matcherId ∧ failed = c.closestId then { c with closestId := 0 } else c

/-- `others` are the targets that the message has before the matcher is added. -/
def sendMatcherMessage (c : VASTClient) (msg : ClientMessage) (others : List UInt64 := []) :
    VASTClient × Bool :=
  let targets := if c.matcherId ∈ others then others else others ++ [c.matcherId]
  let failed := targets.filter env.unreachable
  let c := failed.foldl dropClosest (c.call (.send targets msg))
  if c.matcherId ∈ failed then (c.handleMatcherDisconnect, false) else (c, true)

def sendGatewayMessage (c : VASTClient) (msg : ClientMessage) : VASTClient :=
  if c.gateway.hostId = 0 then c
  else
    let c := if env.isConnected c.gateway.hostId then c
      else c.call (.notifyMapping c.gateway.hostId c.gateway)
    c.call (.send [c.gateway.hostId] msg)

/-- `VASTnet::validateIPAddress`: an address of this machine itself becomes the one that others know. -/
def validateIPAddress (addr : IPaddr) : IPaddr :=
  if addr.host = 0 ∨ addr.host = 2130706433 then { addr with host := env.hostIP } else addr

def join (c : VASTClient) (gateway : IPaddr) (worldId : UInt16) : VASTClient :=
  let gateway := validateIPAddress env gateway
  let c := { c with
    gateway := { hostId := resolveHostID gateway, publicIP := gateway }
    worldId
    timeoutJoin := c.now env + c.timeout }
  if env.relayJoined = false then c
  else { c with state := .joining }.sendGatewayMessage env (.join worldId)

def leave (c : VASTClient) : VASTClient :=
  if c.state = .absent then c
  else
    let c := (c.sendMatcherMessage env .leave).1.sendGatewayMessage env (.stat 2)
    { c with timeoutSubscribe := 0, state := .absent, asked := false }

/-- The first part of `subscribe`: what is asked for is kept for the next attempts. -/
def recordSubscription (c : VASTClient) (area : Area) (layer : UInt16) : VASTClient :=
  let id := if c.client.sub.id = netIdUnassigned then env.uniqueId else c.client.sub.id
  { c with
    timeoutSubscribe := c.now env + c.timeout
    client := { c.client with sub := { c.client.sub with id, aoi := area, layer } } }

/-- The rest of the subscription is not serialized. -/
def subscription (c : VASTClient) : Subscription where
  hostId := env.hostId
  id := c.client.sub.id
  layer := c.client.sub.layer
  aoi := c.client.sub.aoi
  relay := env.relayAddr

def sendSubscription (c : VASTClient) : VASTClient :=
  let sub := { c.client.sub with hostId := env.hostId, relay := env.relayAddr }
  let c := { c with client := { c.client with sub, active := false } }
  (c.sendMatcherMessage env (.subscribe (c.subscription env))).1

def subscribe (c : VASTClient) (area : Area) (layer : UInt16) : VASTClient :=
  let c := c.recordSubscription env area layer
  if c.state ≠ .joined ∨ env.relayJoined = false then c else c.sendSubscription env

def publish (c : VASTClient) (area : Area) (layer : UInt16) (msg : Message) : VASTClient :=
  if c.state ≠ .joined then c else (c.sendMatcherMessage env (.publish area layer msg)).1

def move (c : VASTClient) (id : UInt64) (aoi : Area) (updateOnly : Bool) : VASTClient :=
  if c.client.active = false then c
  else if id ≠ c.client.sub.id then
    { c with client := { c.client with active := false }, timeoutSubscribe := 1 }
  else if c.state = .joined then
    let others := if c.closestId ≠ netIdUnassigned then [c.closestId] else []
    let r := c.client.move id aoi updateOnly env.clock
    let c := r.2.foldl (fun c msg => (c.sendMatcherMessage env (.move msg) others).1) { c with client := r.1 }
    { c with selfAoi := r.1.sub.aoi }
  else c

def send (c : VASTClient) (msg : Message) : VASTClient :=
  if c.state ≠ .joined then c else (c.sendMatcherMessage env (.send msg)).1

def reportGateway (c : VASTClient) (msg : Message) : VASTClient :=
  if c.state ≠ .joined then c else c.sendGatewayMessage env (.report msg)

def reportOrigin (c : VASTClient) (msg : Message) : VASTClient :=
  if c.state ≠ .joined then c else (c.sendMatcherMessage env (.report msg)).1

def requestNeighbor (c : VASTClient) (id : UInt64) : VASTClient :=
  (c.sendMatcherMessage env (.neighborRequest c.client.sub.id id)).1

/-- An update of somebody unknown makes the client ask for it. -/
def isUnknown (table : ClientNeighbors) : NeighborChange → Bool
  | .inserted _ _ => false
  | .deleted _ => false
  | .unchanged _ => false
  | .updated id _ _ => (table.neighbors.find id).isNone

/-- One entry of `NEIGHBOR`. -/
def applyEntry (c : VASTClient) (e : NeighborChange) : VASTClient :=
  let unknown := isUnknown c.table e
  let c := { c with table := c.table.apply (c.now env) e }
  if unknown then c.requestNeighbor env e.id else c

def subscribed (c : VASTClient) (subNo : UInt64) (matcher : Addr) : VASTClient :=
  if c.client.active then c
  else
    let c := { c with
      client := { c.client with sub := { c.client.sub with id := subNo }, active := true }
      table := { c.table with lastUpdate := c.table.lastUpdate.insert subNo (c.now env) }
      selfAoi := c.client.sub.aoi }
    let c := if matcher.hostId = c.matcherId then c
      else { c with matcherId := matcher.hostId }.call (.notifyMapping matcher.hostId matcher)
    (c.sendGatewayMessage env (.stat 1)).sendGatewayMessage env (.syncClock (c.now env))

def notifyMatcher (c : VASTClient) (matcher : Addr) : VASTClient :=
  let c := if matcher.hostId = c.matcherId then c
    else { c with closestId := c.matcherId, matcherId := matcher.hostId }.call
      (.notifyMapping matcher.hostId matcher)
  if c.state = .joining then { c with state := .joined } else c

def notifyClosest (c : VASTClient) (fromId : UInt64) (matcher : Addr) : VASTClient :=
  if fromId = c.matcherId then
    { c with closestId := matcher.hostId }.call (.notifyMapping matcher.hostId matcher)
  else c

def disconnected (c : VASTClient) (fromId : UInt64) : VASTClient :=
  if fromId = c.matcherId then c.handleMatcherDisconnect
  else if env.relayId = netIdUnassigned ∨ fromId = env.relayId then
    { c with client := { c.client with active := false }, timeoutSubscribe := 1 }
  else c

def handleMessage (c : VASTClient) (m : ClientInput) : VASTClient :=
  if c.state = .absent then c
  else
    match m with
    | .subscribeR subNo matcher => c.subscribed env subNo matcher
    | .notifyMatcher matcher => c.notifyMatcher matcher
    | .notifyClosest fromId matcher => c.notifyClosest fromId matcher
    | .neighbor entries => entries.foldl (applyEntry env) c
    | .message msg => { c with msglist := c.msglist ++ [msg.reset] }
    | .syncClock sent gateway => { c with client := c.client.syncClock env.clock sent gateway }
    | .disconnect fromId => c.disconnected env fromId

def removeGhosts (c : VASTClient) : VASTClient :=
  if c.client.active = false then c
  else
    let lost := c.client.sub.id ∈ c.table.ghosts (c.now env) c.timeout
    let c := { c with table := c.table.removeGhosts c.client.sub.id (c.now env) c.timeout }
    if lost then c.handleMatcherDisconnect else c

/-- The first part of `postHandling`: whatever is missing is asked for again. -/
def retry (c : VASTClient) : VASTClient :=
  if c.matcherId = netIdUnassigned then
    if c.gateway.hostId ≠ 0 ∧ c.timeoutJoin ≠ 0 ∧ c.timeoutJoin ≤ c.now env then
      c.join env c.gateway.publicIP c.worldId
    else c
  else if c.client.active = false ∧ c.timeoutSubscribe ≠ 0 ∧ c.timeoutSubscribe ≤ c.now env then
    c.subscribe env c.client.sub.aoi c.client.sub.layer
  else c

def postHandling (c : VASTClient) : VASTClient :=
  if c.state = .absent then c
  else
    let now := c.now env
    let c := c.retry env
    if c.nextPeriodic ≤ now then { c with nextPeriodic := now + c.sec2timestamp }.removeGhosts env else c

def step (c : VASTClient) (e : ClientEnv × ClientEvent) : VASTClient :=
  match e.2 with
  | .join gateway worldId => c.join e.1 gateway worldId
  | .leave => c.leave e.1
  | .subscribe area layer => { c.subscribe e.1 area layer with asked := true }
  | .publish area layer msg => c.publish e.1 area layer msg
  | .move id aoi updateOnly => c.move e.1 id aoi updateOnly
  | .send msg => c.send e.1 msg
  | .reportGateway msg => c.reportGateway e.1 msg
  | .reportOrigin msg => c.reportOrigin e.1 msg
  | .input m => c.handleMessage e.1 m
  | .postHandling => c.postHandling e.1

def run (c : VASTClient) (es : List (ClientEnv × ClientEvent)) : VASTClient := es.foldl step c

end VASTClient

end VastNC
