import VastNC.Extract

/-! `VASTRelay`: the relays that a node knows, the way by which it finds and joins the closest of
them, and the messages that it forwards to the clients of its own. -/

namespace VastNC

/-- Distances as the relay compares them; `close` is the test against `EQUAL_DISTANCE`. -/
structure RelayMetric (K : Type) where
  distance : Position → Position → K
  lt : K → K → Bool
  close : K → K → Bool

/-- What `_curr_relay` points to: the node itself or an entry of `_relays`. -/
inductive RelayPointer where
  | self
  | entry (id : UInt64)
  deriving DecidableEq, Repr

structure RelayTiming where
  keepalive : UInt64
  query : UInt64
  joinJoined : UInt64
  join : UInt64

inductive RelayCall where
  | ping (targets : List UInt64)
  | pong (target : UInt64) (first : Bool)
  | relay (targets : List UInt64) (relays : List Node)
  | query (target : UInt64) (joiner : Node) (forwarder : Addr)
  | queryR (target : UInt64) (requester relay : Node)
  | join (target : UInt64) (joiner : Node) (isRelay : Bool)
  | joinR (target : UInt64) (reply : Bool)
  | forward (msg : Message)
  | deliver (subId : UInt64) (msg : Message)

inductive RelayMessage where
  | ping
  | pong (initial : Bool) (querytime : UInt64) (coord : Position)
  | relay (relays : List Node)
  | query (joiner : Node) (forwarder : Addr)
  | queryR (requester relay : Node)
  | join (joiner : Node) (isRelay : Bool)
  | joinR (success : Bool)
  | subscribeNotify (subId clientHostId : UInt64)
  | disconnect
  | other (msg : Message)

/-- A pointer into `_relays` is given by the key of its entry, under which `addRelay` stores the
node of that id. `fails` and `selected` say which targets the `n`-th call of the network does not
reach and which relays it is meant for; `wild` is set where the source would read past the end of
`_dist2relay`. -/
structure VASTRelay (K : Type) where
  metric : RelayMetric K
  self : Node
  asRelay : Bool
  isPublic : Bool
  clientLimit : Nat
  relayLimit : Nat
  timing : RelayTiming
  entries : List Node
  fails : Nat → UInt64 → Bool
  selected : Nat → UInt64 → Bool
  tempCoord : Position
  state : NodeState := .absent
  currRelay : Option RelayPointer := none
  contactRelay : Option UInt64 := none
  timeoutPing : UInt64 := 0
  timeoutQuery : UInt64 := 0
  timeoutJoin : UInt64 := 0
  relays : Std.ExtTreeMap UInt64 Node := ∅
  dist2relay : List (K × UInt64) := []
  clients : Std.ExtTreeMap UInt64 Node := ∅
  sub2client : Std.ExtTreeMap UInt64 UInt64 := ∅
  pending : Std.ExtTreeMap UInt64 UInt64 := ∅
  queue : List (UInt64 × Message) := []
  queueTime : Std.ExtTreeMap UInt64 UInt64 := ∅
  net : List RelayCall := []
  wild : Bool := false

/-- The type without the application's part, which only a `MESSAGE` gets back. -/
def forwardedType (msgtype : UInt16) : UInt16 :=
  if vastMsgtype msgtype = messageType then packMsgtype (appMsgtype msgtype) messageType else vastMsgtype msgtype

def closestRelay {K : Type} (m : RelayMetric K) (self : Node) (known : List Node) (pos : Position) : Node :=
  known.foldl (fun closest relay =>
    let minDist := m.distance closest.aoi.center pos
    let dist := m.distance relay.aoi.center pos
    if m.lt dist minDist || m.close dist minDist && relay.id < closest.id then relay else closest) self

namespace VASTRelay

variable {K : Type}

def constructed (p : VASTRelay K) : VASTRelay K where
  metric := p.metric
  self := p.self
  asRelay := p.asRelay
  isPublic := p.isPublic
  clientLimit := p.clientLimit
  relayLimit := p.relayLimit
  timing := p.timing
  entries := p.entries
  fails := p.fails
  selected := p.selected
  tempCoord := p.tempCoord

def send (p : VASTRelay K) (call : RelayCall) : VASTRelay K := { p with net := p.net ++ [call] }

def nodeOf (p : VASTRelay K) (id : UInt64) : Node := p.relays[id]?.getD {}

def currId (p : VASTRelay K) : Option UInt64 := p.currRelay.map fun
  | .self => p.self.id
  | .entry id => id

def isRelay (p : VASTRelay K) : Bool := p.asRelay && p.isPublic

def hasCoordinate (p : VASTRelay K) : Bool := p.self.aoi.center.equals p.tempCoord

def isJoined (p : VASTRelay K) : Bool := p.hasCoordinate && p.currRelay.isSome && p.state == .joined

/-- The insertion into a multimap, behind the entries of the same key. -/
def insertByDist (m : RelayMetric K) (e : K × UInt64) (l : List (K × UInt64)) : List (K × UInt64) :=
  l.takeWhile (fun x => !m.lt e.1 x.1) ++ e :: l.dropWhile (fun x => !m.lt e.1 x.1)

def addRelay (now : UInt64) (p : VASTRelay K) (relay : Node) : VASTRelay K :=
  if relay.id = 0 then p
  else
    let dist := p.metric.distance relay.aoi.center p.self.aoi.center
    let rest := if relay.id ∈ p.relays then p.dist2relay.eraseP (fun e => e.2 == relay.id) else p.dist2relay
    { p with
      relays := p.relays.insert relay.id { relay with time := now }
      dist2relay := insertByDist p.metric (dist, relay.id) rest }

/-- The first part of `removeRelay`: pointers to the relay are dropped. -/
def forget (p : VASTRelay K) (id : UInt64) : VASTRelay K :=
  if p.currId = some id then
    { p with currRelay := none, contactRelay := none, timeoutQuery := 0, state := .querying }
  else if p.contactRelay = some id then { p with contactRelay := none }
  else p

def removeRelay (p : VASTRelay K) (id : UInt64) : VASTRelay K :=
  if id ∈ p.relays then
    let p := p.forget id
    let p :=
      if p.dist2relay.any (fun e => e.2 == id) then
        { p with dist2relay := p.dist2relay.eraseP (fun e => e.2 == id), relays := p.relays.erase id }
      else p
    let p := { p with pending := p.pending.erase id }
    if p.relays.isEmpty then { p with timeoutPing := 0 } else p
  else p

def sendRelay (p : VASTRelay K) (targets : List UInt64) (call : RelayCall) : VASTRelay K × Nat :=
  if targets = [] then (p, 0)
  else
    let failed := targets.filter (p.fails p.net.length)
    (failed.foldl removeRelay (p.send call), targets.length - failed.length)

def nextRelay (p : VASTRelay K) : VASTRelay K × Option UInt64 :=
  match p.contactRelay with
  | none =>
    if p.relays.isEmpty then (p, none)
    else
      let contact := p.dist2relay.head?.map Prod.snd
      ({ p with contactRelay := contact, wild := p.wild || p.dist2relay.isEmpty }, contact)
  | some id =>
    let rest := (p.dist2relay.dropWhile (fun e => e.2 != id)).tail
    let contact := (rest.head? <|> p.dist2relay.head?).map Prod.snd
    ({ p with contactRelay := contact, wild := p.wild || p.dist2relay.isEmpty }, contact)

def joinRelay (now : UInt64) (p : VASTRelay K) : VASTRelay K :=
  if p.relays.isEmpty then p
  else
    let r := p.nextRelay
    match r.2 with
    | none => r.1
    | some id =>
      let s := r.1.sendRelay [id] (.join id r.1.self r.1.isRelay)
      { s.1 with timeoutJoin :=
          if s.2 > 0 then now + (if s.1.isJoined then s.1.timing.joinJoined else s.1.timing.join) else 0 }

/-- The ids to be removed, from the far end of the list, without that of the current relay. -/
def farthest (curr : UInt64) : Nat → List UInt64 → Option (List UInt64)
  | 0, _ => some []
  | _ + 1, [] => none
  | n + 1, id :: rest =>
    if id = curr then farthest curr (n + 1) rest else (farthest curr n rest).map (id :: ·)

def cleanupRelays (p : VASTRelay K) : VASTRelay K :=
  match p.currId with
  | none => p
  | some curr =>
    if p.relayLimit ≠ 0 ∧ p.state = .joined ∧ p.relayLimit < p.dist2relay.length then
      match farthest curr (p.dist2relay.length - p.relayLimit) (p.dist2relay.map Prod.snd).reverse with
      | none => { p with wild := true }
      | some list => list.foldl removeRelay p
    else p

def sendRelayList (p : VASTRelay K) (target : UInt64) : VASTRelay K :=
  if p.relays.size % 256 = 0 then p
  else p.send (.relay [target] ((p.relays.keys.filter (p.selected p.net.length)).map p.nodeOf))

def notifyPhysicalCoordinate (p : VASTRelay K) : VASTRelay K :=
  let notified := if p.relayLimit = 0 then p.relays.keys else p.relays.keys.take p.relayLimit
  let targets := notified.filter (fun id => id != p.self.id)
  (p.sendRelay targets (.relay targets [p.self])).1

def setJoined (p : VASTRelay K) (relayId : UInt64 := 0) : VASTRelay K :=
  if relayId = 0 then { p with currRelay := some .self, contactRelay := none, state := .joined }
  else if relayId ∈ p.relays then
    { p with currRelay := some (.entry relayId), contactRelay := none, state := .joined }
  else p

def pong (p : VASTRelay K) (target : UInt64) (first : Bool) : VASTRelay K :=
  let p := if first then p else { p with pending := p.pending.erase target }
  (p.sendRelay [target] (.pong target first)).1

def ping (now : UInt64) (p : VASTRelay K) (currRelayOnly : Bool) : VASTRelay K :=
  let asked :=
    if currRelayOnly then []
    else (p.relays.keys.filter (p.selected p.net.length)).filter
      (fun id => id != p.self.id && !p.pending.contains id)
  let p := { p with pending := asked.foldl (fun m id => m.insert id now) p.pending }
  let targets :=
    match p.currId with
    | some curr => if p.isRelay = false ∧ curr ∉ asked then asked ++ [curr] else asked
    | none => asked
  (p.sendRelay targets (.ping targets)).1

/-- `RELAY_QUERY`: each failed send removes a relay, so that the loop ends before `fuel` does. -/
def handleQuery (joiner : Node) (forwarder : Addr) : Nat → VASTRelay K → VASTRelay K
  | 0, p => { p with wild := true }
  | fuel + 1, p =>
    let closest := closestRelay p.metric p.self (p.dist2relay.map fun e => p.nodeOf e.2) joiner.aoi.center
    if closest.id = p.self.id then
      (p.sendRelay [forwarder.hostId] (.queryR forwarder.hostId joiner closest)).1
    else
      let r := p.sendRelay [closest.id] (.query closest.id joiner forwarder)
      if r.2 > 0 then r.1 else handleQuery joiner forwarder fuel r.1

def addClient (p : VASTRelay K) (client : Node) : VASTRelay K :=
  { p with clients := p.clients.insert client.id client }

def removeClient (p : VASTRelay K) (id : UInt64) : VASTRelay K :=
  { p with clients := p.clients.erase id, sub2client := p.sub2client.filter (fun _ host => host != id) }

/-- `RELAY_JOIN`. -/
def handleJoin (p : VASTRelay K) (joiner : Node) (isRelay : Bool) : VASTRelay K :=
  let reply := joiner.id == p.self.id ||
    p.asRelay && !isRelay && (p.clientLimit == 0 || decide (p.clients.size < p.clientLimit))
  let p := if reply then p.addClient joiner else p
  (p.send (.joinR joiner.id reply)).sendRelayList joiner.id

/-- `forwardMessage`: the queued messages for one subscription, the oldest first, are sent to the
host, or dropped where there is none. -/
def forwardMessage (p : VASTRelay K) (subId hostId : UInt64) : VASTRelay K :=
  let waiting := (p.queue.filter (fun e => e.1 == subId)).map Prod.snd
  { p with
    net := p.net ++ if hostId = 0 then [] else waiting.map fun msg =>
      .deliver subId { msg with targets := [hostId], msggroup := groupClient }
    queue := p.queue.filter (fun e => e.1 != subId)
    queueTime := if waiting = [] then p.queueTime else p.queueTime.erase subId }

def translate (p : VASTRelay K) (target : UInt64) : Option UInt64 :=
  match p.sub2client[target]? with
  | some host => some host
  | none => if target = p.self.id then some target else none

def enqueue (now : UInt64) (msg : Message) (p : VASTRelay K) (target : UInt64) : VASTRelay K :=
  { p with
    queue := p.queue ++ [(target, { msg with targets := [target], msggroup := groupClient })]
    queueTime := p.queueTime.insert target (now + p.timing.keepalive) }

def forward (now : UInt64) (p : VASTRelay K) (msg : Message) : VASTRelay K :=
  let clients := msg.targets.filterMap p.translate
  let unknown := msg.targets.filter (fun target => (p.translate target).isNone)
  let p := unknown.foldl (enqueue now msg) p
  if clients = [] then p else p.send (.forward { msg with targets := clients, msggroup := groupClient })

def handleMessage (now sender : UInt64) (p : VASTRelay K) : RelayMessage → VASTRelay K
  | .ping => (p.pong sender true).sendRelayList sender
  | .pong initial querytime coord =>
    if now = querytime then p.removeRelay sender
    else
      let p := { p with
        tempCoord := p.self.aoi.center
        relays := if sender ∈ p.relays then
            let relay := p.nodeOf sender
            p.relays.insert sender { relay with aoi := { relay.aoi with center := coord } }
          else p.relays }
      if initial then p.pong sender false else p
  | .relay relays => relays.foldl (addRelay now) p
  | .query joiner forwarder => handleQuery joiner forwarder (p.dist2relay.length + 1) p
  | .queryR requester relay =>
    if requester.id = p.self.id then
      let p := p.addRelay now relay
      let p := if p.isRelay then p.addRelay now p.self else p
      p.joinRelay now
    else if p.isJoined then (p.sendRelay [requester.id] (.queryR requester.id requester relay)).1
    else p
  | .join joiner isRelay => p.handleJoin joiner isRelay
  | .joinR success =>
    if p.state = .joined then p
    else if p.isRelay = false ∧ success = false then p.joinRelay now
    else if p.isRelay then p.notifyPhysicalCoordinate.setJoined
    else p.setJoined sender
  | .subscribeNotify subId clientHostId =>
    { p with sub2client := p.sub2client.insert subId clientHostId }.forwardMessage subId clientHostId
  | .disconnect => if sender ∈ p.relays then p.removeRelay sender else p.removeClient sender
  | .other msg => p.forward now { msg with msgtype := forwardedType msg.msgtype }

def expired (now : UInt64) (p : VASTRelay K) : List UInt64 :=
  (p.queueTime.toList.filter (fun e => now > e.2)).map Prod.fst

def useEntries (now : UInt64) (p : VASTRelay K) : VASTRelay K :=
  if p.relays.isEmpty then p.entries.foldl (addRelay now) p else p

def maintain (now : UInt64) (p : VASTRelay K) : VASTRelay K :=
  if now ≥ p.timeoutPing then
    let p := { p with timeoutPing := now + p.timing.keepalive }.useEntries now
    if p.relays.isEmpty then p
    else
      let p := p.ping now p.isJoined
      (p.expired now).foldl (fun p subId => p.forwardMessage subId 0) p
  else p

def queryRelay (now : UInt64) (p : VASTRelay K) : VASTRelay K :=
  if now ≥ p.timeoutQuery then
    let r := { p with timeoutQuery := now + p.timing.query }.nextRelay
    match r.2 with
    | none => { r.1 with timeoutPing := 0 }
    | some id =>
      let s := r.1.sendRelay [id] (.query id r.1.self (r.1.nodeOf id).addr)
      if s.2 = 0 then { s.1 with timeoutQuery := 0 } else s.1
  else p

def advance (now : UInt64) (p : VASTRelay K) : VASTRelay K :=
  match p.state with
  | .absent =>
    if p.relays.isEmpty then
      let self := { p.self with aoi := { p.self.aoi with center := p.tempCoord } }
      { p with self }.setJoined
    else if p.hasCoordinate then { p with state := .querying }
    else p
  | .querying => if p.currRelay.isSome then { p with state := .joining } else p.queryRelay now
  | .joining => if now ≥ p.timeoutJoin then p.joinRelay now else p
  | _ => p

def postHandling (now : UInt64) (p : VASTRelay K) : VASTRelay K := ((p.maintain now).advance now).cleanupRelays

inductive Event where
  | message (now sender : UInt64) (msg : RelayMessage)
  | postHandling (now : UInt64)

def step (p : VASTRelay K) : Event → VASTRelay K
  | .message now sender msg => p.handleMessage now sender msg
  | .postHandling now => p.postHandling now

end VASTRelay

end VastNC
