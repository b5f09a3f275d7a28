import VastNC.Area
import VastNC.Lib.StepRun

/-! `VASTVerse`: the layers under a node, and the life of the node from its creation to its
destruction. -/

namespace VastNC

structure VASTNodeInfo where
  worldId : UInt16
  aoi : Area
  layer : UInt16

structure VerseLayers where
  netJoined : Bool
  gatewayValid : Bool
  hostIdAssigned : Bool
  relayJoined : Bool
  matcherJoined : Bool
  clientJoined : Bool
  /-- `getSubscriptionID` is not `NET_ID_UNASSIGNED`. -/
  subscribed : Bool

inductive VerseCall where
  | gatewayConnected
  | nodeJoined
  | nodeLeft
  | matcherJoin
  | clientJoin (worldId : UInt16)
  | clientLeave
  | subscribe (aoi : Area) (layer : UInt16)

/-- `net` to `client` say whether the pointer is set. `retryPeriod` is in ticks, `_state` begins
as `ABSENT`. -/
structure VASTVerse where
  retryPeriod : Nat
  callback : Bool
  state : NodeState := .absent
  timeout : Nat := 0
  gwConnected : Bool := false
  vastinfo : List VASTNodeInfo := []
  net : Bool := false
  relay : Bool := false
  matcher : Bool := false
  client : Bool := false
  calls : List VerseCall := []

namespace VASTVerse

def call (v : VASTVerse) (c : VerseCall) : VASTVerse := { v with calls := v.calls ++ [c] }

def notify (v : VASTVerse) (c : VerseCall) : VASTVerse := if v.callback then v.call c else v

def createVASTNode (v : VASTVerse) (info : VASTNodeInfo) : VASTVerse :=
  if v.vastinfo = [] then { v with vastinfo := [info] } else v

def getVASTNode (v : VASTVerse) : Bool := v.state == .joined && v.client

def isInitialized (env : VerseLayers) (v : VASTVerse) : VASTVerse × Bool :=
  if v.net = false then ({ v with net := true }, false)
  else if env.netJoined = false then (v, false)
  else if v.relay = false then ({ v with relay := env.gatewayValid && env.hostIdAssigned }, false)
  else if env.relayJoined = false then (v, false)
  else if v.matcher = false then ({ v with matcher := true }, true)
  else (v, true)

def createClient (env : VerseLayers) (v : VASTVerse) (worldId : UInt16) : VASTVerse × Bool :=
  let r := v.isInitialized env
  if r.2 = false then (r.1, false)
  else if r.1.client then (r.1, true)
  else if env.matcherJoined = false then (r.1.call .matcherJoin, false)
  else ({ r.1.call (.clientJoin worldId) with client := true }, true)

/-- `destroyClient`. The message queue is made together with the network. -/
def destroyClient (v : VASTVerse) : VASTVerse × Bool := if v.net then ({ v with client := false }, true) else (v, false)

def await (period : Nat) (back : VASTVerse → VASTVerse) (v : VASTVerse) : VASTVerse :=
  if v.timeout + 1 > period then back { v with timeout := 0 } else { v with timeout := v.timeout + 1 }

def advance (env : VerseLayers) (period : Nat) (v : VASTVerse) (info : VASTNodeInfo) : VASTVerse :=
  match v.state with
  | .absent =>
    let r := v.createClient env info.worldId
    if r.2 then { r.1 with state := .joining } else r.1
  | .joining =>
    if env.clientJoined then { v.call (.subscribe info.aoi info.layer) with state := .joining2 }
    else v.await period (fun v => { v.destroyClient.1 with state := .absent })
  | .joining2 =>
    if env.subscribed then { v with state := .joined }.notify .nodeJoined
    else v.await period (fun v => { v with state := .joining })
  | _ => v

def connect (v : VASTVerse) : VASTVerse :=
  if v.gwConnected then v else { v.notify .gatewayConnected with gwConnected := true }

/-- `tick`, up to the ticking of the message queue. -/
def tick (env : VerseLayers) (v : VASTVerse) : VASTVerse :=
  let period := if v.net then v.retryPeriod else 0
  let r := v.isInitialized env
  if r.2 then
    let v := r.1.connect
    match v.vastinfo with
    | info :: _ => if v.state = .joined then v else v.advance env period info
    | [] => if v.state = .joined then { v with state := .absent }.notify .nodeLeft else v
  else r.1

/-- `destroyVASTNode` of the node that `getVASTNode` returns. -/
def destroyVASTNode (env : VerseLayers) (v : VASTVerse) : VASTVerse × Bool :=
  if v.getVASTNode then
    let v := v.call .clientLeave
    if v.vastinfo = [] then (v, false) else ({ v with vastinfo := [] }.tick env).destroyClient
  else (v, false)

inductive Event where
  | create (info : VASTNodeInfo)
  | destroy (env : VerseLayers)
  | tick (env : VerseLayers)

def step (v : VASTVerse) : Event → VASTVerse
  | .create info => v.createVASTNode info
  | .destroy env => (v.destroyVASTNode env).1
  | .tick env => v.tick env

end VASTVerse

end VastNC
