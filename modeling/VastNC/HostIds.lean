import VastNC.NetUdp
import VastNC.Extraction
import VastNC.Lib.StepRun

/-! How hosts on UDP get their ids: `VASTnet::isJoined` asks an entry point or takes the host's own id, and
`processVASTMessage` answers and takes in the answers. The frames of a datagram arrive whole. -/

namespace VastNC

open Std (ExtTreeMap ExtTreeSet)

/-- A message on its way, under the type that its header gives. -/
structure VASTFrame where
  type : VASTHeaderType
  msg : Message

/-- What `processVASTMessage` reads from the bytes of the frame. -/
def VASTFrame.restored (f : VASTFrame) : Message.Restored :=
  ({ msgtype := 0 } : Message).deserialize (LittleEndian.memOf f.msg.serialize) f.msg.serialize.length

/-- A `VASTnet` with its `net_udp` and the handler of that. `id2conn` are the keys of the map, `received` is
the queue of `net_udp` with `none` for a disconnection, and `stored` a history of the calls of
`storeVASTMessage`. -/
structure HostNet where
  active : Bool := true
  id : UInt64 := netIdUnassigned
  selfAddr : Addr
  id2conn : ExtTreeSet UInt64 := ∅
  book : AddressBook := {}
  remoteIds : List UInt64 := [0]
  received : List (UInt64 × Option VASTFrame) := []
  entries : List IPaddr := []
  id2addr : ExtTreeMap UInt64 Addr := ∅
  isPublic : Bool := true
  timeoutIDRequest : UInt64 := 0
  sec2timestamp : UInt64 := 1000
  msPerTimestep : Int := 10
  sendBuf : Bool → ExtTreeMap UInt64 (List VASTFrame) := fun _ => ∅
  stored : List (UInt64 × Message) := []

namespace HostNet

def isConnected (n : HostNet) (target : UInt64) : Bool := n.id2conn.contains target

def socketConnected (n : HostNet) (id : UInt64) : HostNet :=
  if id = netIdUnassigned then n else { n with id2conn := n.id2conn.insert id }

/-- `net_udp::start`, once the socket is open. -/
def start (self : IPaddr) (entries : List IPaddr) : HostNet :=
  ({ selfAddr := { hostId := resolveHostID self, publicIP := self }, entries } : HostNet).socketConnected
    (resolveHostID self)

def storeRemoteAddress (n : HostNet) (hostId : UInt64) (addr : IPaddr) : HostNet :=
  { n with book := n.book.storeRemoteAddress hostId addr }

def connect (n : HostNet) (target : UInt64) (host : UInt32) (port : UInt16) : HostNet × Bool :=
  if n.active = false ∨ target = n.id ∨ n.isConnected target then (n, false)
  else ((n.storeRemoteAddress target ⟨host, port, 0⟩).socketConnected target, true)

/-- `net_udp::socket_disconnected`. -/
def disconnect (n : HostNet) (target : UInt64) : HostNet :=
  if n.active = false ∨ n.isConnected target = false then n
  else { n with id2conn := n.id2conn.erase target, received := n.received ++ [(target, none)] }

/-- `net_udp::switchID` and, below it, `net_udp_handler::switchRemoteID`. -/
def switchID (n : HostNet) (prevID newID : UInt64) : HostNet × Bool :=
  if n.isConnected prevID ∧ prevID ≠ newID then
    ({ n with
        id2conn := (n.id2conn.insert newID).erase prevID
        remoteIds := n.remoteIds.replace prevID newID }, n.remoteIds.contains prevID)
  else (n, true)

def setID (n : HostNet) (id : UInt64) : HostNet :=
  { n with id, selfAddr := { n.selfAddr with hostId := id } }

def storeMapping (n : HostNet) (addr : Addr) : HostNet :=
  if addr.hostId = netIdUnassigned then n else { n with id2addr := n.id2addr.insert addr.hostId addr }

def storeVASTMessage (n : HostNet) (fromhost : UInt64) (msg : Message) : HostNet :=
  if n.active = false then n
  else { n with stored := n.stored ++ [(if fromhost = netIdUnassigned then msg.fromId else fromhost, msg)] }

def queueMessage (n : HostNet) (target : UInt64) (msg : Message) (reliable : Bool) (type : VASTHeaderType) :
    HostNet :=
  let frames := (n.sendBuf reliable)[target]?.getD [] ++ [⟨type, msg⟩]
  { n with sendBuf := Function.update n.sendBuf reliable ((n.sendBuf reliable).insert target frames) }

/-- The inner call of `sendMessage` finds the target connected. -/
def sendHandshake (n : HostNet) (target : UInt64) : HostNet :=
  if n.id = netIdUnassigned then n
  else
    let msg : Message := { msgtype := 0, priority := 0, fromId := n.id }
    n.queueMessage target (msg.putAs FixedCodec.u64 n.id) true .handshake

def validateConnection (n : HostNet) (host : UInt64) : HostNet × Bool :=
  if n.id = host ∨ n.isConnected host then (n, true)
  else
    match n.id2addr[host]? with
    | none => (n, false)
    | some addr =>
      let c := n.connect host addr.publicIP.host addr.publicIP.port
      if c.2 = false then (c.1, false) else (c.1.sendHandshake host, true)

def sendMessage (n : HostNet) (target : UInt64) (msg : Message) (reliable : Bool)
    (type : VASTHeaderType) : HostNet :=
  if n.active = false then n
  else
    let msg := if msg.fromId = 0 then { msg with fromId := n.id } else msg
    if target = n.id then n.storeVASTMessage n.id msg.resetCopy
    else
      let v := n.validateConnection target
      if v.2 = false then v.1 else v.1.queueMessage target msg reliable type

/-- What `flush` sends. The cleanup of idle connections that it ends with selects none. -/
def flushed (n : HostNet) : List (IPaddr × List VASTFrame) :=
  let pending (reliable : Bool) := (n.sendBuf reliable).toList.filter (fun e => !e.2.isEmpty)
  if n.active = false then []
  else
    (pending true).filterMap (fun e => (n.book.getRemoteAddress e.1).map (fun addr => (addr, e.2))) ++
      (pending false).filterMap (fun e => n.id2addr[e.1]?.map (fun addr => (addr.publicIP, e.2)))

def flush (n : HostNet) : HostNet :=
  { n with sendBuf := fun reliable => (n.sendBuf reliable).map (fun _ _ => []) }

def registerHostID (n : HostNet) (id : UInt64) (isPublic : Bool) : HostNet :=
  if n.id ≠ netIdUnassigned then n
  else
    let n := n.setID id
    { n with id2addr := n.id2addr.insert id n.selfAddr, isPublic }

/-- The id that the host has determined for itself and the address that it has found. -/
def idRequest (selfAddr : Addr) : Message :=
  let msg : Message := { msgtype := 0, priority := 0 }
  (msg.putAs FixedCodec.u64 selfAddr.hostId).putAs IPaddr.codec selfAddr.publicIP

/-- `pick` is what `rand` returns. -/
def requestID (n : HostNet) (now : UInt64) (pick : Nat) : HostNet :=
  let timeout := UInt64.ofInt ((500 * n.msPerTimestep).tdiv 1000) * n.sec2timestamp
  let entry := n.entries.getD (pick % n.entries.length) ⟨0, 0, 0⟩
  let n := { n with timeoutIDRequest := now + timeout }
  let n := n.storeMapping { hostId := resolveHostID entry, publicIP := entry }
  n.sendMessage (resolveHostID entry) (idRequest n.selfAddr) true .idRequest

/-- `isJoined` without its answer, which is whether there is an id then. -/
def isJoined (n : HostNet) (now : UInt64) (pick : Nat) : HostNet :=
  if n.active = false ∨ n.id ≠ netIdUnassigned then n
  else if n.entries = [] then n.registerHostID (resolveHostID n.selfAddr.publicIP) true
  else if n.timeoutIDRequest ≤ now then n.requestID now pick
  else n

def idAnswer (msg : Message) (id : UInt64) (isPublic : Bool) : Message :=
  let msg := { msg.clear 0 with priority := 0 }
  (msg.putAs FixedCodec.u64 id).put [if isPublic then 1 else 0]

/-- The id for the host and the answer to it; `id` is what the variable holds before the message is read. -/
def processIDRequest (msg : Message) (actualIP : IPaddr) (id : UInt64) : UInt64 × Message :=
  let declared := msg.extractId id false
  let detected := declared.msg.extractRecord IPaddr.codec ⟨0, 0, 0⟩ false
  let isPublic := actualIP.host == detected.dest.host
  let id := if isPublic then declared.dest else resolveHostID actualIP
  if id = netIdUnassigned then (id, detected.msg) else (id, idAnswer detected.msg id isPublic)

def processIDAssignment (n : HostNet) (msg : Message) : HostNet :=
  if msg.data.length ≠ 9 then n
  else
    let id := msg.extractId 0 false
    let isPublic := id.msg.extractBytes 1 [0] false
    n.registerHostID id.dest (isPublic.dest != [0])

/-- `junk` is what the variables for ids hold before a message is read. -/
def processVASTMessage (n : HostNet) (junk remoteId : UInt64) (f : VASTFrame) : HostNet :=
  if f.restored.ret = 0 then n
  else
    match f.type with
    | .idRequest =>
      let r := processIDRequest f.restored.msg ((n.book.getRemoteAddress remoteId).getD ⟨0, 0, 0⟩) junk
      if r.1 = netIdUnassigned then n
      else (n.switchID remoteId r.1).1.sendMessage r.1 r.2 true .idAssign
    | .idAssign => n.processIDAssignment f.restored.msg
    | .handshake =>
      let id := f.restored.msg.processHandshake junk
      if id = netIdUnassigned then n else (n.switchID remoteId id).1
    | .regular => n.storeVASTMessage remoteId f.restored.msg

/-- `net_udp::msg_received` of one message. -/
def msgReceived (n : HostNet) (fromhost : UInt64) (f : VASTFrame) : HostNet :=
  { n with received := n.received ++ [(fromhost, some f)] }.socketConnected fromhost

/-- One turn of the loop in `net_udp_handler::process_input`. -/
def processInput (source : IPaddr) (n : HostNet) (f : VASTFrame) : HostNet :=
  let fromhost := resolveHostID source
  if source.host = 0 ∧ source.port = 0 then n.msgReceived fromhost f
  else ((n.storeRemoteAddress fromhost source).socketConnected fromhost).msgReceived fromhost f

def handleInput (n : HostNet) (source : IPaddr) (frames : List VASTFrame) : HostNet :=
  frames.foldl (processInput source) n

/-- One turn of the loop in `VASTnet::process`. -/
def process (n : HostNet) (junk : UInt64) : HostNet :=
  match n.received with
  | [] => n
  | (remoteId, none) :: rest =>
    { n with received := rest }.storeVASTMessage remoteId
      { msgtype := VastNet.disconnectType, fromId := remoteId }
  | (remoteId, some f) :: rest => { n with received := rest }.processVASTMessage junk remoteId f

end HostNet

/-- A host: the address that it has found for itself, the one that others see, and its entry points. -/
structure HostSite where
  self : IPaddr
  actual : IPaddr
  entries : List IPaddr

/-- Others can tell the hosts apart. -/
structure HostSites (ι : Type*) where
  site : ι → HostSite
  apart : ∀ i j, (site i).actual.key = (site j).actual.key → i = j
  visible : ∀ i, (site i).actual.host ≠ 0

/-- Where a host has found the address that others see, its port is right too, and the entry points
have found it. -/
structure HostSites.Found {ι : Type*} (S : HostSites ι) : Prop where
  port : ∀ i, (S.site i).self.host = (S.site i).actual.host → (S.site i).self.key = (S.site i).actual.key
  entryPoint : ∀ i, (S.site i).entries = [] → (S.site i).self.host = (S.site i).actual.host

structure UdpDatagram where
  source : IPaddr
  target : IPaddr
  frames : List VASTFrame

/-- Whatever was sent may arrive, any number of times and in any order, or not at all. -/
structure HostNetwork (ι : Type*) where
  hosts : ι → HostNet
  sent : List UdpDatagram := []

/-- What a host does between the datagrams that it sends and takes in. -/
inductive HostCall where
  | isJoined (now : UInt64) (pick : Nat)
  | storeMapping (addr : Addr)
  | connect (target : UInt64) (host : UInt32) (port : UInt16)
  | disconnect (target : UInt64)
  | sendMessage (target : UInt64) (o : Outgoing) (reliable : Bool)
  | process (junk : UInt64)

def HostNet.call (n : HostNet) : HostCall → HostNet
  | .isJoined now pick => n.isJoined now pick
  | .storeMapping addr => n.storeMapping addr
  | .connect target host port => (n.connect target host port).1
  | .disconnect target => n.disconnect target
  | .sendMessage target o reliable => n.sendMessage target o.msg reliable .regular
  | .process junk => n.process junk

inductive SiteEvent (ι : Type*) where
  | call (i : ι) (c : HostCall)
  | flush (i : ι)
  | deliver (i : ι) (k : Nat)

namespace HostSites

variable {ι : Type*} [DecidableEq ι] (S : HostSites ι)

def initial : HostNetwork ι := { hosts := fun i => HostNet.start (S.site i).self (S.site i).entries }

def setHost (w : HostNetwork ι) (i : ι) (n : HostNet) : HostNetwork ι :=
  { w with hosts := Function.update w.hosts i n }

def step (w : HostNetwork ι) : SiteEvent ι → HostNetwork ι
  | .call i c => setHost w i ((w.hosts i).call c)
  | .flush i =>
    { setHost w i (w.hosts i).flush with
      sent := w.sent ++ (w.hosts i).flushed.map (fun e => ⟨(S.site i).actual, e.1, e.2⟩) }
  | .deliver i k =>
    match w.sent[k]? with
    | none => w
    | some d =>
      if d.target.key = (S.site i).actual.key then setHost w i ((w.hosts i).handleInput d.source d.frames)
      else w

def run (es : List (SiteEvent ι)) : HostNetwork ι := es.foldl S.step S.initial

end HostSites

end VastNC
