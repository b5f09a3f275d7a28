import VastNC.Listener
import VastNC.Decoder
import VastNC.Consumer

/-! The receive path of a client: `net_udpNC_handler` for unicast, `net_udpNC_MChandler` for
multicast, and the thread of the consumer that empties the queue between them and the sink. -/

namespace VastNC

/-- The two addresses of a host: of its local endpoint and its public one. -/
structure HostAddrs where
  localAddr : IPaddr
  publicIP : IPaddr

structure Receiver where
  decoder : UDPNCDecoder := {}
  queue : List UDPNCMessage := []
  recvdOrdering : Orderings := ∅
  handed : List (UDPNCMessage × IPaddr) := []

namespace Receiver

/-- `net_udpNC_consumer::UDPNC_msg_received`. -/
def enqueue (r : Receiver) (m : UDPNCMessage) (socketAddr : IPaddr) : Receiver :=
  { r with queue := r.queue ++ [{ m with socketAddr }] }

def putOtherUDPNCMessage (r : Receiver) (m : UDPNCMessage) : Except Fault Receiver := do
  let decoder ← r.decoder.addUDPNCMessage m
  .ok { r with decoder }

def toAddrForMe (a : HostAddrs) (m : UDPNCMessage) : Bool :=
  m.toAddrs.any (fun addr => addr.equals a.localAddr)

def decodeForMe (K : Kodo) (r : Receiver) (m : UDPNCMessage) : Except Fault Receiver := do
  let r ← r.putOtherUDPNCMessage m
  let (decoded, decoder) ← r.decoder.produceDecodedUDPNCMessage K
  match decoded with
  | some m => .ok ({ r with decoder }.enqueue m ⟨0, 0, 0⟩)
  | none => .ok { r with decoder }

def processEncoded (K : Kodo) (a : HostAddrs) (r : Receiver) (d : Datagram) :
    Except Fault Receiver := do
  let _ ← d.parse.ret
  if toAddrForMe a d.parse.msg then r.decodeForMe K d.parse.msg else .ok r

/-- `net_udpNC_handler::process_input`. -/
def processUnicast (K : Kodo) (a : HostAddrs) (r : Receiver) (d : Datagram) (remote : IPaddr) :
    Except Fault Receiver :=
  if d.header.isUDPNCHeader = false then .ok r
  else if 1 < d.header.encPacketCount.toNat then r.processEncoded K a d
  else do
    let _ ← d.parse.ret
    let r ← r.putOtherUDPNCMessage d.parse.msg
    .ok (r.enqueue d.parse.msg remote)

/-- `net_udpNC_MChandler::process_input`. -/
def processMulticast (K : Kodo) (a : HostAddrs) (r : Receiver) (d : Datagram) :
    Except Fault Receiver :=
  if d.header.isUDPNCHeader = false then .ok r
  else if 1 < d.header.encPacketCount.toNat then r.processEncoded K a d
  else do
    let _ ← d.parse.ret
    r.putOtherUDPNCMessage d.parse.msg

/-- One round of `net_udpNC_consumer::consume`; it waits while the queue is empty. -/
def consume (a : HostAddrs) (r : Receiver) : Except Fault Receiver :=
  match r.queue with
  | [] => .ok r
  | m :: rest => do
    let c ← Consumer.processInput a.publicIP r.recvdOrdering m m.socketAddr
    .ok { decoder := if c.cleared then r.decoder.clearPacketPool else r.decoder
          queue := rest
          recvdOrdering := c.recvdOrdering
          handed := r.handed ++ c.handed.toList }

end Receiver

inductive ReceiverEvent where
  | unicast (d : Datagram) (remote : IPaddr)
  | multicast (d : Datagram)
  | consume

def Receiver.step (K : Kodo) (a : HostAddrs) (r : Receiver) : ReceiverEvent → Except Fault Receiver
  | .unicast d remote => r.processUnicast K a d remote
  | .multicast d => r.processMulticast K a d
  | .consume => r.consume a

end VastNC
