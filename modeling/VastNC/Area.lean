import VastNC.Types
import VastNC.Lib.FixedCodec

/-! Positions, areas, addresses and nodes of the overlay, and their forms on the wire. -/

namespace VastNC

/-- `coord_t`: a `float`, given by its bits. -/
structure Coord where
  bits : UInt32
  deriving DecidableEq, Repr, Inhabited

namespace Coord

def isNaN (c : Coord) : Bool := c.bits &&& 0x7FFFFFFF > 0x7F800000

def isZero (c : Coord) : Bool := c.bits &&& 0x7FFFFFFF == 0

/-- `==` of floats: a NaN equals nothing, the two zeros are equal. -/
def equals (c d : Coord) : Bool :=
  !c.isNaN && !d.isNaN && (c.bits == d.bits || c.isZero && d.isZero)

instance : OfNat Coord 0 := ⟨⟨0⟩⟩

def codec : FixedCodec Coord := FixedCodec.u32.via bits Coord.mk (fun _ => rfl)

end Coord

structure Position where
  x : Coord := 0
  y : Coord := 0
  z : Coord := 0
  deriving DecidableEq, Repr, Inhabited

namespace Position

/-- `Position::operator==`. -/
def equals (p q : Position) : Bool := p.x.equals q.x && p.y.equals q.y && p.z.equals q.z

def codec : FixedCodec Position :=
  (Coord.codec.prod (Coord.codec.prod Coord.codec)).via (fun p => (p.x, p.y, p.z))
    (fun t => ⟨t.1, t.2.1, t.2.2⟩) (fun _ => rfl)

end Position

structure Area where
  center : Position := {}
  radius : UInt16 := 0
  height : UInt16 := 0
  deriving DecidableEq, Repr, Inhabited

namespace Area

/-- `Area::operator==`. -/
def equals (a b : Area) : Bool :=
  a.center.equals b.center && a.radius == b.radius && a.height == b.height

/-- `Area::operator!=`. -/
def differs (a b : Area) : Bool := !a.equals b

def codec : FixedCodec Area :=
  (Position.codec.prod (FixedCodec.u16.prod FixedCodec.u16)).via (fun a => (a.center, a.radius, a.height))
    (fun t => ⟨t.1, t.2.1, t.2.2⟩) (fun _ => rfl)

end Area

def IPaddr.codec : FixedCodec IPaddr where
  size := 8
  encode := IPaddr.serialize
  decode := IPaddr.ofBytes
  length_encode := IPaddr.length_serialize
  decode_encode := IPaddr.ofBytes_serialize

structure Addr where
  hostId : UInt64 := 0
  lastAccessed : UInt64 := 0
  publicIP : IPaddr := ⟨0, 0, 0⟩
  deriving DecidableEq, Repr, Inhabited

def Addr.codec : FixedCodec Addr :=
  (FixedCodec.u64.prod (FixedCodec.u64.prod IPaddr.codec)).via
    (fun a => (a.hostId, a.lastAccessed, a.publicIP)) (fun t => ⟨t.1, t.2.1, t.2.2⟩) (fun _ => rfl)

structure Node where
  id : UInt64 := 0
  time : UInt64 := 0
  aoi : Area := {}
  addr : Addr := {}
  deriving DecidableEq, Repr, Inhabited

def Node.codec : FixedCodec Node :=
  (FixedCodec.u64.prod (FixedCodec.u64.prod (Area.codec.prod Addr.codec))).via
    (fun n => (n.id, n.time, n.aoi, n.addr)) (fun t => ⟨t.1, t.2.1, t.2.2.1, t.2.2.2⟩) (fun _ => rfl)

inductive NodeState where
  | absent
  | querying
  | joining
  | joining2
  | joined
  deriving DecidableEq, Repr

end VastNC
