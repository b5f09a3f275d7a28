import VastNC.Lib.Block
import VastNC.SubscriptionTransfer

/-! The records that a `Message` stores: what each one writes and reads at a pointer, and the size
that it announces. -/

namespace VastNC

/-- The interface that the records share: the size, what is written at a pointer, and what an
object becomes that is restored from there, each with the size that is returned. -/
structure Serializable (α : Type) where
  sizeOf : α → Nat
  serializeAt : α → Block → Nat → Except Overrun (Block × Nat)
  deserializeAt : α → Block → Nat → Nat → Except Overrun (α × Nat)

namespace Position

def sizeOf (_ : Position) : Nat := 4 * 3

def serializeAt (v : Position) (b : Block) (p : Nat) : Except Overrun (Block × Nat) := do
  let b ← b.copy p (Coord.codec.encode v.x)
  let p := p + 4
  let b ← b.copy p (Coord.codec.encode v.y)
  let p := p + 4
  let b ← b.copy p (Coord.codec.encode v.z)
  return (b, v.sizeOf)

def deserializeAt (v : Position) (b : Block) (p size : Nat) : Except Overrun (Position × Nat) :=
  if v.sizeOf ≤ size then do
    let x ← b.load p 4
    let p := p + 4
    let y ← b.load p 4
    let p := p + 4
    let z ← b.load p 4
    return (⟨Coord.codec.decode x, Coord.codec.decode y, Coord.codec.decode z⟩, v.sizeOf)
  else return (v, 0)

end Position

namespace Area

def sizeOf (v : Area) : Nat := v.center.sizeOf + 2 * 2

def serializeAt (v : Area) (b : Block) (p : Nat) : Except Overrun (Block × Nat) := do
  let (b, n) ← v.center.serializeAt b p
  let p := p + n
  let b ← b.copy p (FixedCodec.u16.encode v.radius)
  let p := p + 2
  let b ← b.copy p (FixedCodec.u16.encode v.height)
  return (b, v.sizeOf)

def deserializeAt (v : Area) (b : Block) (p size : Nat) : Except Overrun (Area × Nat) :=
  if v.sizeOf ≤ size then do
    let (center, n) ← v.center.deserializeAt b p size
    let p := p + n
    let radius ← b.load p 2
    let p := p + 2
    let height ← b.load p 2
    return (⟨center, FixedCodec.u16.decode radius, FixedCodec.u16.decode height⟩, v.sizeOf)
  else return (v, 0)

end Area

namespace IPaddr

def serializeAt (v : IPaddr) (b : Block) (p : Nat) : Except Overrun (Block × Nat) := do
  let b ← b.copy p (FixedCodec.u32.encode v.host)
  let p := p + 4
  let b ← b.copy p (FixedCodec.u16.encode v.port)
  let p := p + 2
  let b ← b.copy p (FixedCodec.u16.encode v.pad)
  return (b, v.sizeOf)

def deserializeAt (v : IPaddr) (b : Block) (p size : Nat) : Except Overrun (IPaddr × Nat) :=
  if v.sizeOf ≤ size then do
    let host ← b.load p 4
    let p := p + 4
    let port ← b.load p 2
    let p := p + 2
    let pad ← b.load p 2
    return (⟨FixedCodec.u32.decode host, FixedCodec.u16.decode port, FixedCodec.u16.decode pad⟩, v.sizeOf)
  else return (v, 0)

end IPaddr

namespace Addr

def sizeOf (v : Addr) : Nat := 8 + 8 + v.publicIP.sizeOf

def serializeAt (v : Addr) (b : Block) (p : Nat) : Except Overrun (Block × Nat) := do
  let b ← b.copy p (FixedCodec.u64.encode v.hostId)
  let p := p + 8
  let b ← b.copy p (FixedCodec.u64.encode v.lastAccessed)
  let p := p + 8
  let (b, _) ← v.publicIP.serializeAt b p
  return (b, v.sizeOf)

def deserializeAt (v : Addr) (b : Block) (p size : Nat) : Except Overrun (Addr × Nat) :=
  if v.sizeOf ≤ size then do
    let hostId ← b.load p 8
    let p := p + 8
    let lastAccessed ← b.load p 8
    let p := p + 8
    let (publicIP, _) ← v.publicIP.deserializeAt b p v.publicIP.sizeOf
    return (⟨FixedCodec.u64.decode hostId, FixedCodec.u64.decode lastAccessed, publicIP⟩, v.sizeOf)
  else return (v, 0)

end Addr

namespace Node

def sizeOf (v : Node) : Nat := 8 + 8 + v.aoi.sizeOf + v.addr.sizeOf

def serializeAt (v : Node) (b : Block) (p : Nat) : Except Overrun (Block × Nat) := do
  let b ← b.copy p (FixedCodec.u64.encode v.id)
  let p := p + 8
  let b ← b.copy p (FixedCodec.u64.encode v.time)
  let p := p + 8
  let (b, n) ← v.aoi.serializeAt b p
  let p := p + n
  let (b, _) ← v.addr.serializeAt b p
  return (b, v.sizeOf)

def deserializeAt (v : Node) (b : Block) (p size : Nat) : Except Overrun (Node × Nat) :=
  if v.sizeOf ≤ size then do
    let id ← b.load p 8
    let p := p + 8
    let time ← b.load p 8
    let p := p + 8
    let (aoi, n) ← v.aoi.deserializeAt b p v.aoi.sizeOf
    let p := p + n
    let (addr, _) ← v.addr.deserializeAt b p v.addr.sizeOf
    return (⟨FixedCodec.u64.decode id, FixedCodec.u64.decode time, aoi, addr⟩, v.sizeOf)
  else return (v, 0)

end Node

namespace Subscription

def sizeOf (v : Subscription) : Nat := 8 * 2 + 2 + v.aoi.sizeOf + v.relay.sizeOf

def serializeAt (v : Subscription) (b : Block) (p : Nat) : Except Overrun (Block × Nat) := do
  let b ← b.copy p (FixedCodec.u64.encode v.hostId)
  let p := p + 8
  let b ← b.copy p (FixedCodec.u64.encode v.id)
  let p := p + 8
  let b ← b.copy p (FixedCodec.u16.encode v.layer)
  let p := p + 2
  let (b, n) ← v.aoi.serializeAt b p
  let p := p + n
  let (b, _) ← v.relay.serializeAt b p
  return (b, v.sizeOf)

def deserializeAt (v : Subscription) (b : Block) (p size : Nat) : Except Overrun (Subscription × Nat) :=
  if v.sizeOf ≤ size then do
    let hostId ← b.load p 8
    let p := p + 8
    let id ← b.load p 8
    let p := p + 8
    let layer ← b.load p 2
    let p := p + 2
    let (aoi, n) ← v.aoi.deserializeAt b p v.aoi.sizeOf
    let p := p + n
    let (relay, _) ← v.relay.deserializeAt b p v.relay.sizeOf
    return ({ v with
      hostId := FixedCodec.u64.decode hostId, id := FixedCodec.u64.decode id
      layer := FixedCodec.u16.decode layer
      aoi, relay, dirty := false, inRegion := false, time := 0 }, v.sizeOf)
  else return (v, 0)

end Subscription

namespace VSOOwnerTransfer

def sizeOf (_ : VSOOwnerTransfer) : Nat := 8 * 3

def serializeAt (v : VSOOwnerTransfer) (b : Block) (p : Nat) : Except Overrun (Block × Nat) := do
  let b ← b.copy p (FixedCodec.u64.encode v.objId)
  let p := p + 8
  let b ← b.copy p (FixedCodec.u64.encode v.newOwner)
  let p := p + 8
  let b ← b.copy p (FixedCodec.u64.encode v.oldOwner)
  return (b, v.sizeOf)

def deserializeAt (v : VSOOwnerTransfer) (b : Block) (p size : Nat) : Except Overrun (VSOOwnerTransfer × Nat) :=
  if v.sizeOf ≤ size then do
    let objId ← b.load p 8
    let p := p + 8
    let newOwner ← b.load p 8
    let p := p + 8
    let oldOwner ← b.load p 8
    return (⟨FixedCodec.u64.decode objId, FixedCodec.u64.decode newOwner,
      FixedCodec.u64.decode oldOwner⟩, v.sizeOf)
  else return (v, 0)

end VSOOwnerTransfer

/-- What is written and read where there is room: as the codec says, in the size announced. -/
structure Serializable.Agrees {α ρ : Type} (s : Serializable α) (c : FixedCodec ρ) (fields : α → ρ) : Prop where
  pos : 0 < c.size
  sizeOf : ∀ a, s.sizeOf a = c.size
  serialize : ∀ a b p, p + c.size ≤ b.capacity →
    s.serializeAt a b p = .ok (b.patch p (c.encode (fields a)), c.size)
  deserialize : ∀ a b p size, c.size ≤ size → p + c.size ≤ b.capacity →
    ∃ a', s.deserializeAt a b p size = .ok (a', c.size) ∧ fields a' = c.decode (b.bytes p c.size)

section Agreement

open Block

variable {b : Block} {p size : Nat}

@[simp] theorem size_u16 : FixedCodec.u16.size = 2 := rfl

@[simp] theorem size_u32 : FixedCodec.u32.size = 4 := rfl

@[simp] theorem size_u64 : FixedCodec.u64.size = 8 := rfl

@[simp] theorem size_coord : Coord.codec.size = 4 := rfl

@[simp] theorem size_position : Position.codec.size = 12 := rfl

@[simp] theorem size_area : Area.codec.size = 16 := rfl

theorem Position.serializeAt_eq (v : Position) (h : p + 12 ≤ b.capacity) :
    v.serializeAt b p = .ok (b.patch p (codec.encode v), 12) := by
  rw [serializeAt, copy_bind (by simp; omega), copy_bind (by simp; omega), copy_bind (by simp; omega),
    patch_patch (by simp), patch_patch (by simp)]
  rfl

theorem Position.deserializeAt_eq (v : Position) (hs : 12 ≤ size) (h : p + 12 ≤ b.capacity) :
    v.deserializeAt b p size = .ok (codec.decode (b.bytes p 12), 12) := by
  rw [deserializeAt, if_pos (show v.sizeOf ≤ size from hs), load_bind (by omega), load_bind (by omega),
    load_bind (by omega)]
  simp [codec, FixedCodec.via, FixedCodec.prod, take_bytes, drop_bytes]
  rfl

theorem Area.serializeAt_eq (v : Area) (h : p + 16 ≤ b.capacity) :
    v.serializeAt b p = .ok (b.patch p (codec.encode v), 16) := by
  rw [serializeAt, v.center.serializeAt_eq (by omega), ok_bind]
  dsimp only
  rw [copy_bind (by simp; omega), copy_bind (by simp; omega), patch_patch (by simp), patch_patch (by simp)]
  rfl

theorem Area.deserializeAt_eq (v : Area) (hs : 16 ≤ size) (h : p + 16 ≤ b.capacity) :
    v.deserializeAt b p size = .ok (codec.decode (b.bytes p 16), 16) := by
  rw [deserializeAt, if_pos (show v.sizeOf ≤ size from hs),
    v.center.deserializeAt_eq (by omega) (by omega), ok_bind]
  dsimp only
  rw [load_bind (by omega), load_bind (by omega)]
  simp [codec, FixedCodec.via, FixedCodec.prod, take_bytes, drop_bytes]
  rfl

theorem IPaddr.serializeAt_eq (v : IPaddr) (h : p + 8 ≤ b.capacity) :
    v.serializeAt b p = .ok (b.patch p (codec.encode v), 8) := by
  have hbytes : codec.encode v =
      FixedCodec.u32.encode v.host ++ (FixedCodec.u16.encode v.port ++ FixedCodec.u16.encode v.pad) :=
    List.append_assoc _ _ _
  rw [serializeAt, copy_bind (by simp; omega), copy_bind (by simp; omega), copy_bind (by simp; omega),
    patch_patch (by simp), patch_patch (by simp), hbytes]
  rfl

theorem IPaddr.deserializeAt_eq (v : IPaddr) (hs : 8 ≤ size) (h : p + 8 ≤ b.capacity) :
    v.deserializeAt b p size = .ok (codec.decode (b.bytes p 8), 8) := by
  rw [deserializeAt, if_pos (show v.sizeOf ≤ size from hs), load_bind (by omega), load_bind (by omega),
    load_bind (by omega)]
  simp [codec, ofBytes, take_bytes, drop_bytes]
  rfl

theorem Addr.serializeAt_eq (v : Addr) (h : p + 24 ≤ b.capacity) :
    v.serializeAt b p = .ok (b.patch p (codec.encode v), 24) := by
  rw [serializeAt, copy_bind (by simp; omega), copy_bind (by simp; omega)]
  dsimp only
  rw [v.publicIP.serializeAt_eq (by simp; omega), ok_bind]
  dsimp only
  rw [patch_patch (by simp), patch_patch (by simp)]
  rfl

theorem Addr.deserializeAt_eq (v : Addr) (hs : 24 ≤ size) (h : p + 24 ≤ b.capacity) :
    v.deserializeAt b p size = .ok (codec.decode (b.bytes p 24), 24) := by
  rw [deserializeAt, if_pos (show v.sizeOf ≤ size from hs), load_bind (by omega), load_bind (by omega)]
  dsimp only
  rw [v.publicIP.deserializeAt_eq (show 8 ≤ v.publicIP.sizeOf from le_rfl) (by omega), ok_bind]
  simp [codec, FixedCodec.via, FixedCodec.prod, take_bytes, drop_bytes]
  rfl

theorem Node.serializeAt_eq (v : Node) (h : p + 56 ≤ b.capacity) :
    v.serializeAt b p = .ok (b.patch p (codec.encode v), 56) := by
  rw [serializeAt, copy_bind (by simp; omega), copy_bind (by simp; omega)]
  dsimp only
  rw [v.aoi.serializeAt_eq (by simp; omega), ok_bind]
  dsimp only
  rw [v.addr.serializeAt_eq (by simp; omega), ok_bind]
  dsimp only
  rw [patch_patch (by simp), patch_patch (by simp), patch_patch (by simp)]
  rfl

theorem Node.deserializeAt_eq (v : Node) (hs : 56 ≤ size) (h : p + 56 ≤ b.capacity) :
    v.deserializeAt b p size = .ok (codec.decode (b.bytes p 56), 56) := by
  rw [deserializeAt, if_pos (show v.sizeOf ≤ size from hs), load_bind (by omega), load_bind (by omega)]
  dsimp only
  rw [v.aoi.deserializeAt_eq (show 16 ≤ v.aoi.sizeOf from le_rfl) (by omega), ok_bind]
  dsimp only
  rw [v.addr.deserializeAt_eq (show 24 ≤ v.addr.sizeOf from le_rfl) (by omega), ok_bind]
  simp [codec, FixedCodec.via, FixedCodec.prod, take_bytes, drop_bytes]
  rfl

theorem Subscription.serializeAt_eq (v : Subscription) (h : p + 58 ≤ b.capacity) :
    v.serializeAt b p = .ok (b.patch p (SubscriptionRecord.codec.encode v.record), 58) := by
  rw [serializeAt, copy_bind (by simp; omega), copy_bind (by simp; omega), copy_bind (by simp; omega)]
  dsimp only
  rw [v.aoi.serializeAt_eq (by simp; omega), ok_bind]
  dsimp only
  rw [v.relay.serializeAt_eq (by simp; omega), ok_bind]
  dsimp only
  rw [patch_patch (by simp), patch_patch (by simp), patch_patch (by simp), patch_patch (by simp)]
  rfl

/-- What is not serialized, and is not reset either, stays what it was. -/
theorem Subscription.deserializeAt_eq (v : Subscription) (hs : 58 ≤ size) (h : p + 58 ≤ b.capacity) :
    ∃ v', v.deserializeAt b p size = .ok (v', 58) ∧
      v'.record = SubscriptionRecord.codec.decode (b.bytes p 58) := by
  rw [deserializeAt, if_pos (show v.sizeOf ≤ size from hs), load_bind (by omega), load_bind (by omega),
    load_bind (by omega)]
  dsimp only
  rw [v.aoi.deserializeAt_eq (show 16 ≤ v.aoi.sizeOf from le_rfl) (by omega), ok_bind]
  dsimp only
  rw [v.relay.deserializeAt_eq (show 24 ≤ v.relay.sizeOf from le_rfl) (by omega), ok_bind]
  refine ⟨_, rfl, ?_⟩
  simp [record, SubscriptionRecord.codec, FixedCodec.via, FixedCodec.prod, take_bytes, drop_bytes]

theorem VSOOwnerTransfer.serializeAt_eq (v : VSOOwnerTransfer) (h : p + 24 ≤ b.capacity) :
    v.serializeAt b p = .ok (b.patch p (codec.encode v), 24) := by
  rw [serializeAt, copy_bind (by simp; omega), copy_bind (by simp; omega), copy_bind (by simp; omega),
    patch_patch (by simp), patch_patch (by simp)]
  rfl

theorem VSOOwnerTransfer.deserializeAt_eq (v : VSOOwnerTransfer) (hs : 24 ≤ size) (h : p + 24 ≤ b.capacity) :
    v.deserializeAt b p size = .ok (codec.decode (b.bytes p 24), 24) := by
  rw [deserializeAt, if_pos (show v.sizeOf ≤ size from hs), load_bind (by omega), load_bind (by omega),
    load_bind (by omega)]
  simp [codec, FixedCodec.via, FixedCodec.prod, take_bytes, drop_bytes]
  rfl

end Agreement

/-- A record of which every field is serialized. -/
theorem Serializable.Agrees.whole {α : Type} {s : Serializable α} {c : FixedCodec α} (hpos : 0 < c.size)
    (hsize : ∀ a, s.sizeOf a = c.size)
    (hwrite : ∀ a b p, p + c.size ≤ b.capacity →
      s.serializeAt a b p = .ok (b.patch p (c.encode a), c.size))
    (hread : ∀ a b p size, c.size ≤ size → p + c.size ≤ b.capacity →
      s.deserializeAt a b p size = .ok (c.decode (b.bytes p c.size), c.size)) : s.Agrees c id where
  pos := hpos
  sizeOf := hsize
  serialize := hwrite
  deserialize := fun a b p size hs h => ⟨_, hread a b p size hs h, rfl⟩

inductive RecordType where
  | position
  | area
  | ipaddr
  | addr
  | node
  | subscription
  | vsoOwnerTransfer
  deriving DecidableEq, Repr

namespace RecordType

def Obj : RecordType → Type
  | position => Position
  | area => Area
  | ipaddr => IPaddr
  | addr => Addr
  | node => Node
  | subscription => Subscription
  | vsoOwnerTransfer => VSOOwnerTransfer

/-- The part of the object that is serialized. -/
def Fields : RecordType → Type
  | position => Position
  | area => Area
  | ipaddr => IPaddr
  | addr => Addr
  | node => Node
  | subscription => SubscriptionRecord
  | vsoOwnerTransfer => VSOOwnerTransfer

def serializable : (t : RecordType) → Serializable t.Obj
  | position => ⟨Position.sizeOf, Position.serializeAt, Position.deserializeAt⟩
  | area => ⟨Area.sizeOf, Area.serializeAt, Area.deserializeAt⟩
  | ipaddr => ⟨IPaddr.sizeOf, IPaddr.serializeAt, IPaddr.deserializeAt⟩
  | addr => ⟨Addr.sizeOf, Addr.serializeAt, Addr.deserializeAt⟩
  | node => ⟨Node.sizeOf, Node.serializeAt, Node.deserializeAt⟩
  | subscription => ⟨Subscription.sizeOf, Subscription.serializeAt, Subscription.deserializeAt⟩
  | vsoOwnerTransfer => ⟨VSOOwnerTransfer.sizeOf, VSOOwnerTransfer.serializeAt, VSOOwnerTransfer.deserializeAt⟩

def codec : (t : RecordType) → FixedCodec t.Fields
  | position => Position.codec
  | area => Area.codec
  | ipaddr => IPaddr.codec
  | addr => Addr.codec
  | node => Node.codec
  | subscription => SubscriptionRecord.codec
  | vsoOwnerTransfer => VSOOwnerTransfer.codec

def fields : (t : RecordType) → t.Obj → t.Fields
  | position => id
  | area => id
  | ipaddr => id
  | addr => id
  | node => id
  | subscription => Subscription.record
  | vsoOwnerTransfer => id

/-- Every record writes what it announces, and reads back what it has written. -/
theorem agrees (t : RecordType) : t.serializable.Agrees t.codec t.fields := by
  cases t with
  | position =>
    exact .whole (by decide) (fun _ => rfl) (fun v _ _ h => v.serializeAt_eq h)
      fun v _ _ _ hs h => v.deserializeAt_eq hs h
  | area =>
    exact .whole (by decide) (fun _ => rfl) (fun v _ _ h => v.serializeAt_eq h)
      fun v _ _ _ hs h => v.deserializeAt_eq hs h
  | ipaddr =>
    exact .whole (by decide) (fun _ => rfl) (fun v _ _ h => v.serializeAt_eq h)
      fun v _ _ _ hs h => v.deserializeAt_eq hs h
  | addr =>
    exact .whole (by decide) (fun _ => rfl) (fun v _ _ h => v.serializeAt_eq h)
      fun v _ _ _ hs h => v.deserializeAt_eq hs h
  | node =>
    exact .whole (by decide) (fun _ => rfl) (fun v _ _ h => v.serializeAt_eq h)
      fun v _ _ _ hs h => v.deserializeAt_eq hs h
  | subscription =>
    exact ⟨by decide, fun _ => rfl, fun v _ _ h => v.serializeAt_eq h,
      fun v _ _ _ hs h => v.deserializeAt_eq hs h⟩
  | vsoOwnerTransfer =>
    exact .whole (by decide) (fun _ => rfl) (fun v _ _ h => v.serializeAt_eq h)
      fun v _ _ _ hs h => v.deserializeAt_eq hs h

end RecordType

end VastNC
