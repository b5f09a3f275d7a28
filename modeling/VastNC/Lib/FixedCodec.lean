import VastNC.Lib.LittleEndian

/-! Values stored as a fixed number of bytes. A record is stored field after field. -/

open LittleEndian

structure FixedCodec (α : Type*) where
  size : Nat
  encode : α → List UInt8
  decode : List UInt8 → α
  length_encode : ∀ a, (encode a).length = size
  decode_encode : ∀ a, decode (encode a) = a

namespace FixedCodec

attribute [simp] length_encode decode_encode

variable {α β : Type*}

def ofNat (w : Nat) (toNat : α → Nat) (ofNat : Nat → α) (hlt : ∀ a, toNat a < 256 ^ w)
    (h : ∀ a, ofNat (toNat a) = a) : FixedCodec α where
  size := w
  encode a := toLE w (toNat a)
  decode bs := ofNat (ofLE bs)
  length_encode a := length_toLE w (toNat a)
  decode_encode a := by rw [ofLE_toLE_of_lt (hlt a), h]

def u8 : FixedCodec UInt8 := ofNat 1 UInt8.toNat UInt8.ofNat UInt8.toNat_lt (fun _ => UInt8.ofNat_toNat)

def u16 : FixedCodec UInt16 :=
  ofNat 2 UInt16.toNat UInt16.ofNat UInt16.toNat_lt (fun _ => UInt16.ofNat_toNat)

def u32 : FixedCodec UInt32 :=
  ofNat 4 UInt32.toNat UInt32.ofNat UInt32.toNat_lt (fun _ => UInt32.ofNat_toNat)

def u64 : FixedCodec UInt64 :=
  ofNat 8 UInt64.toNat UInt64.ofNat UInt64.toNat_lt (fun _ => UInt64.ofNat_toNat)

def prod (c : FixedCodec α) (d : FixedCodec β) : FixedCodec (α × β) where
  size := c.size + d.size
  encode p := c.encode p.1 ++ d.encode p.2
  decode bs := (c.decode (bs.take c.size), d.decode (bs.drop c.size))
  length_encode p := by simp
  decode_encode p := by
    have h := c.length_encode p.1
    simp [List.take_left' h, List.drop_left' h]

/-- The codec of a record from that of the tuple of its fields. -/
def via (c : FixedCodec β) (fields : α → β) (make : β → α) (h : ∀ a, make (fields a) = a) :
    FixedCodec α where
  size := c.size
  encode a := c.encode (fields a)
  decode bs := make (c.decode bs)
  length_encode a := c.length_encode (fields a)
  decode_encode a := by rw [c.decode_encode, h]

end FixedCodec
