import VastNC.VastMessage

/-! The frame that carries a `Message` over the network: a 32-bit header with markers, a type
and the size of what follows. -/

namespace VastNC

open LittleEndian

inductive VASTHeaderType where
  | idRequest
  | idAssign
  | handshake
  | regular
  deriving DecidableEq, Repr

def VASTHeaderType.bits : VASTHeaderType → BitVec 2
  | .idRequest => 0
  | .idAssign => 1
  | .handshake => 2
  | .regular => 3

/-- Bit fields are allocated from the least significant bit. -/
structure VASTHeader where
  start : BitVec 4
  type : BitVec 2
  msgSize : BitVec 22
  endMarker : BitVec 4
  deriving DecidableEq, Repr

def sizeofVASTHeader : Nat := 4

namespace VASTHeader

def word (h : VASTHeader) : Nat :=
  h.start.toNat + 2 ^ 4 * h.type.toNat + 2 ^ 6 * h.msgSize.toNat + 2 ^ 28 * h.endMarker.toNat

def ofWord (w : Nat) : VASTHeader where
  start := BitVec.ofNat 4 w
  type := BitVec.ofNat 2 (w / 2 ^ 4)
  msgSize := BitVec.ofNat 22 (w / 2 ^ 6)
  endMarker := BitVec.ofNat 4 (w / 2 ^ 28)

def toBytes (h : VASTHeader) : List UInt8 := toLE 4 h.word

def ofBytes (bs : List UInt8) : VASTHeader := ofWord (ofLE (bs.take sizeofVASTHeader))

def isVASTHeader (h : VASTHeader) : Bool := h.start == 10 && h.endMarker == 5

/-- The header that `sendMessage` writes; the size is cut to the 22 bits of its field. -/
def build (type : VASTHeaderType) (size : Nat) : VASTHeader := ⟨10, type.bits, BitVec.ofNat 22 size, 5⟩

@[simp] theorem length_toBytes (h : VASTHeader) : h.toBytes.length = 4 := by simp [toBytes]

theorem ofBytes_toBytes (h : VASTHeader) (rest : List UInt8) : ofBytes (h.toBytes ++ rest) = h := by
  obtain ⟨start, type, msgSize, endMarker⟩ := h
  have h1 := start.isLt
  have h2 := type.isLt
  have h3 := msgSize.isLt
  have h4 := endMarker.isLt
  rw [ofBytes, List.take_left' (by simp [sizeofVASTHeader]), toBytes,
    ofLE_toLE_of_lt (by simp only [word]; omega)]
  simp only [ofWord, word, VASTHeader.mk.injEq]
  refine ⟨?_, ?_, ?_, ?_⟩
  all_goals exact BitVec.eq_of_toNat_eq (by rw [BitVec.toNat_ofNat]; omega)

theorem isVASTHeader_build (type : VASTHeaderType) (size : Nat) :
    (build type size).isVASTHeader = true := rfl

theorem toNat_msgSize_build (type : VASTHeaderType) {size : Nat} (h : size < 2 ^ 22) :
    (build type size).msgSize.toNat = size := by
  rw [build, BitVec.toNat_ofNat, Nat.mod_eq_of_lt h]

end VASTHeader

def vastBufsiz : Nat := 32000

/-- `VASTBuffer`: `data` is the part that is in use, so its length is the field `size`. -/
structure VASTBuffer where
  data : List UInt8 := []
  bufsize : Nat := vastBufsiz
  fits : data.length ≤ bufsize := by simp

namespace VASTBuffer

def newsize (b : VASTBuffer) (len : Nat) : Nat := ((b.data.length + len) / vastBufsiz + 1) * vastBufsiz

theorem lt_newsize (b : VASTBuffer) (len : Nat) : b.data.length + len < b.newsize len := by
  simp only [newsize, vastBufsiz]
  omega

def expand (b : VASTBuffer) (len : Nat) : Option { b' : VASTBuffer // b'.data = b.data ∧
    b.data.length + len ≤ b'.bufsize } :=
  if b.newsize len ≤ b.bufsize then none
  else
    have hlt := b.lt_newsize len
    some ⟨⟨b.data, b.newsize len, by omega⟩, rfl, hlt.le⟩

def add (b : VASTBuffer) (stuff : List UInt8) : Option VASTBuffer :=
  if h : b.data.length + stuff.length ≤ b.bufsize then
    some ⟨b.data ++ stuff, b.bufsize, by rwa [List.length_append]⟩
  else
    (b.expand stuff.length).map (fun b' =>
      ⟨b.data ++ stuff, b'.1.bufsize, by rw [List.length_append]; exact b'.2.2⟩)

def clear (b : VASTBuffer) : VASTBuffer := ⟨[], b.bufsize, Nat.zero_le _⟩

/-- The space that `expand` finds is always enough, so no bytes are ever refused. -/
theorem add_eq (b : VASTBuffer) (stuff : List UInt8) :
    ∃ b', b.add stuff = some b' ∧ b'.data = b.data ++ stuff := by
  rw [add]
  split
  · exact ⟨_, rfl, rfl⟩
  · rename_i h
    have hlt := b.lt_newsize stuff.length
    rw [expand, if_neg (by omega)]
    exact ⟨_, rfl, rfl⟩

end VASTBuffer

end VastNC
