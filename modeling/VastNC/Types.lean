import VastNC.Lib.LittleEndian

/-! Identifiers, addresses and the ways a call can end without returning. -/

namespace VastNC

open LittleEndian

/-- How a call of the modelled code ends when it does not return: an escaping
exception, or behaviour the language leaves undefined. -/
inductive Fault where
  | logicError (what : String)
  | lengthError
  | undefined (what : String)
  deriving DecidableEq, Repr

/-- `std::length_error` derives from `std::logic_error`. -/
def Fault.isLogicError : Fault → Bool
  | .logicError _ => true
  | .lengthError => true
  | .undefined _ => false

def front {α : Type*} : List α → Except Fault α
  | [] => .error (.undefined "front of an empty vector")
  | a :: _ => .ok a

@[simp] theorem front_cons {α : Type*} (a : α) (l : List α) : front (a :: l) = .ok a := rfl

def netIdUnassigned : UInt64 := 0

def netIdRelay : UInt64 := 1

/-- `Vast::IPaddr`; `pad` travels with the address and takes part in no comparison. -/
structure IPaddr where
  host : UInt32
  port : UInt16
  pad : UInt16 := 0
  deriving DecidableEq, Repr, Inhabited

namespace IPaddr

/-- `IPaddr::operator==`. -/
def equals (a b : IPaddr) : Bool := a.host == b.host && a.port == b.port

@[simp] theorem equals_self (a : IPaddr) : a.equals a = true := by simp [equals]

def serialize (a : IPaddr) : List UInt8 :=
  toLE 4 a.host.toNat ++ toLE 2 a.port.toNat ++ toLE 2 a.pad.toNat

@[simp] theorem length_serialize (a : IPaddr) : a.serialize.length = 8 := by simp [serialize]

def sizeOf (_ : IPaddr) : Nat := 4 + 2 * 2

def ofBytes (bs : List UInt8) : IPaddr where
  host := UInt32.ofNat (ofLE (bs.take 4))
  port := UInt16.ofNat (ofLE ((bs.drop 4).take 2))
  pad := UInt16.ofNat (ofLE ((bs.drop 6).take 2))

theorem ofBytes_serialize (a : IPaddr) : ofBytes a.serialize = a := by
  have hh : ofLE (toLE 4 a.host.toNat) = a.host.toNat := ofLE_toLE_of_lt a.host.toNat_lt
  have hp : ofLE (toLE 2 a.port.toNat) = a.port.toNat := ofLE_toLE_of_lt a.port.toNat_lt
  have hd : ofLE (toLE 2 a.pad.toNat) = a.pad.toNat := ofLE_toLE_of_lt a.pad.toNat_lt
  have h4 : a.serialize.take 4 = toLE 4 a.host.toNat := by
    rw [serialize, List.append_assoc, List.take_left' (by simp)]
  have h6 : (a.serialize.drop 4).take 2 = toLE 2 a.port.toNat := by
    rw [serialize, List.append_assoc, List.drop_left' (by simp), List.take_left' (by simp)]
  have h8 : (a.serialize.drop 6).take 2 = toLE 2 a.pad.toNat := by
    rw [serialize, List.drop_left' (by simp), List.take_of_length_le (by simp)]
  simp [ofBytes, h4, h6, h8, hh, hp, hd]

theorem serialize_ofBytes {bs : List UInt8} (h : bs.length = 8) : (ofBytes bs).serialize = bs := by
  have e4 : (bs.take 4).length = 4 := by simp [h]
  have e6 : ((bs.drop 4).take 2).length = 2 := by simp [h]
  have e8 : ((bs.drop 6).take 2).length = 2 := by simp [h]
  simp only [serialize, ofBytes, UInt32.toNat_ofNat', UInt16.toNat_ofNat',
    toLE_ofLE_mod (m := 2 ^ 32) e4 rfl, toLE_ofLE_mod (m := 2 ^ 16) e6 rfl,
    toLE_ofLE_mod (m := 2 ^ 16) e8 rfl]
  have hlast : (bs.drop 6).take 2 = (bs.drop 4).drop 2 := by
    rw [List.take_of_length_le (by simp [h]), List.drop_drop]
  rw [hlast, List.append_assoc, List.take_append_drop, List.take_append_drop]

end IPaddr

/-- `net_manager::resolveHostID` of a non-null address. -/
def resolveHostID (a : IPaddr) : UInt64 :=
  (a.host.toUInt64 <<< 32) ||| (a.port.toUInt64 <<< 16) ||| netIdRelay

end VastNC
