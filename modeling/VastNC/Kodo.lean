import VastNC.Message
import VastNC.Lib.Gf256
import VastNC.Lib.TwoSymbolCode

/-! The interface of the Kodo RLNC coders (two symbols of `MAX_PACKET_SIZE` bytes over
`binary8`) as the recoder and the decoder call it, and the linear system it solves. -/

namespace VastNC

open TwoSymbolCode

/-- A `std::array` of `len` bytes, zero-filled, with `bs` stored at its front. -/
def zeroPad (len : Nat) (bs : List UInt8) : List UInt8 := bs ++ List.replicate (len - bs.length) 0

def storeIn (len : Nat) (bs : List UInt8) : Except Fault (List UInt8) :=
  if bs.length ≤ len then .ok (zeroPad len bs)
  else .error (.undefined "write past the end of an array")

/-- `generateChecksum` over the first `size` bytes of an array. -/
def checksumRange (data : List UInt8) (size : Nat) : Except Fault UInt32 :=
  if size ≤ data.length then .ok (generateChecksum (data.take size))
  else .error (.undefined "read past the end of an array")

theorem length_zeroPad {len : Nat} {bs : List UInt8} (h : bs.length ≤ len) :
    (zeroPad len bs).length = len := by
  simp only [zeroPad, List.length_append, List.length_replicate]
  omega

def UDPNCMessage.symbol (m : UDPNCMessage) : Except Fault (List UInt8) := do
  let w ← m.serialize
  storeIn maxPacketSize w.1

def payloadRoom : Nat := maxPacketSize + 20

def symbolVec (s : List UInt8) : List Gf256 := s.map Gf256.ofByte

/-- The operations of the two coders. `writePayload` takes the number of the payload, on
which its random coefficients may depend, and the two symbols; `dataOut` is the storage
that `set_mutable_symbols` hands to the decoder. -/
structure Kodo where
  Decoder : Type
  writePayload : Nat → List UInt8 → List UInt8 → List UInt8
  build : Decoder
  readUncodedSymbol : Decoder → List UInt8 → Nat → Decoder
  readPayload : Decoder → List UInt8 → Decoder
  isComplete : Decoder → Bool
  dataOut : Decoder → List UInt8

namespace Kodo

inductive Feed where
  | uncoded (symbol : List UInt8) (index : Nat)
  | coded (payload : List UInt8)

def Feed.Fitting : Feed → Prop
  | .uncoded symbol index => symbol.length = maxPacketSize ∧ index < maxSymbols
  | .coded payload => payload.length = payloadRoom

def feed (K : Kodo) (dec : K.Decoder) : Feed → K.Decoder
  | .uncoded symbol index => K.readUncodedSymbol dec symbol index
  | .coded payload => K.readPayload dec payload

def feedAll (K : Kodo) (fs : List Feed) : K.Decoder := fs.foldl K.feed K.build

theorem feedAll_concat (K : Kodo) (fs : List Feed) (f : Feed) :
    K.feedAll (fs ++ [f]) = K.feed (K.feedAll fs) f := by
  simp [feedAll]

def Feed.row (coefficient : List UInt8 → Nat → Gf256) (codedSymbol : List UInt8 → List Gf256) :
    Feed → Equation Gf256
  | .uncoded symbol index => unitEquation index (symbolVec symbol)
  | .coded payload => ⟨coefficient payload 0, coefficient payload 1, codedSymbol payload⟩

/-- Random linear coding: a payload carries two coefficients and the combination of the
symbols with them; the decoder is complete when what it was fed has full rank, and then
holds the solution. -/
structure Rlnc (K : Kodo) where
  coefficient : List UInt8 → Nat → Gf256
  codedSymbol : List UInt8 → List Gf256
  length_codedSymbol : ∀ p, p.length = payloadRoom → (codedSymbol p).length = maxPacketSize
  length_writePayload : ∀ k s t, s.length = maxPacketSize → t.length = maxPacketSize →
    (K.writePayload k s t).length ≤ payloadRoom
  codedSymbol_writePayload : ∀ k s t, s.length = maxPacketSize → t.length = maxPacketSize →
    let p := zeroPad payloadRoom (K.writePayload k s t)
    codedSymbol p = combine (coefficient p 0) (coefficient p 1) (symbolVec s) (symbolVec t)
  isComplete_iff : ∀ fs : List Feed, (∀ f ∈ fs, f.Fitting) →
    (K.isComplete (K.feedAll fs) = true ↔ FullRank (fs.map (Feed.row coefficient codedSymbol)))
  length_dataOut : ∀ fs : List Feed, (∀ f ∈ fs, f.Fitting) →
    (K.dataOut (K.feedAll fs)).length = maxSymbols * maxPacketSize
  dataOut_eq : ∀ (fs : List Feed) (s t : List UInt8), (∀ f ∈ fs, f.Fitting) →
    K.isComplete (K.feedAll fs) = true → s.length = maxPacketSize → t.length = maxPacketSize →
    (∀ f ∈ fs, (f.row coefficient codedSymbol).Holds (symbolVec s) (symbolVec t)) →
    K.dataOut (K.feedAll fs) = s ++ t

@[simp] theorem length_symbolVec (s : List UInt8) : (symbolVec s).length = s.length := by
  simp [symbolVec]

theorem symbolVec_toBytes (v : List Gf256) : symbolVec (v.map Gf256.toByte) = v := by
  simp [symbolVec, Function.comp_def]

theorem toBytes_symbolVec (s : List UInt8) : (symbolVec s).map Gf256.toByte = s := by
  simp [symbolVec, Function.comp_def]

namespace Rlnc

variable {K : Kodo} (R : K.Rlnc) {s p : List UInt8} {i : Nat}

def Solves (p s t : List UInt8) : Prop :=
  combine (R.coefficient p 0) (R.coefficient p 1) (symbolVec s) (symbolVec t) = R.codedSymbol p

theorem pair_fitting (hs : s.length = maxPacketSize) (hi : i < maxSymbols)
    (hp : p.length = payloadRoom) : ∀ f ∈ [Feed.uncoded s i, Feed.coded p], f.Fitting := by
  intro f hf
  simp only [List.mem_cons, List.not_mem_nil, or_false] at hf
  rcases hf with rfl | rfl
  · exact ⟨hs, hi⟩
  · exact hp

theorem isComplete_pair (hs : s.length = maxPacketSize) (hi : i < maxSymbols)
    (hp : p.length = payloadRoom) :
    K.isComplete (K.readPayload (K.readUncodedSymbol K.build s i) p) = true ↔
      R.coefficient p (1 - i) ≠ 0 := by
  have hc := R.isComplete_iff _ (pair_fitting hs hi hp)
  have hi' : i = 0 ∨ i = 1 := by simp only [maxSymbols] at hi; omega
  refine hc.trans ?_
  rcases hi' with rfl | rfl
  · exact fullRank_zero_iff _ _
  · exact fullRank_one_iff _ _

theorem dataOut_zero {t : List UInt8} (hs : s.length = maxPacketSize) (ht : t.length = maxPacketSize)
    (hp : p.length = payloadRoom) (hc : R.coefficient p 1 ≠ 0) (he : R.Solves p s t) :
    K.dataOut (K.readPayload (K.readUncodedSymbol K.build s 0) p) = s ++ t := by
  have hf := pair_fitting hs (i := 0) (by decide) hp
  have hk := (R.isComplete_pair hs (i := 0) (by decide) hp).mpr hc
  refine R.dataOut_eq _ s t hf hk hs ht ?_
  intro f hf
  simp only [List.mem_cons, List.not_mem_nil, or_false] at hf
  rcases hf with rfl | rfl
  · exact unitEquation_zero_holds (by simp [hs, ht])
  · exact he

theorem dataOut_one {t : List UInt8} (hs : s.length = maxPacketSize) (ht : t.length = maxPacketSize)
    (hp : p.length = payloadRoom) (hc : R.coefficient p 0 ≠ 0) (he : R.Solves p t s) :
    K.dataOut (K.readPayload (K.readUncodedSymbol K.build s 1) p) = t ++ s := by
  have hf := pair_fitting hs (i := 1) (by decide) hp
  have hk := (R.isComplete_pair hs (i := 1) (by decide) hp).mpr hc
  refine R.dataOut_eq _ t s hf hk ht hs ?_
  intro f hf
  simp only [List.mem_cons, List.not_mem_nil, or_false] at hf
  rcases hf with rfl | rfl
  · exact unitEquation_one_holds (by simp [hs, ht])
  · exact he

theorem exists_solves_zero (hs : s.length = maxPacketSize) (hp : p.length = payloadRoom)
    (hc : R.coefficient p 1 ≠ 0) : ∃ t, t.length = maxPacketSize ∧ R.Solves p s t := by
  have hl : (symbolVec s).length = (R.codedSymbol p).length := by
    rw [length_symbolVec, hs, R.length_codedSymbol p hp]
  obtain ⟨z, hz, he⟩ := exists_combine_eq (a := R.coefficient p 0) hc hl
  refine ⟨z.map Gf256.toByte, by simp [hz, hs], ?_⟩
  rw [Solves, symbolVec_toBytes, he]

theorem exists_solves_one (hs : s.length = maxPacketSize) (hp : p.length = payloadRoom)
    (hc : R.coefficient p 0 ≠ 0) : ∃ t, t.length = maxPacketSize ∧ R.Solves p t s := by
  have hl : (symbolVec s).length = (R.codedSymbol p).length := by
    rw [length_symbolVec, hs, R.length_codedSymbol p hp]
  obtain ⟨z, hz, he⟩ := exists_combine_eq (a := R.coefficient p 1) hc hl
  refine ⟨z.map Gf256.toByte, by simp [hz, hs], ?_⟩
  rw [Solves, symbolVec_toBytes, combine_swap, he]

end Rlnc

/-- Gaussian elimination over the whole history, with the first coefficient chosen by the
number of the payload. -/
def elimination : Kodo where
  Decoder := List (Equation Gf256)
  writePayload k s t :=
    UInt8.ofNat (k + 1) :: 1 ::
      (combine (Gf256.ofByte (UInt8.ofNat (k + 1))) 1 (symbolVec s) (symbolVec t)).map Gf256.toByte
  build := []
  readUncodedSymbol dec s i := dec ++ [unitEquation i (symbolVec s)]
  readPayload dec p := dec ++ [⟨Gf256.ofByte (p.getD 0 0), Gf256.ofByte (p.getD 1 0),
    symbolVec ((p.drop 2).take maxPacketSize)⟩]
  isComplete dec := (independentPair dec).isSome
  dataOut dec :=
    match independentPair dec with
    | some (e, f) => zeroPad (maxSymbols * maxPacketSize)
        ((((solvePair e f).1 ++ (solvePair e f).2).map Gf256.toByte).take
          (maxSymbols * maxPacketSize))
    | none => List.replicate (maxSymbols * maxPacketSize) 0

def eliminationRow : Feed → Equation Gf256 :=
  Feed.row (fun p i => Gf256.ofByte (p.getD i 0))
    (fun p => symbolVec ((p.drop 2).take maxPacketSize))

theorem elimination_feed (dec : List (Equation Gf256)) (f : Feed) :
    elimination.feed dec f = dec ++ [eliminationRow f] := by
  cases f with
  | uncoded s i => rfl
  | coded p => rfl

theorem elimination_feedAll (fs : List Feed) : elimination.feedAll fs = fs.map eliminationRow := by
  induction fs using List.reverseRecOn with
  | nil => rfl
  | append_singleton fs f ih =>
    rw [feedAll_concat, ih, List.map_append]
    exact elimination_feed _ f

def eliminationRlnc : elimination.Rlnc where
  coefficient p i := Gf256.ofByte (p.getD i 0)
  codedSymbol p := symbolVec ((p.drop 2).take maxPacketSize)
  length_codedSymbol := by
    intro p hp
    simp [hp, payloadRoom]
  length_writePayload := by
    intro k s t hs ht
    simp [elimination, hs, ht, payloadRoom]
  codedSymbol_writePayload := by
    intro k s t hs ht
    have hd : ((combine (Gf256.ofByte (UInt8.ofNat (k + 1))) 1 (symbolVec s) (symbolVec t)).map
        Gf256.toByte).length = maxPacketSize := by simp [hs, ht]
    simp only [elimination, zeroPad, List.cons_append, List.drop_succ_cons, List.drop_zero,
      List.take_left' hd, symbolVec_toBytes]
    rfl
  isComplete_iff := by
    intro fs _
    rw [elimination_feedAll]
    exact (fullRank_iff_independentPair _).symm
  length_dataOut := by
    intro fs _
    rw [elimination_feedAll]
    simp only [elimination]
    split
    · exact length_zeroPad (by simp)
    · simp
  dataOut_eq := by
    intro fs s t _ hk hs ht he
    rw [elimination_feedAll] at hk ⊢
    simp only [elimination] at hk ⊢
    cases hp : independentPair (fs.map eliminationRow) with
    | none => simp [hp] at hk
    | some pair =>
      obtain ⟨e, f⟩ := pair
      obtain ⟨hme, hmf, hd⟩ := independentPair_some hp
      have hall : ∀ g ∈ fs.map eliminationRow, g.Holds (symbolVec s) (symbolVec t) := by
        intro g hg
        obtain ⟨r, hr, rfl⟩ := List.mem_map.mp hg
        exact he r hr
      have hsol := solvePair_eq hd (by simp [hs, ht]) (hall e hme) (hall f hmf)
      have hl : (s ++ t).length = maxSymbols * maxPacketSize := by
        simp only [List.length_append, hs, ht, maxSymbols, maxPacketSize]
      simp only [hsol, List.map_append, toBytes_symbolVec]
      rw [List.take_of_length_le hl.le, zeroPad, hl, Nat.sub_self, List.replicate_zero,
        List.append_nil]

end Kodo

end VastNC
