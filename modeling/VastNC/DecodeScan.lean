import VastNC.Lib.ErasingScan
import VastNC.Decoder
import VastNC.WireFormat

/-! What the scan of `_fetchFromPacketPool` finds. It erases each coded packet it looks at, so
a decodable packet behind an examined one is passed over. -/

namespace VastNC

open ErasingScan

namespace UDPNCDecoder

/-- The test of the scan: all but one of the ids are pooled. -/
def lacksOne (pool : PacketPool) (c : UDPNCMessage) : Bool :=
  availableIds pool c.pktIds + 1 == c.pktIds.length

def Decodable (pool : PacketPool) (c : UDPNCMessage) : Prop :=
  c.pktIds.Nodup ∧ lacksOne pool c = true

structure FetchedFrom (dec : UDPNCDecoder) (f : Fetched) : Prop where
  queued : f.active ∈ dec.ncPackets
  decodable : Decodable dec.packetPool f.active
  available : ∀ j m, (j, m) ∈ f.available ↔
    ∃ id, f.active.pktIds[j]? = some id ∧ dec.packetPool[id]? = some m
  missing : ∀ j, j = f.decodedIndex ↔ ∃ id, f.active.pktIds[j]? = some id ∧ id ∉ dec.packetPool

/-- The packets not examined: every second one of those in front of the active packet, and
those behind it. -/
def Kept (dec : UDPNCDecoder) (rest : List UDPNCMessage) : Option Fetched → Prop
  | none => rest = skipped dec.ncPackets
  | some f => ∃ before after, dec.ncPackets = before ++ f.active :: after ∧ Even before.length ∧
      rest = skipped before ++ after

variable {pool : PacketPool}

theorem lacksOne_iff {c : UDPNCMessage} :
    lacksOne pool c = true ↔ availableIds pool c.pktIds + 1 = c.pktIds.length := by
  simp [lacksOne]

theorem fetchLoop_eq_scan (pool : PacketPool) (fuel i : Nat) (nc : List UDPNCMessage) :
    fetchLoop pool fuel i nc =
      match scan (lacksOne pool) fuel i nc with
      | (none, rest) => (none, pool, rest)
      | (some c, rest) => (some (fetch pool c), c.pktIds.foldl (fun p id => p.erase id) pool, rest) := by
  induction fuel generalizing i nc with
  | zero => rfl
  | succ fuel ih =>
    rw [fetchLoop, scan]
    cases hc : nc[i]? with
    | none => rfl
    | some c =>
      have hle : availableIds pool c.pktIds ≤ c.pktIds.length := List.countP_le_length
      dsimp only
      by_cases hl : availableIds pool c.pktIds + 1 = c.pktIds.length
      · rw [if_neg (by omega), if_pos (by omega), if_pos (lacksOne_iff.mpr hl)]
      · have hp : ¬ lacksOne pool c = true := fun h => hl (lacksOne_iff.mp h)
        rw [if_neg hp]
        by_cases hall : availableIds pool c.pktIds = c.pktIds.length
        · rw [if_pos hall, ih]
        · rw [if_neg hall, if_neg (by omega), ih]

theorem fetchFromPacketPool_none {dec : UDPNCDecoder}
    (h : ∀ c ∈ scanned dec.ncPackets, lacksOne dec.packetPool c = false) :
    dec.fetchFromPacketPool = (none, ⟨dec.packetPool, skipped dec.ncPackets⟩) := by
  have hscan := scan_none h [] (Nat.le_refl _)
  simp only [List.length_nil, List.nil_append] at hscan
  simp only [fetchFromPacketPool, fetchLoop_eq_scan, hscan]

/-- The tests behind the loop never reject what the loop has found. -/
theorem fetchFromPacketPool_some {dec : UDPNCDecoder} {before after : List UDPNCMessage}
    {c : UDPNCMessage} (hq : dec.ncPackets = before ++ c :: after) (he : Even before.length)
    (hb : ∀ d ∈ scanned before, lacksOne dec.packetPool d = false)
    (hc : lacksOne dec.packetPool c = true) :
    dec.fetchFromPacketPool = (some (fetch dec.packetPool c),
      ⟨c.pktIds.foldl (fun p id => p.erase id) dec.packetPool, skipped before ++ after⟩) := by
  have hlt : before.length < dec.ncPackets.length := by simp [hq]
  have hscan := scan_some hc after he hb [] hlt
  simp only [List.length_nil, List.nil_append, ← hq] at hscan
  have hl := length_available dec.packetPool c
  have ha : (fetch dec.packetPool c).active = c := rfl
  have hn := lacksOne_iff.mp hc
  simp only [fetchFromPacketPool, fetchLoop_eq_scan, hscan, hl, ha]
  rw [if_neg (by omega), if_neg (by omega)]

section Fetch

variable {c : UDPNCMessage}

theorem mem_available {j : Nat} {m : UDPNCMessage} :
    (j, m) ∈ (fetch pool c).available ↔ ∃ id, c.pktIds[j]? = some id ∧ pool[id]? = some m := by
  simp only [fetch, List.mem_filterMap, Option.map_eq_some_iff, Prod.mk.injEq, Prod.exists,
    List.mem_zipIdx_iff_getElem?]
  constructor
  · rintro ⟨id, k, hk, m', hm, rfl, rfl⟩
    exact ⟨id, hk, hm⟩
  · rintro ⟨id, hj, hm⟩
    exact ⟨id, j, hj, m, hm, rfl, rfl⟩

/-- The fold that computes `decoded_packet_index` ends at a position with a missing id. -/
theorem decodedIndex_of_missing {l : List (UInt64 × Nat)} {e : UInt64 × Nat}
    (he : l.filter (fun e => e.1 ∉ pool) = [e]) (d : Nat) :
    l.foldl (fun idx e => if e.1 ∈ pool then idx else e.2) d = e.2 := by
  have hskip : ∀ (l : List (UInt64 × Nat)) (d : Nat), l.filter (fun e => e.1 ∉ pool) = [] →
      l.foldl (fun idx e => if e.1 ∈ pool then idx else e.2) d = d := by
    intro l
    induction l with
    | nil => intro d _; rfl
    | cons x l ih =>
      intro d hl
      have hx : x.1 ∈ pool := by
        by_contra hx
        simp [hx] at hl
      rw [List.foldl_cons, if_pos hx]
      exact ih d (by simpa [hx] using hl)
  induction l generalizing d with
  | nil => cases he
  | cons x l ih =>
    rw [List.foldl_cons]
    by_cases hx : x.1 ∈ pool
    · rw [if_pos hx]
      exact ih (by simpa [hx] using he) d
    · rw [if_neg hx]
      rw [List.filter_cons_of_pos (by simpa using hx)] at he
      obtain ⟨rfl, hl⟩ := List.cons.inj he
      exact hskip l _ hl

theorem filter_missing (h : lacksOne pool c = true) :
    ∃ e, c.pktIds.zipIdx.filter (fun e => e.1 ∉ pool) = [e] := by
  have hl := lacksOne_iff.mp h
  have hcount : c.pktIds.length = availableIds pool c.pktIds + c.pktIds.countP (fun id => id ∉ pool) := by
    rw [List.length_eq_countP_add_countP (fun id => decide (id ∈ pool))]
    simp [availableIds]
  have hmiss : c.pktIds.countP (fun id => id ∉ pool) = 1 := by omega
  have hz : c.pktIds = c.pktIds.zipIdx.map Prod.fst := by simp
  rw [hz, List.countP_map, List.countP_eq_length_filter] at hmiss
  exact List.length_eq_one_iff.mp hmiss

theorem decodedIndex_iff (h : lacksOne pool c = true) {j : Nat} :
    j = (fetch pool c).decodedIndex ↔ ∃ id, c.pktIds[j]? = some id ∧ id ∉ pool := by
  obtain ⟨e, he⟩ := filter_missing h
  have hidx : (fetch pool c).decodedIndex = e.2 := decodedIndex_of_missing he _
  have hmem : ∀ id k, c.pktIds[k]? = some id ∧ id ∉ pool ↔ (id, k) = e := by
    intro id k
    have hs : (id, k) = e ↔ (id, k) ∈ [e] := List.mem_singleton.symm
    rw [hs, ← he, List.mem_filter, List.mem_zipIdx_iff_getElem?]
    simp
  rw [hidx]
  constructor
  · rintro rfl
    exact ⟨e.1, (hmem e.1 e.2).mpr rfl⟩
  · rintro ⟨id, hid⟩
    rw [← (hmem id j).mp hid]

end Fetch

theorem fetchedFrom {dec : UDPNCDecoder} {c : UDPNCMessage} (hc : c ∈ dec.ncPackets)
    (hd : Decodable dec.packetPool c) : FetchedFrom dec (fetch dec.packetPool c) where
  queued := hc
  decodable := hd
  available := fun _ _ => mem_available
  missing := fun _ => decodedIndex_iff hd.2

theorem kept_fetchFromPacketPool (dec : UDPNCDecoder) :
    Kept dec dec.fetchFromPacketPool.2.ncPackets dec.fetchFromPacketPool.1 := by
  rcases first_scanned (lacksOne dec.packetPool) dec.ncPackets with hnone | ⟨before, c, after, hq, he, hb, hc⟩
  · rw [fetchFromPacketPool_none hnone]
    rfl
  · rw [fetchFromPacketPool_some hq he hb hc]
    exact ⟨before, after, hq, he, rfl⟩

/-- Which packet the scan decides on, at any two ways to name one that it would stop at: the
first of those examined. -/
theorem examined_first {dec : UDPNCDecoder} {before after before' after' : List UDPNCMessage}
    {c c' : UDPNCMessage} (hq : dec.ncPackets = before ++ c :: after) (he : Even before.length)
    (hb : ∀ d ∈ scanned before, lacksOne dec.packetPool d = false)
    (hc : lacksOne dec.packetPool c = true) (hq' : dec.ncPackets = before' ++ c' :: after')
    (he' : Even before'.length) (hc' : lacksOne dec.packetPool c' = true) :
    c = c' ∨ c ∈ scanned before' := by
  have hfind : (scanned before).find? (lacksOne dec.packetPool) = none :=
    List.find?_eq_none.mpr fun d hd h => Bool.false_ne_true ((hb d hd).symm.trans h)
  have hfirst := find?_scanned hc after he
  rw [← hq, hq', find?_scanned hc' after' he', hfind, Option.none_or] at hfirst
  cases hf : (scanned before').find? (lacksOne dec.packetPool) with
  | none =>
    rw [hf] at hfirst
    exact .inl (Option.some.inj hfirst).symm
  | some d =>
    rw [hf] at hfirst
    cases hfirst
    exact .inr (List.mem_of_find?_eq_some hf)

/-- The scan finds a decodable packet exactly when one stands at a position it examines, with
no packet examined in front of it that lacks one entry and repeats an id. -/
theorem decode_scan (dec : UDPNCDecoder) :
    (((∃ c ∈ dec.ncPackets, Decodable dec.packetPool c) →
        ∃ f, dec.fetchFromPacketPool.1 = some f ∧ FetchedFrom dec f) ∧
      Kept dec dec.fetchFromPacketPool.2.ncPackets dec.fetchFromPacketPool.1) ↔
    ((∃ c ∈ dec.ncPackets, Decodable dec.packetPool c) →
      ∃ before c after, dec.ncPackets = before ++ c :: after ∧ Even before.length ∧
        Decodable dec.packetPool c ∧
        ∀ d ∈ scanned before, lacksOne dec.packetPool d = true → d.pktIds.Nodup) := by
  rw [and_iff_left (kept_fetchFromPacketPool dec)]
  refine forall_congr' fun _ => ?_
  rcases first_scanned (lacksOne dec.packetPool) dec.ncPackets with hnone | ⟨before, c, after, hq, he, hb, hc⟩
  · rw [fetchFromPacketPool_none hnone]
    constructor
    · rintro ⟨f, hf, -⟩
      cases hf
    · rintro ⟨before, c, after, hq, he, hc, -⟩
      obtain ⟨rest, hrest⟩ := scanned_cons (a := c) he after
      have hmem : c ∈ scanned dec.ncPackets := by simp [hq, hrest]
      exact absurd hc.2 (by simp [hnone c hmem])
  · rw [fetchFromPacketPool_some hq he hb hc]
    constructor
    · rintro ⟨f, hf, hfrom⟩
      cases hf
      refine ⟨before, c, after, hq, he, hfrom.decodable, fun d hd hl => ?_⟩
      rw [hb d hd] at hl
      cases hl
    · rintro ⟨before', c', after', hq', he', hc', hb'⟩
      have hnodup : c.pktIds.Nodup := by
        rcases examined_first hq he hb hc hq' he' hc'.2 with rfl | hmem
        · exact hc'.1
        · exact hb' c hmem hc
      exact ⟨_, rfl, fetchedFrom (by simp [hq]) ⟨hnodup, hc⟩⟩

def codedWith (ids : List UInt64) : UDPNCMessage where
  header := ⟨startBits, 0, 2#4, 0, 0, 0, 0, endBits⟩
  pktIds := ids

/-- With packet 7 in the pool, (7, 8) is decodable and stands behind (1, 2), which is not. -/
def overtaken : UDPNCDecoder where
  packetPool := (∅ : PacketPool).insert 7 (samplePacket 7 5 ⟨0x0A000001, 1037, 0⟩)
  ncPackets := [codedWith [1, 2], codedWith [7, 8]]

theorem decode_scan_overtaken :
    (∃ c ∈ overtaken.ncPackets, Decodable overtaken.packetPool c) ∧
      (¬ ∃ f, overtaken.fetchFromPacketPool.1 = some f ∧ FetchedFrom overtaken f) ∧
      overtaken.fetchFromPacketPool.2.ncPackets = [codedWith [7, 8]] := by
  refine ⟨⟨codedWith [7, 8], List.mem_cons_of_mem _ List.mem_cons_self, by decide, rfl⟩, ?_, rfl⟩
  rintro ⟨f, hf, -⟩
  cases hf.symm.trans (show overtaken.fetchFromPacketPool.1 = none from rfl)

end UDPNCDecoder

end VastNC
