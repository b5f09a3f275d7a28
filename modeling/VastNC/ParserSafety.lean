import VastNC.WireFormat

/-! Which datagrams `deserialize` parses without leaving them: bounds of every read,
sign of every length, and dependence on nothing but the bytes it reports. -/

namespace VastNC

open LittleEndian

def Access.Within (size : Nat) : Access → Prop
  | .read off len => ∀ i, off ≤ i → i < off + len → i < size
  | .length z => 0 ≤ z

theorem Access.read_within {size off len : Nat} (h : len = 0 ∨ off + len ≤ size) :
    (Access.read off len).Within size := by
  intro i h₁ h₂
  omega

theorem Access.within_read {size off len : Nat} (h : (Access.read off len).Within size)
    (hl : 0 < len) : off + len ≤ size := by
  have hh := h (off + len - 1) (by omega) (by omega)
  omega

section Scan

variable (buf : Nat → UInt8) (size : Nat) (s : Scan)

theorem scanEntries_trace_subset (k : Nat) : s.trace ⊆ (scanEntries buf size s k).trace := by
  induction k with
  | zero => exact fun a ha => ha
  | succ k ih =>
    intro a ha
    rw [scanEntries_succ]
    simp only [scanEntry, List.mem_append]
    exact .inl (.inl (ih ha))

theorem scanEntries_within {k : Nat} (hn : s.n = 12) (hk : 12 + 24 * k ≤ size)
    (hs : ∀ a ∈ s.trace, a.Within size) : ∀ a ∈ (scanEntries buf size s k).trace, a.Within size := by
  induction k with
  | zero => exact hs
  | succ k ih =>
    have hk' := scanEntries_n buf size s k
    have hr : 8 ≤ toSizeT ((size : Int) - sizeofHeader - k * (8 + 8 + 8)) := by
      rw [toSizeT_of_nonneg (by simp only [sizeofHeader]; omega)]
      simp only [sizeofHeader]
      omega
    intro a ha
    rw [scanEntries_succ] at ha
    simp only [scanEntry, readAddr, hr, if_true, List.mem_append, List.mem_cons,
      List.not_mem_nil, or_false] at ha
    rcases ha with (ha | rfl | rfl | rfl) | rfl
    · exact ih (by omega) a ha
    · exact Access.read_within (by omega)
    · exact Access.read_within (by omega)
    · simp only [Access.Within, sizeofHeader]
      omega
    · exact Access.read_within (by omega)

/-- The ids of an entry inside the datagram leave room for its address, so the
address is copied too. -/
theorem tableSize_le_of_within {k : Nat} (hn : s.n = 12) (h12 : 12 ≤ size)
    (hs : ∀ a ∈ (scanEntries buf size s k).trace, a.Within size) : 12 + 24 * k ≤ size := by
  cases k with
  | zero => omega
  | succ k =>
    have hk := scanEntries_n buf size s k
    rw [scanEntries_succ] at hs
    have hf : 12 + 24 * k + 8 + 8 ≤ size := by
      have hh := Access.within_read (hs (.read ((scanEntries buf size s k).n + 8) 8)
        (by simp [scanEntry])) (by omega)
      omega
    have hr : 8 ≤ toSizeT ((size : Int) - sizeofHeader - k * (8 + 8 + 8)) := by
      rw [toSizeT_of_nonneg (by simp only [sizeofHeader]; omega)]
      simp only [sizeofHeader]
      omega
    have ha := Access.within_read (hs (.read ((scanEntries buf size s k).n + 16) 8)
      (by simp only [scanEntry, readAddr, hr, if_true]; simp)) (by omega)
    omega

end Scan

theorem messageAt_congr {buf buf' : Nat → UInt8}
    (h : ∀ i < tableSize (headerOf buf) + (headerOf buf).packetsize.toNat, buf' i = buf i) :
    headerOf buf' = headerOf buf ∧ messageAt buf' = messageAt buf := by
  have ht : 12 ≤ tableSize (headerOf buf) := by simp only [tableSize]; omega
  have hw {off len : Nat}
      (hl : off + len ≤ tableSize (headerOf buf) + (headerOf buf).packetsize.toNat) :
      window buf' off len = window buf off len :=
    window_congr (fun i _ hi => h i (by omega))
  have hh : headerOf buf' = headerOf buf := by rw [headerOf, hw (by omega), headerOf]
  refine ⟨hh, ?_⟩
  have he {i : Nat} (hi : i < (headerOf buf).encPacketCount.toNat) :
      12 + 24 * i + 24 ≤ tableSize (headerOf buf) := by
    simp only [tableSize]
    omega
  simp only [messageAt, hh, UDPNCMessage.mk.injEq, true_and, and_true]
  refine ⟨?_, ?_, ?_, hw (by simp only [tableSize]; omega), ?_⟩
  · apply List.map_congr_left
    intro i hi
    have hb := he (List.mem_range.mp hi)
    rw [readU64, hw (by omega), readU64]
  · apply List.map_congr_left
    intro i hi
    have hb := he (List.mem_range.mp hi)
    rw [readU64, hw (by omega), readU64]
  · apply List.map_congr_left
    intro i hi
    have hb := he (List.mem_range.mp hi)
    rw [hw (by omega)]
  · rw [checksumOf, hw (by omega), checksumOf]

namespace Datagram

variable {d : Datagram}

/-- Every access stays inside the datagram, no length is negative, and a positive
result names bytes of the datagram that determine the parsed message. -/
structure ParsedSafely (d : Datagram) : Prop where
  within : ∀ a ∈ d.parse.trace, a.Within d.size
  bounded : ∀ k : Int, d.parse.ret = .ok k → 0 < k → k ≤ d.size
  determined : ∀ k : Int, d.parse.ret = .ok k → 0 < k → ∀ d' : Datagram, d'.size = d.size →
    (∀ i : Nat, i < k → d'.buf i = d.buf i) → d'.parse.msg = d.parse.msg

def Fits (d : Datagram) : Prop :=
  d.size ≤ 8 ∨ (d.header.isUDPNCHeader = false ∧ 10 ≤ d.size) ∨
    (d.header.isUDPNCHeader = true ∧
      tableSize d.header + (if d.packetsize ≤ d.size then d.packetsize else 0) ≤ d.size)

theorem scan_within (ht : tableSize d.header ≤ d.size) : ∀ a ∈ d.scan.trace, a.Within d.size := by
  have h12 : 12 ≤ tableSize d.header := by simp only [tableSize]; omega
  apply scanEntries_within _ _ _ rfl ht
  intro a ha
  simp only [List.mem_cons, List.not_mem_nil, or_false] at ha
  rcases ha with rfl | rfl
  · exact Access.read_within (by omega)
  · exact Access.read_within (by omega)

theorem tableSize_le_of_scan (h : ∀ a ∈ d.scan.trace, a.Within d.size) :
    tableSize d.header ≤ d.size := by
  have h12 : 8 + 4 ≤ d.size :=
    Access.within_read (h _ (scanEntries_trace_subset _ _ _ _ (by simp))) (by omega)
  exact tableSize_le_of_within _ _ _ rfl h12 h

theorem Fits.parsedSafely (h : d.Fits) : d.ParsedSafely := by
  have hret {k : Int} (hr : d.parse.ret = .ok k) (hk : 0 < k) :
      k = tableSize d.header + d.packetsize ∧ 8 < d.size ∧ d.header.isUDPNCHeader = true ∧
        tableSize d.header + d.packetsize ≤ d.size := by
    obtain ⟨hs, hv, hp, hk'⟩ := ret_pos hr hk
    rcases h with h | ⟨hv', -⟩ | ⟨-, ht⟩
    · omega
    · simp [hv] at hv'
    · rw [if_pos hp] at ht
      exact ⟨hk', hs, hv, ht⟩
  refine ⟨?_, ?_, ?_⟩
  · by_cases hs : d.size ≤ 8
    · simp [parse_short hs]
    have hs' : 8 < d.size := by omega
    rcases h with h | ⟨hv, h10⟩ | ⟨hv, ht⟩
    · omega
    · rw [parse_foreign hs' hv]
      intro a ha
      simp only [List.mem_cons, List.not_mem_nil, or_false] at ha
      rcases ha with rfl | rfl
      · exact Access.read_within (by omega)
      · exact Access.read_within (by omega)
    · intro a ha
      by_cases hp : d.packetsize ≤ d.size
      · rw [if_pos hp] at ht
        rw [parse_taken hs' hv hp] at ha
        rcases List.mem_append.mp ha with ha | ha
        · exact scan_within (by omega) a ha
        · rw [List.mem_singleton.mp ha]
          exact Access.read_within (by omega)
      · rw [if_neg hp] at ht
        rw [parse_cut hs' hv (by omega) (by omega)] at ha
        rcases List.mem_append.mp ha with ha | ha
        · exact scan_within (by omega) a ha
        · simp only [List.mem_cons, List.not_mem_nil, or_false] at ha
          rcases ha with rfl | rfl
          · simp only [Access.Within]
            omega
          · exact Access.read_within (by omega)
  · intro k hr hk
    obtain ⟨rfl, -, -, hle⟩ := hret hr hk
    omega
  · intro k hr hk d' hsize hbuf
    obtain ⟨rfl, hs, hv, hle⟩ := hret hr hk
    have hc : ∀ i < tableSize (headerOf d.buf) + (headerOf d.buf).packetsize.toNat,
        d'.buf i = d.buf i := by
      intro i hi
      have hi' : i < tableSize d.header + d.packetsize := hi
      exact hbuf i (by omega)
    obtain ⟨hh, hm⟩ := messageAt_congr hc
    have hh' : d'.header = d.header := hh
    have hp' : d'.packetsize = d.packetsize := by rw [packetsize, hh', packetsize]
    rw [(parse_whole (d := d') (by omega) (by rw [hh', hv]) (by rw [hh', hp']; omega)).2,
      (parse_whole hs hv hle).2, hm]

theorem ParsedSafely.fits (h : d.ParsedSafely) : d.Fits := by
  by_cases hs : d.size ≤ 8
  · exact .inl hs
  have hs' : 8 < d.size := by omega
  have hw := h.within
  cases hv : d.header.isUDPNCHeader with
  | false =>
    rw [parse_foreign hs' hv] at hw
    have h10 := Access.within_read (hw (.read 0 10) (by simp)) (by omega)
    exact .inr (.inl ⟨hv, by omega⟩)
  | true =>
    refine .inr (.inr ⟨hv, ?_⟩)
    by_cases hp : d.packetsize ≤ d.size
    · rw [parse_taken hs' hv hp] at hw
      have ht := tableSize_le_of_scan (fun a ha => hw a (List.mem_append_left _ ha))
      rw [if_pos hp]
      by_cases h0 : d.packetsize = 0
      · omega
      · exact Access.within_read (hw _ (List.mem_append_right _ (List.mem_singleton_self _)))
          (by omega)
    · rw [if_neg hp]
      by_cases ht : d.size < tableSize d.header
      · rw [parse_overrun hs' hv (by omega) ht] at hw
        have hz : (0 : Int) ≤ (d.size : Int) - tableSize d.header :=
          hw _ (List.mem_append_right _ (List.mem_singleton_self _))
        omega
      · omega

/-- `deserialize` is safe on exactly the datagrams that hold the table, and the
payload when the datagram is at least as long as the payload claims to be. -/
theorem parsedSafely_iff (d : Datagram) : d.ParsedSafely ↔ d.Fits :=
  ⟨ParsedSafely.fits, Fits.parsedSafely⟩

/-- Nine bytes with a valid header that counts one id: the parser reads the id past
the end and reports 36 bytes. -/
theorem parsedSafely_fails_nine :
    ∃ d : Datagram, d.size = 9 ∧ d.parse.ret = .ok 36 ∧ ¬ d.ParsedSafely := by
  let h : UDPNCHeader := ⟨startBits, 0, 1#4, 0, 1, 0, 0, endBits⟩
  have hr : (Datagram.mk (memOf h.toBytes) 9 default).parse.ret = .ok 36 := by decide
  refine ⟨⟨memOf h.toBytes, 9, default⟩, rfl, hr, fun hs => ?_⟩
  have hk := hs.bounded 36 hr (by decide)
  simp at hk

end Datagram

end VastNC
