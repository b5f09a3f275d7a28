import VastNC.Reassembly

/-! How the bytes of a host may be cut into chunks: `process` finds the same frames exactly
when no chunk ends inside a frame header or right behind it. -/

namespace VastNC

open KeyedMachine

/-- A REGULAR frame as `sendMessage` queues it. -/
structure Frame where
  body : List UInt8
  pos : 0 < body.length
  small : body.length < 2 ^ 22

namespace Frame

def header (f : Frame) : VASTHeader := VASTHeader.build .regular f.body.length

def bytes (f : Frame) : List UInt8 := f.header.toBytes ++ f.body

theorem msgSize_header (f : Frame) : f.header.msgSize.toNat = f.body.length :=
  VASTHeader.toNat_msgSize_build .regular f.small

theorem length_bytes (f : Frame) : f.bytes.length = 4 + f.body.length := by
  rw [bytes, List.length_append, VASTHeader.length_toBytes]

theorem five_le_length (f : Frame) : 5 ≤ f.bytes.length := by
  have hp := f.pos
  rw [length_bytes]
  omega

theorem ofBytes_bytes (f : Frame) (rest : List UInt8) :
    VASTHeader.ofBytes (f.bytes ++ rest) = f.header := by
  rw [bytes, List.append_assoc, VASTHeader.ofBytes_toBytes]

theorem drop_bytes (f : Frame) : f.bytes.drop sizeofVASTHeader = f.body := by
  rw [bytes, List.drop_left' (by simp [sizeofVASTHeader])]

def half (f : Frame) (n : Nat) (h : n < f.bytes.length) : Half where
  header := f.header
  buf := f.bytes.take n
  incomplete := by
    rw [List.length_take, msgSize_header, sizeofVASTHeader, ← length_bytes]
    omega

def handled (f : Frame) : Handled := .vast f.header f.body

end Frame

def bytesOf (fs : List Frame) : List UInt8 := fs.flatMap Frame.bytes

/-- The entry of a host of whose frames the first `n` bytes have been received. -/
def halfAt : List Frame → Nat → Option Half
  | [], _ => none
  | f :: fs, n =>
    if h : f.bytes.length ≤ n then halfAt fs (n - f.bytes.length)
    else if n = 0 then none
    else some (f.half n (Nat.lt_of_not_le h))

def complete : List Frame → Nat → List Frame
  | [], _ => []
  | f :: fs, n => if f.bytes.length ≤ n then f :: complete fs (n - f.bytes.length) else []

/-- The position lies one to four bytes behind the start of a frame. -/
def CutsHeader : List Frame → Nat → Prop
  | [], _ => False
  | f :: fs, n => if f.bytes.length ≤ n then CutsHeader fs (n - f.bytes.length) else 0 < n ∧ n ≤ 4

theorem halfAt_zero (fs : List Frame) : halfAt fs 0 = none := by
  cases fs with
  | nil => rfl
  | cons f fs =>
    have h5 := f.five_le_length
    rw [halfAt, dif_neg (by omega), if_pos rfl]

theorem complete_zero (fs : List Frame) : complete fs 0 = [] := by
  cases fs with
  | nil => rfl
  | cons f fs =>
    have h5 := f.five_le_length
    rw [complete, if_neg (by omega)]

theorem not_cutsHeader_zero (fs : List Frame) : ¬ CutsHeader fs 0 := by
  cases fs with
  | nil => exact id
  | cons f fs =>
    have h5 := f.five_le_length
    rw [CutsHeader, if_neg (by omega)]
    omega

section Step

variable {f : Frame} {n : Nat} {m : NetSocketMsg} {rest post : List UInt8}

theorem halfFor_frame (hn : n < f.bytes.length) (hm : f.bytes.drop n ++ rest = m.msg ++ post)
    (hlen : n = 0 → 4 < m.msg.length) :
    halfFor (if n = 0 then none else some (f.half n hn)) m.msg = some (f.half n hn) := by
  by_cases h0 : n = 0
  · subst h0
    have h4 := hlen rfl
    have hle : sizeofVASTHeader ≤ m.msg.length := h4.le
    have hheader : VASTHeader.ofBytes m.msg = f.header := by
      rw [← f.ofBytes_bytes rest, ← List.drop_zero (l := f.bytes), hm, VASTHeader.ofBytes,
        VASTHeader.ofBytes, List.take_append_of_le_length hle]
    have hv : f.header.isVASTHeader = true := VASTHeader.isVASTHeader_build _ _
    simp only [halfFor, if_true, sizeofVASTHeader, h4, hheader, hv]
    rfl
  · rw [if_neg h0]
    rfl

theorem fullSize_half (hn : n < f.bytes.length) : (f.half n hn).fullSize = f.bytes.length := by
  rw [Half.fullSize, f.length_bytes]
  exact congrArg _ f.msgSize_header

theorem length_buf_half (hn : n < f.bytes.length) : (f.half n hn).buf.length = n := by
  rw [Frame.half, List.length_take]
  omega

theorem iterate_inside {half : Option Half} (hn : n + m.msg.length < f.bytes.length)
    (hm : f.bytes.drop n ++ rest = m.msg ++ post) (hne : m.msg ≠ [])
    (hhalf : halfFor half m.msg = some (f.half n (by omega))) :
    iterate half m = ⟨some (f.half (n + m.msg.length) hn), none, none⟩ := by
  have hmsg : m.msg = (f.bytes.drop n).take m.msg.length := by
    have ht := congrArg (List.take m.msg.length) hm
    rw [List.take_append_of_le_length (by rw [List.length_drop]; omega), List.take_left] at ht
    exact ht.symm
  have hbuf : (f.half n (by omega)).buf ++ m.msg = f.bytes.take (n + m.msg.length) := by
    rw [List.take_add, ← hmsg]
    rfl
  have hmin : min (f.bytes.length - n) m.msg.length = m.msg.length := by omega
  simp only [iterate, hne, if_false, hhalf, fullSize_half, length_buf_half, hmin, List.take_length, hbuf,
    lt_irrefl]
  rw [dif_pos (by rw [List.length_take]; omega)]
  rfl

theorem iterate_complete {half : Option Half} (hn : n < f.bytes.length)
    (hlen : f.bytes.length ≤ n + m.msg.length) (hm : f.bytes.drop n ++ rest = m.msg ++ post)
    (hne : m.msg ≠ []) (hhalf : halfFor half m.msg = some (f.half n hn)) :
    ∃ leftover, m.msg = f.bytes.drop n ++ leftover ∧ rest = leftover ++ post ∧
      iterate half m = ⟨none, some f.handled, if leftover = [] then none else some leftover⟩ := by
  have hdrop : (f.bytes.drop n).length = f.bytes.length - n := List.length_drop
  obtain ⟨leftover, hmsg, hrest⟩ : ∃ leftover, m.msg = f.bytes.drop n ++ leftover ∧
      rest = leftover ++ post := by
    rcases List.append_eq_append_iff.mp hm with h | ⟨c, hc, hpost⟩
    · exact h
    · have hlc := congrArg List.length hc
      rw [List.length_append, hdrop] at hlc
      have hnil : c = [] := List.eq_nil_of_length_eq_zero (by omega)
      subst hnil
      exact ⟨[], by simpa using hc.symm, hpost.symm⟩
  refine ⟨leftover, hmsg, hrest, ?_⟩
  have hlm := congrArg List.length hmsg
  rw [List.length_append, hdrop] at hlm
  have hmin : min (f.bytes.length - n) m.msg.length = f.bytes.length - n := by omega
  have htake : m.msg.take (f.bytes.length - n) = f.bytes.drop n := by rw [hmsg, List.take_left' hdrop]
  have hleft : m.msg.drop (f.bytes.length - n) = leftover := by rw [hmsg, List.drop_left' hdrop]
  have hbuf : (f.half n hn).buf ++ f.bytes.drop n = f.bytes := List.take_append_drop n f.bytes
  simp only [iterate, hne, if_false, hhalf, fullSize_half, length_buf_half, hmin, htake, hleft, hbuf,
    lt_irrefl, dite_false, f.drop_bytes]
  have hif : f.bytes.length - n < m.msg.length ↔ leftover ≠ [] := by
    rw [← List.length_pos_iff]
    omega
  by_cases hl : leftover = []
  · rw [if_neg (by rw [hif]; exact not_not.mpr hl), if_pos hl]
    rfl
  · rw [if_pos (hif.mpr hl), if_neg hl]
    rfl

end Step

theorem digest_short {m : NetSocketMsg} (h4 : m.msg.length ≤ 4) (hne : m.msg ≠ []) :
    digest none m = (none, [.socket m]) := by
  have hf : halfFor none m.msg = none := by
    rw [halfFor, if_neg (by simp only [sizeofVASTHeader]; omega)]
  have hit : iterate none m = ⟨none, some (.socket m), none⟩ := by
    rw [iterate, if_neg hne, hf]
  rw [digest_none (by rw [hit]), hit]
  rfl

/-- The next item of a host: it moves the position on and passes on the frames that end in it,
or it ends in a header and goes to the socket queue. -/
theorem digest_halfAt {fs : List Frame} {n : Nat} {m : NetSocketMsg} {post : List UInt8}
    (hm : (bytesOf fs).drop n = m.msg ++ post) (hne : m.msg ≠ []) (hcut : ¬ CutsHeader fs n) :
    (¬ CutsHeader fs (n + m.msg.length) → ∃ new,
      complete fs (n + m.msg.length) = complete fs n ++ new ∧
        digest (halfAt fs n) m = (halfAt fs (n + m.msg.length), new.map Frame.handled)) ∧
    (CutsHeader fs (n + m.msg.length) → ∃ x, .socket x ∈ (digest (halfAt fs n) m).2) := by
  induction fs generalizing n m with
  | nil =>
    rw [bytesOf, List.flatMap_nil, List.drop_nil] at hm
    exact absurd (List.append_eq_nil_iff.mp hm.symm).1 hne
  | cons f fs ih =>
    have hpos : 0 < m.msg.length := List.length_pos_iff.mpr hne
    have h5 := f.five_le_length
    have hb : bytesOf (f :: fs) = f.bytes ++ bytesOf fs := List.flatMap_cons
    rw [hb] at hm
    by_cases hn : f.bytes.length ≤ n
    · -- the frame has been passed
      have hsub : n + m.msg.length - f.bytes.length = n - f.bytes.length + m.msg.length := by omega
      rw [List.drop_append, List.drop_eq_nil_of_le hn, List.nil_append] at hm
      rw [CutsHeader, if_pos hn] at hcut
      obtain ⟨hin, hout⟩ := ih hm hne hcut
      simp only [CutsHeader, complete, halfAt, hn, hn.trans (Nat.le_add_right n m.msg.length), if_true,
        dite_true, hsub]
      refine ⟨fun hc => ?_, hout⟩
      obtain ⟨new, hcomplete, hdigest⟩ := hin hc
      exact ⟨new, by rw [hcomplete, List.cons_append], hdigest⟩
    · have hlt : n < f.bytes.length := Nat.lt_of_not_le hn
      rw [List.drop_append, Nat.sub_eq_zero_of_le hlt.le, List.drop_zero] at hm
      rw [CutsHeader, if_neg hn] at hcut
      have hhalf : halfAt (f :: fs) n = if n = 0 then none else some (f.half n hlt) := by
        rw [halfAt, dif_neg hn]
      by_cases hend : n + m.msg.length < f.bytes.length
      · have hend' : ¬ f.bytes.length ≤ n + m.msg.length := by omega
        simp only [CutsHeader, complete, hend', if_false]
        by_cases h4 : n + m.msg.length ≤ 4
        · -- too short to be looked at as a header
          refine ⟨fun hc => absurd ⟨by omega, h4⟩ hc, fun _ => ⟨m, ?_⟩⟩
          rw [hhalf, if_pos (by omega), digest_short (by omega) hne]
          exact List.mem_singleton.mpr rfl
        · refine ⟨fun _ => ⟨[], by rw [if_neg hn, List.append_nil], ?_⟩, fun hc => absurd hc.2 h4⟩
          have hit := iterate_inside hend hm hne (halfFor_frame hlt hm (by omega))
          rw [hhalf, digest_none (by rw [hit]), hit, halfAt, dif_neg hend', if_neg (by omega)]
          rfl
      · have hend' : f.bytes.length ≤ n + m.msg.length := by omega
        obtain ⟨leftover, hmsg, hrest, hit⟩ :=
          iterate_complete hlt hend' hm hne (halfFor_frame hlt hm (by omega))
        have hll : n + m.msg.length - f.bytes.length = leftover.length := by
          rw [hmsg, List.length_append, List.length_drop]
          omega
        simp only [CutsHeader, complete, halfAt, hend', if_true, dite_true, hll, hn, if_false, dite_false,
          List.nil_append]
        by_cases hl : leftover = []
        · rw [if_pos hl] at hit
          subst hl
          refine ⟨fun _ => ⟨[f], by rw [List.length_nil, complete_zero], ?_⟩,
            fun hc => absurd hc (not_cutsHeader_zero fs)⟩
          rw [digest_none (by rw [hit]), hit, List.length_nil, halfAt_zero]
          rfl
        · rw [if_neg hl] at hit
          rw [digest_some (by rw [hit]), hit]
          obtain ⟨hin, hout⟩ := ih (m := { m with msg := leftover }) (n := 0)
            (by rw [List.drop_zero, hrest]) hl (not_cutsHeader_zero fs)
          simp only [Nat.zero_add, halfAt_zero, complete_zero, List.nil_append] at hin hout
          constructor
          · intro hc
            obtain ⟨new, hcomplete, hdigest⟩ := hin hc
            refine ⟨f :: new, by rw [hcomplete], ?_⟩
            rw [hdigest]
            rfl
          · intro hc
            obtain ⟨x, hx⟩ := hout hc
            exact ⟨x, List.mem_append_right _ hx⟩

def bytesIn (ms : List NetSocketMsg) : List UInt8 := ms.flatMap NetSocketMsg.msg

def CleanCuts (fs : List Frame) (n : Nat) (ms : List NetSocketMsg) : Prop :=
  ∀ pre post, ms = pre ++ post → ¬ CutsHeader fs (n + (bytesIn pre).length)

theorem cleanCuts_cons {fs : List Frame} {n : Nat} {m : NetSocketMsg} {ms : List NetSocketMsg}
    (hcut : ¬ CutsHeader fs n) : CleanCuts fs n (m :: ms) ↔ CleanCuts fs (n + m.msg.length) ms := by
  have hlen (pre : List NetSocketMsg) : n + m.msg.length + (bytesIn pre).length =
      n + (bytesIn (m :: pre)).length := by
    rw [bytesIn, bytesIn, List.flatMap_cons, List.length_append, Nat.add_assoc]
  constructor
  · intro h pre post hms
    rw [hlen]
    exact h (m :: pre) post (by rw [hms, List.cons_append])
  · intro h pre post hms
    cases pre with
    | nil => simpa [bytesIn] using hcut
    | cons m' pre =>
      obtain ⟨rfl, htail⟩ := List.cons.inj hms
      rw [← hlen]
      exact h pre post htail

theorem run_halfAt {fs : List Frame} {n : Nat} {ms : List NetSocketMsg}
    (hms : (bytesOf fs).drop n = bytesIn ms) (hne : ∀ m ∈ ms, m.msg ≠ []) (hcut : ¬ CutsHeader fs n) :
    (CleanCuts fs n ms → ∃ new, complete fs (n + (bytesIn ms).length) = complete fs n ++ new ∧
      run digest (halfAt fs n) ms = (halfAt fs (n + (bytesIn ms).length), new.map Frame.handled)) ∧
    (¬ CleanCuts fs n ms → ∃ x, .socket x ∈ (run digest (halfAt fs n) ms).2) := by
  induction ms generalizing n with
  | nil =>
    refine ⟨fun _ => ⟨[], (List.append_nil _).symm, rfl⟩, fun hc => absurd ?_ hc⟩
    intro pre post hnil
    obtain rfl := (List.append_eq_nil_iff.mp hnil.symm).1
    exact hcut
  | cons m ms ih =>
    have hb : bytesIn (m :: ms) = m.msg ++ bytesIn ms := List.flatMap_cons
    rw [hb] at hms
    obtain ⟨hin, hout⟩ := digest_halfAt hms (hne m List.mem_cons_self) hcut
    rw [cleanCuts_cons hcut, hb, List.length_append, ← Nat.add_assoc]
    by_cases hc : CutsHeader fs (n + m.msg.length)
    · refine ⟨fun h => absurd hc (by simpa [bytesIn] using h [] ms rfl), fun _ => ?_⟩
      obtain ⟨x, hx⟩ := hout hc
      exact ⟨x, List.mem_append_left _ hx⟩
    · obtain ⟨new, hcomplete, hdigest⟩ := hin hc
      have hdrop : (bytesOf fs).drop (n + m.msg.length) = bytesIn ms := by
        rw [← List.drop_drop, hms, List.drop_left]
      obtain ⟨hin', hout'⟩ := ih hdrop (fun x hx => hne x (List.mem_cons_of_mem _ hx)) hc
      simp only [run, hdigest]
      constructor
      · intro h
        obtain ⟨new', hcomplete', hrun⟩ := hin' h
        refine ⟨new ++ new', by rw [hcomplete', hcomplete, List.append_assoc], ?_⟩
        rw [hrun, List.map_append]
      · intro h
        obtain ⟨x, hx⟩ := hout' h
        exact ⟨x, List.mem_append_right _ hx⟩

theorem complete_all (fs : List Frame) : complete fs (bytesOf fs).length = fs := by
  induction fs with
  | nil => rfl
  | cons f fs ih =>
    have hb : (bytesOf (f :: fs)).length = f.bytes.length + (bytesOf fs).length := by
      rw [bytesOf, List.flatMap_cons, List.length_append, ← bytesOf]
    rw [complete, hb, if_pos (by omega), Nat.add_sub_cancel_left, ih]

theorem run_frames {fs : List Frame} {ms : List NetSocketMsg} (hms : bytesIn ms = bytesOf fs)
    (hne : ∀ m ∈ ms, m.msg ≠ []) :
    (CleanCuts fs 0 ms → (run digest none ms).2 = fs.map Frame.handled) ∧
      (¬ CleanCuts fs 0 ms → ∃ x, .socket x ∈ (run digest none ms).2) := by
  have h := run_halfAt (n := 0) (by rw [List.drop_zero, hms]) hne (not_cutsHeader_zero fs)
  rw [halfAt_zero, complete_zero, Nat.zero_add, hms, complete_all] at h
  refine ⟨fun hc => ?_, h.2⟩
  obtain ⟨new, hnew, hrun⟩ := h.1 hc
  rw [hrun, hnew, List.nil_append]

theorem bytesOf_eq_nil_iff {fs : List Frame} : bytesOf fs = [] ↔ fs = [] := by
  cases fs with
  | nil => simp [bytesOf]
  | cons f fs =>
    have h5 := f.five_le_length
    refine ⟨fun h => ?_, fun h => (nomatch h)⟩
    have hl := congrArg List.length h
    rw [bytesOf, List.flatMap_cons, List.length_append, List.length_nil] at hl
    omega

theorem iterate_batch {f : Frame} {fs : List Frame} {m : NetSocketMsg}
    (hm : m.msg = bytesOf (f :: fs)) :
    iterate none m = ⟨none, some f.handled, if fs = [] then none else some (bytesOf fs)⟩ := by
  have h5 := f.five_le_length
  have hb : f.bytes.drop 0 ++ bytesOf fs = m.msg ++ [] := by
    rw [hm, bytesOf, bytesOf, List.flatMap_cons, List.append_nil]
    rfl
  have hlen : f.bytes.length ≤ m.msg.length := by
    rw [hm, bytesOf, List.flatMap_cons, List.length_append]
    omega
  have hne : m.msg ≠ [] := List.length_pos_iff.mp (by omega)
  have hhalf : halfFor none m.msg = some (f.half 0 (by omega)) :=
    halfFor_frame (by omega) hb (fun _ => by omega)
  obtain ⟨leftover, -, hrest, hit⟩ := iterate_complete (by omega) (by omega) hb hne hhalf
  rw [List.append_nil] at hrest
  rw [hit, ← hrest]
  simp only [bytesOf_eq_nil_iff]

theorem digest_frame (f : Frame) (host : UInt64) (now : Nat) :
    digest none ⟨host, now, f.bytes⟩ = (none, [f.handled]) := by
  have hb : f.bytes = bytesOf [f] := by simp [bytesOf]
  have hit := iterate_batch (m := ⟨host, now, f.bytes⟩) hb
  rw [digest_none (by rw [hit, if_pos rfl]), hit]
  rfl

def oneChunkEach (host : UInt64) (fs : List Frame) : List NetSocketMsg :=
  fs.map (fun f => ⟨host, 0, f.bytes⟩)

theorem run_oneChunkEach (host : UInt64) (fs : List Frame) :
    (run digest none (oneChunkEach host fs)).2 = fs.map Frame.handled := by
  induction fs with
  | nil => rfl
  | cons f fs ih =>
    rw [oneChunkEach, List.map_cons, run, digest_frame, ← oneChunkEach, ih]
    rfl

namespace VastNet

theorem storedBy_processAll {v : VastNet} (hv : v.active = true) (batches : List (List NetSocketMsg))
    (host : UInt64) : (v.processAll batches).storedBy host =
      v.storedBy host ++ (v.parsed host batches.flatten).filterMap (Handled.message? host) := by
  rw [processAll_eq, storedBy, (process_queues hv _).2.1, ofKey_append, ofKey_messages]
  rfl

theorem socketQueue_processAll_eq_iff {v : VastNet} (hv : v.active = true)
    (batches : List (List NetSocketMsg)) : (v.processAll batches).socketQueue = v.socketQueue ↔
      ∀ host x, .socket x ∉ v.parsed host batches.flatten := by
  rw [processAll_eq, (process_queues hv _).2.2.2, List.append_right_eq_self, List.filterMap_eq_nil_iff]
  constructor
  · intro h host x hx
    have hnone := h (host, .socket x) (mem_ofKey.mp hx)
    cases hnone
  · rintro h ⟨host, out⟩ hout
    cases out with
    | disconnect => rfl
    | vast header body => rfl
    | socket x => exact absurd (mem_ofKey.mpr hout) (h host x)

/-- The messages stored for every host are those of its frames, and nothing goes to the socket
queue, exactly when no chunk ends in a frame header or right behind it. -/
theorem process_chunks_iff (v : VastNet) (hactive : v.active = true) (hempty : v.halfQueue = ∅)
    (frames : UInt64 → List Frame) (batches : List (List NetSocketMsg))
    (hne : ∀ m ∈ batches.flatten, m.msg ≠ [])
    (hbytes : ∀ host, bytesIn (batches.flatten.filter (fun m => m.fromhost = host)) =
      bytesOf (frames host)) :
    ((∀ host, (v.processAll batches).storedBy host =
        (v.processAll [oneChunkEach host (frames host)]).storedBy host) ∧
      (v.processAll batches).socketQueue = v.socketQueue) ↔
      ∀ host, CleanCuts (frames host) 0 (batches.flatten.filter (fun m => m.fromhost = host)) := by
  have hhalf (host : UInt64) : v.halves host = none := by
    rw [halves, hempty, Std.ExtTreeMap.getElem?_empty]
  have hrun (host : UInt64) := run_frames (hbytes host)
    (fun m hm => hne m (List.mem_of_mem_filter hm))
  rw [socketQueue_processAll_eq_iff hactive]
  constructor
  · rintro ⟨-, hsocket⟩ host
    by_contra hc
    obtain ⟨x, hx⟩ := (hrun host).2 hc
    exact hsocket host x (by rwa [parsed_eq, hhalf])
  · intro hclean
    have hparsed (host : UInt64) :
        v.parsed host batches.flatten = (frames host).map Frame.handled := by
      rw [parsed_eq, hhalf, (hrun host).1 (hclean host)]
    constructor
    · intro host
      have hself : (oneChunkEach host (frames host)).filter (fun m => m.fromhost = host) =
          oneChunkEach host (frames host) := by
        refine List.filter_eq_self.mpr (fun m hm => ?_)
        obtain ⟨f, -, rfl⟩ := List.mem_map.mp hm
        exact decide_eq_true rfl
      rw [storedBy_processAll hactive, storedBy_processAll hactive, hparsed, parsed_eq, hhalf,
        List.flatten_singleton, hself, run_oneChunkEach]
    · intro host x hx
      rw [hparsed] at hx
      obtain ⟨f, -, hf⟩ := List.mem_map.mp hx
      cases hf

def greetingFrame : Frame := ⟨greeting.serialize, by decide, by decide⟩

def twoChunks (cut : Nat) : List (List NetSocketMsg) :=
  [[⟨5, 1, greetingFrame.bytes.take cut⟩, ⟨5, 2, greetingFrame.bytes.drop cut⟩]]

def framesOf (host : UInt64) : List Frame := if host = 5 then [greetingFrame] else []

theorem filter_twoChunks (cut : Nat) (host : UInt64) :
    (twoChunks cut).flatten.filter (fun m => m.fromhost = host) =
      if host = 5 then (twoChunks cut).flatten else [] := by
  by_cases h : host = 5
  · subst h
    rfl
  · rw [if_neg h]
    refine List.filter_eq_nil_iff.mpr (fun m hm => ?_)
    have hm5 : m.fromhost = 5 := by
      simp only [twoChunks, List.flatten_singleton, List.mem_cons, List.not_mem_nil, or_false] at hm
      rcases hm with rfl | rfl <;> rfl
    rw [hm5, decide_eq_true_eq]
    exact Ne.symm h

theorem bytesIn_twoChunks (cut : Nat) (host : UInt64) :
    bytesIn ((twoChunks cut).flatten.filter (fun m => m.fromhost = host)) = bytesOf (framesOf host) := by
  rw [filter_twoChunks, framesOf]
  by_cases h : host = 5
  · rw [if_pos h, if_pos h]
    simp [bytesIn, bytesOf, twoChunks]
  · rw [if_neg h, if_neg h]
    rfl

theorem process_chunks_cut_in_body :
    (processAll {} (twoChunks 10)).socketQueue = [] ∧
      (processAll {} (twoChunks 10)).storedBy 5 = (processAll {} [oneChunkEach 5 (framesOf 5)]).storedBy 5 := by
  have h : (∀ host, (processAll {} (twoChunks 10)).storedBy host =
      (processAll {} [oneChunkEach host (framesOf host)]).storedBy host) ∧
      (processAll {} (twoChunks 10)).socketQueue = [] := by
    refine (process_chunks_iff {} rfl rfl framesOf (twoChunks 10) (by decide)
      (bytesIn_twoChunks 10)).mpr (fun host => ?_)
    rw [filter_twoChunks, framesOf]
    by_cases h5 : host = 5
    · rw [if_pos h5, if_pos h5]
      have hnil (n : Nat) (hn : ¬ CutsHeader [greetingFrame] n) : CleanCuts [greetingFrame] n [] := by
        intro pre post hpre
        obtain rfl := (List.append_eq_nil_iff.mp hpre.symm).1
        exact hn
      refine (cleanCuts_cons (not_cutsHeader_zero _)).mpr ((cleanCuts_cons ?_).mpr (hnil _ ?_))
      · simp only [CutsHeader]
        decide
      · simp only [CutsHeader]
        decide
    · rw [if_neg h5, if_neg h5]
      exact fun pre post _ => id
  exact ⟨h.2, h.1 5⟩

/-- A chunk that is just the header is taken for a socket message, and the rest of the frame too. -/
theorem header_chunk_goes_to_socket_queue :
    (∀ m ∈ (twoChunks 4).flatten, m.msg ≠ []) ∧
      (∀ host, bytesIn ((twoChunks 4).flatten.filter (fun m => m.fromhost = host)) =
        bytesOf (framesOf host)) ∧
      (processAll {} (twoChunks 4)).socketQueue ≠ [] := by
  refine ⟨by decide, bytesIn_twoChunks 4, fun h => ?_⟩
  have hsocket := (socketQueue_processAll_eq_iff (v := {}) rfl (twoChunks 4)).mp h 5
    ⟨5, 1, greetingFrame.bytes.take 4⟩
  have hhalf : halves {} 5 = none := Std.ExtTreeMap.getElem?_empty
  have hfirst : digest none ⟨5, 1, greetingFrame.bytes.take 4⟩ =
      (none, [.socket ⟨5, 1, greetingFrame.bytes.take 4⟩]) := digest_short (by decide) (by decide)
  rw [parsed_eq, hhalf, filter_twoChunks, if_pos rfl] at hsocket
  refine hsocket (List.mem_append_left _ ?_)
  rw [hfirst]
  exact List.mem_singleton.mpr rfl

end VastNet

end VastNC
