import VastNC.Lib.Draining
import VastNC.VastMessage

/-! Replay of captured messages: `vast_capturemsgs` and `netudpnc_capturemsgs` once their file is read. -/

namespace VastNC

open Draining

structure MessageWrapper where
  timestamp : UInt64
  msg : Message

structure NCWrapper where
  timestamp : UInt64
  buffer : List UInt8
  remoteEndpoint : IPaddr
  localEndpoint : IPaddr

/-- An element behind the last one of a vector is read. -/
structure PastEnd where
  step : Nat

/-- What either class keeps: the messages read from the file and the next one's position. -/
structure Capture (ω : Type) where
  restored : List ω
  step : Nat := 0

namespace Capture

section VAST

variable {r : Capture MessageWrapper} {currTime : UInt64}

/-- The loop, over the messages from position `step` on. -/
def scan (currTime : UInt64) : List MessageWrapper → Nat → Nat × Option Message
  | [], step => (step, none)
  | m :: ms, step => if m.timestamp < currTime then (step + 1, some m.msg) else scan currTime ms (step + 1)

def restoreNextVASTMessage (currTime : UInt64) (r : Capture MessageWrapper) :
    Except PastEnd (Capture MessageWrapper × Option Message) :=
  let found := scan currTime (r.restored.drop r.step) r.step
  .ok ({ r with step := found.1 }, found.2)

theorem drains_VAST (currTime : UInt64) (l ms : List MessageWrapper) (k : Nat) (h : l.drop k = ms) :
    Drains (restoreNextVASTMessage currTime) ⟨l, k⟩ ((ms.filter (·.timestamp < currTime)).map (·.msg))
      ⟨l, k + ms.length⟩ := by
  induction ms generalizing k with
  | nil =>
    apply Drains.done
    simp [restoreNextVASTMessage, h, scan]
  | cons m ms ih =>
    have hnext : l.drop (k + 1) = ms := by
      rw [← List.drop_drop, h]
      rfl
    have hrest := ih (k + 1) hnext
    have hlen : k + 1 + ms.length = k + (m :: ms).length := by
      simp only [List.length_cons]
      omega
    rw [hlen] at hrest
    by_cases hm : m.timestamp < currTime
    · have hcall : restoreNextVASTMessage currTime ⟨l, k⟩ = .ok (⟨l, k + 1⟩, some m.msg) := by
        simp [restoreNextVASTMessage, h, scan, hm]
      simpa [hm] using Drains.more hcall hrest
    · -- the message is passed over: the call is the one from the next position
      have hcall : restoreNextVASTMessage currTime ⟨l, k⟩ = restoreNextVASTMessage currTime ⟨l, k + 1⟩ := by
        simp [restoreNextVASTMessage, h, hnext, scan, hm]
      simpa [hm] using hrest.congr hcall.symm

end VAST

def restoreNextNCMessage (currTime : UInt64) (r : Capture NCWrapper) :
    Except PastEnd (Capture NCWrapper × Option NCWrapper) :=
  match r.restored[r.step]? with
  | none => .error ⟨r.step⟩
  | some w =>
    if w.timestamp ≤ currTime ∧ r.step < r.restored.length then .ok ({ r with step := r.step + 1 }, some w)
    else .ok (r, none)

theorem drains_NC (currTime : UInt64) (l ms : List NCWrapper) (k : Nat) (h : l.drop k = ms)
    (hlate : ∃ w ∈ ms, currTime < w.timestamp) :
    Drains (restoreNextNCMessage currTime) ⟨l, k⟩ (ms.takeWhile (·.timestamp ≤ currTime))
      ⟨l, k + (ms.takeWhile (·.timestamp ≤ currTime)).length⟩ := by
  induction ms generalizing k with
  | nil => simp at hlate
  | cons w ms ih =>
    have hget : l[k]? = some w := by
      rw [← List.head?_drop, h]
      rfl
    have hlt : k < l.length := (List.getElem?_eq_some_iff.mp hget).1
    have hnext : l.drop (k + 1) = ms := by
      rw [← List.drop_drop, h]
      rfl
    by_cases hw : w.timestamp ≤ currTime
    · have hcall : restoreNextNCMessage currTime ⟨l, k⟩ = .ok (⟨l, k + 1⟩, some w) := by
        simp only [restoreNextNCMessage, hget]
        exact if_pos ⟨hw, hlt⟩
      obtain ⟨v, hv, hgt⟩ := hlate
      have hv' : v ∈ ms := by
        rcases List.mem_cons.mp hv with rfl | hv
        · exact absurd hw (UInt64.not_le.mpr hgt)
        · exact hv
      have hrest := Drains.more hcall (ih (k + 1) hnext ⟨v, hv', hgt⟩)
      have htake : (w :: ms).takeWhile (·.timestamp ≤ currTime) = w :: ms.takeWhile (·.timestamp ≤ currTime) := by
        simp [hw]
      rw [htake, List.length_cons, Nat.add_comm _ 1, ← Nat.add_assoc]
      exact hrest
    · have hcall : restoreNextNCMessage currTime ⟨l, k⟩ = .ok (⟨l, k⟩, none) := by
        simp [restoreNextNCMessage, hget, hw]
      simpa [hw] using Drains.done hcall

theorem restored_NC {currTime : UInt64} {r r' : Capture NCWrapper} {w : Option NCWrapper}
    (h : restoreNextNCMessage currTime r = .ok (r', w)) : r'.restored = r.restored := by
  simp only [restoreNextNCMessage] at h
  split at h
  · cases h
  · split at h
    · cases h
      rfl
    · cases h
      rfl

/-- Draining ends only at a message that is not due. -/
theorem late_of_drains_NC {currTime : UInt64} {r r' : Capture NCWrapper} {ws : List NCWrapper}
    (h : Drains (restoreNextNCMessage currTime) r ws r') :
    r'.restored = r.restored ∧ ∃ w ∈ r.restored, currTime < w.timestamp := by
  induction h with
  | @done r r' h =>
    refine ⟨restored_NC h, ?_⟩
    simp only [restoreNextNCMessage] at h
    split at h
    · cases h
    · rename_i w hget
      obtain ⟨hlt, hw⟩ := List.getElem?_eq_some_iff.mp hget
      split at h
      · cases h
      · rename_i hnot
        have hgt : ¬ w.timestamp ≤ currTime := fun hle => hnot ⟨hle, hlt⟩
        exact ⟨w, List.mem_of_getElem? hget, UInt64.not_le.mp hgt⟩
  | @more r r₁ r' w ws h _ ih =>
    have hsame := restored_NC h
    rwa [hsame] at ih

/-- The messages with a timestamp below the query time. -/
def dueVAST (captured : List MessageWrapper) (currTime : UInt64) : List Message :=
  (captured.filter (·.timestamp < currTime)).map (·.msg)

def dueNC (captured : List NCWrapper) (currTime : UInt64) : List NCWrapper :=
  captured.filter (·.timestamp ≤ currTime)

theorem exact_VAST_end {l : List MessageWrapper} {out : List Message} {times : List UInt64} :
    Exact restoreNextVASTMessage (dueVAST l) ⟨l, l.length⟩ out times ↔ ∀ t ∈ times, out = dueVAST l t := by
  have hend (t : UInt64) : Drains (restoreNextVASTMessage t) ⟨l, l.length⟩ [] ⟨l, l.length⟩ :=
    drains_VAST t l [] l.length (by simp)
  induction times with
  | nil => simp [Exact.nil]
  | cons t ts ih =>
    constructor
    · intro h
      obtain ⟨hdue, hts⟩ := h.head (hend t)
      rw [List.append_nil] at hdue hts
      intro u hu
      rcases List.mem_cons.mp hu with rfl | hu
      · exact hdue
      · exact ih.mp hts u hu
    · intro h
      refine .cons (hend t) ?_ ?_
      · rw [List.append_nil]
        exact h t (by simp)
      · rw [List.append_nil]
        exact ih.mpr (fun u hu => h u (by simp [hu]))

theorem dueVAST_eq_iff {l : List MessageWrapper} {t u : UInt64} (h : t ≤ u) :
    dueVAST l t = dueVAST l u ↔ ∀ m ∈ l, m.timestamp < u → m.timestamp < t := by
  have hsub : (l.filter (·.timestamp < t)).Sublist (l.filter (·.timestamp < u)) := by
    apply List.monotone_filter_right
    intro m hm
    simp only [decide_eq_true_eq] at hm ⊢
    exact UInt64.lt_of_lt_of_le hm h
  constructor
  · intro heq m hm hlt
    have hlen := congrArg List.length heq
    simp only [dueVAST, List.length_map] at hlen
    have hmem : m ∈ l.filter (·.timestamp < t) := by
      rw [hsub.eq_of_length hlen]
      simp [hm, hlt]
    simpa [hm] using hmem
  · intro hall
    simp only [dueVAST]
    congr 1
    apply List.filter_congr
    intro m hm
    simp only [decide_eq_decide]
    exact ⟨fun hlt => UInt64.lt_of_lt_of_le hlt h, hall m hm⟩

theorem exact_VAST_iff {l : List MessageWrapper} {times : List UInt64} (ht : times.Pairwise (· ≤ ·)) :
    Exact restoreNextVASTMessage (dueVAST l) ⟨l, 0⟩ [] times ↔
      ∀ t ∈ times, ∀ t₀ ∈ times.head?, ∀ m ∈ l, m.timestamp < t → m.timestamp < t₀ := by
  cases times with
  | nil => simp [Exact.nil]
  | cons t₀ ts =>
    have hfirst : Drains (restoreNextVASTMessage t₀) ⟨l, 0⟩ (dueVAST l t₀) ⟨l, l.length⟩ := by
      have h := drains_VAST t₀ l l 0 rfl
      rwa [Nat.zero_add] at h
    have hle := (List.pairwise_cons.mp ht).1
    have hiff : Exact restoreNextVASTMessage (dueVAST l) ⟨l, 0⟩ [] (t₀ :: ts) ↔
        ∀ t ∈ ts, dueVAST l t₀ = dueVAST l t := by
      rw [← exact_VAST_end]
      constructor
      · intro h
        exact (h.head hfirst).2
      · intro h
        exact .cons hfirst rfl h
    rw [hiff]
    simp only [List.head?_cons, Option.mem_some_iff, forall_eq', List.mem_cons, forall_eq_or_imp, imp_self,
      implies_true, true_and]
    constructor
    · intro h t hmem
      exact (dueVAST_eq_iff (hle t hmem)).mp (h t hmem)
    · intro h t hmem
      exact (dueVAST_eq_iff (hle t hmem)).mpr (h t hmem)

theorem takeWhile_eq_filter {l : List NCWrapper} (hl : l.Pairwise (fun v w => v.timestamp ≤ w.timestamp))
    (t : UInt64) : l.takeWhile (·.timestamp ≤ t) = l.filter (·.timestamp ≤ t) := by
  induction l with
  | nil => rfl
  | cons w l ih =>
    obtain ⟨hw, hl⟩ := List.pairwise_cons.mp hl
    by_cases hle : w.timestamp ≤ t
    · simp [hle, ih hl]
    · have hnone : l.filter (·.timestamp ≤ t) = [] := by
        apply List.filter_eq_nil_iff.mpr
        intro v hv hvt
        exact hle (UInt64.le_trans (hw v hv) (by simpa using hvt))
      simp [hle, hnone]

theorem drop_length_takeWhile {ω : Type} (p : ω → Bool) (l : List ω) :
    l.drop (l.takeWhile p).length = l.dropWhile p := by
  induction l with
  | nil => rfl
  | cons a l ih => by_cases h : p a = true <;> simp [h, ih]

/-- While some message is not due, the messages come out one by one: `out` are those before position `k`. -/
theorem exact_NC {l ms out : List NCWrapper} {times : List UInt64} {k : Nat}
    (hl : l.Pairwise (fun v w => v.timestamp ≤ w.timestamp)) (ht : times.Pairwise (· ≤ ·))
    (hdrop : l.drop k = ms) (hsplit : out ++ ms = l) (hout : ∀ w ∈ out, ∀ t ∈ times, w.timestamp ≤ t)
    (hlate : ∀ t ∈ times, ∃ w ∈ l, t < w.timestamp) :
    Exact restoreNextNCMessage (dueNC l) ⟨l, k⟩ out times := by
  induction times generalizing ms out k with
  | nil => exact .nil
  | cons t ts ih =>
    obtain ⟨hle, hts⟩ := List.pairwise_cons.mp ht
    have hms : ms.Pairwise (fun v w => v.timestamp ≤ w.timestamp) := by
      rw [← hsplit] at hl
      exact (List.pairwise_append.mp hl).2.1
    have hrest : ∃ w ∈ ms, t < w.timestamp := by
      obtain ⟨w, hw, hgt⟩ := hlate t (by simp)
      rw [← hsplit] at hw
      rcases List.mem_append.mp hw with hw | hw
      · exact absurd (hout w hw t (by simp)) (UInt64.not_le.mpr hgt)
      · exact ⟨w, hw, hgt⟩
    have hdue : out ++ ms.takeWhile (·.timestamp ≤ t) = dueNC l t := by
      have hall : out.filter (·.timestamp ≤ t) = out := by
        rw [List.filter_eq_self]
        intro w hw
        simpa using hout w hw t (by simp)
      rw [takeWhile_eq_filter hms, dueNC, ← hsplit, List.filter_append, hall]
    refine .cons (drains_NC t l ms k hdrop hrest) hdue ?_
    have hskip : l.drop (k + (ms.takeWhile (·.timestamp ≤ t)).length) = ms.dropWhile (·.timestamp ≤ t) := by
      rw [← List.drop_drop, hdrop, drop_length_takeWhile]
    refine ih hts hskip ?_ ?_ (fun u hu => hlate u (by simp [hu]))
    · rw [List.append_assoc, List.takeWhile_append_dropWhile, hsplit]
    · intro w hw u hu
      rcases List.mem_append.mp hw with hw | hw
      · exact hout w hw u (by simp [hu])
      · have hwt := List.mem_takeWhile_imp hw
        exact UInt64.le_trans (by simpa using hwt) (hle u hu)

theorem late_of_exact_NC {l out : List NCWrapper} {r : Capture NCWrapper} {times : List UInt64}
    (h : Exact restoreNextNCMessage (dueNC l) r out times) : ∀ t ∈ times, ∃ w ∈ r.restored, t < w.timestamp := by
  induction h with
  | nil => simp
  | @cons r r' out ws t ts hd _ _ ih =>
    obtain ⟨hsame, hw⟩ := late_of_drains_NC hd
    rw [hsame] at ih
    intro u hu
    rcases List.mem_cons.mp hu with rfl | hu
    · exact hw
    · exact ih u hu

theorem exact_NC_iff {l : List NCWrapper} {times : List UInt64}
    (hl : l.Pairwise (fun v w => v.timestamp ≤ w.timestamp)) (ht : times.Pairwise (· ≤ ·)) :
    Exact restoreNextNCMessage (dueNC l) ⟨l, 0⟩ [] times ↔ ∀ t ∈ times, ∃ w ∈ l, t < w.timestamp := by
  constructor
  · exact late_of_exact_NC
  · exact exact_NC hl ht rfl rfl (by simp)

/-- Draining either capture at rising times gives exactly what is due at each, without a read past the end,
when no VAST message falls due after the first time, and when some NC message is due at none of them. -/
theorem capture_replay_iff {captured : List MessageWrapper} {wrappers : List NCWrapper} {times : List UInt64}
    (hn : wrappers.Pairwise (fun v w => v.timestamp ≤ w.timestamp)) (ht : times.Pairwise (· ≤ ·)) :
    (Exact restoreNextVASTMessage (dueVAST captured) ⟨captured, 0⟩ [] times ↔
      ∀ t ∈ times, ∀ t₀ ∈ times.head?, ∀ m ∈ captured, m.timestamp < t → m.timestamp < t₀) ∧
    (Exact restoreNextNCMessage (dueNC wrappers) ⟨wrappers, 0⟩ [] times ↔
      ∀ t ∈ times, ∃ w ∈ wrappers, t < w.timestamp) :=
  ⟨exact_VAST_iff ht, exact_NC_iff hn ht⟩

def captureAt (timestamp : UInt64) : MessageWrapper := ⟨timestamp, { msgtype := 1 }⟩

def packetAt (timestamp : UInt64) : NCWrapper := ⟨timestamp, [1], ⟨1, 9, 0⟩, ⟨2, 9, 0⟩⟩

theorem capture_replay_iff_late :
    Exact restoreNextVASTMessage (dueVAST [captureAt 5, captureAt 9]) ⟨[captureAt 5, captureAt 9], 0⟩ [] [10, 12] ∧
    Exact restoreNextNCMessage (dueNC [packetAt 5, packetAt 20]) ⟨[packetAt 5, packetAt 20], 0⟩ [] [10, 12] := by
  have h := @capture_replay_iff [captureAt 5, captureAt 9] [packetAt 5, packetAt 20] [10, 12]
    (by simp [packetAt]) (by simp)
  exact ⟨h.1.mpr (by simp [captureAt]), h.2.mpr (by simp [packetAt])⟩

/-- A message captured at 5 is passed over at time 1, and the packets run out. -/
theorem capture_not_replayed :
    (¬ ∀ (captured : List MessageWrapper) (times : List UInt64),
      captured.Pairwise (fun v w => v.timestamp ≤ w.timestamp) → times.Pairwise (· ≤ ·) →
      Exact restoreNextVASTMessage (dueVAST captured) ⟨captured, 0⟩ [] times) ∧
    (¬ ∀ (wrappers : List NCWrapper) (times : List UInt64),
      wrappers.Pairwise (fun v w => v.timestamp ≤ w.timestamp) → times.Pairwise (· ≤ ·) →
      Exact restoreNextNCMessage (dueNC wrappers) ⟨wrappers, 0⟩ [] times) := by
  constructor
  · intro h
    have hx := (exact_VAST_iff (by simp)).mp (h [captureAt 5] [1, 6] (by simp) (by simp))
    simp [captureAt] at hx
  · intro h
    have hx := (exact_NC_iff (by simp) (by simp)).mp (h [packetAt 5] [6] (by simp) (by simp))
    simp [packetAt] at hx

end Capture

end VastNC
