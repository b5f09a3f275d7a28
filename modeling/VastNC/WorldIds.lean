import VastNC.OriginReplacement

/-! The worlds that the gateway hands out to `JOIN` requests which leave the choice to it. -/

namespace VastNC

open Std (ExtTreeMap)

namespace Gateway

variable {g : Gateway} {n m : Nat} {v w : UInt16}

theorem nextWorld_ne_zero (w : UInt16) : nextWorld w ≠ 0 := by
  rw [nextWorld]
  split
  · decide
  · assumption

theorem nextWorld_eq_one (h : nextWorld w = 1) : w = 0 := by
  rw [nextWorld] at h
  split at h
  · exact absurd h (by decide)
  · simpa using h

theorem iterate_ne_zero (n : Nat) (w : UInt16) : nextWorld^[n + 1] w ≠ 0 := by
  rw [Function.iterate_succ_apply']
  exact nextWorld_ne_zero _

/-- The worlds passed on the way to the free one have origins. -/
theorem freeWorld_some (h : g.freeWorld n w = some v) :
    v ∉ g.origins ∧ ∃ m, nextWorld^[m] w = v ∧ ∀ j < m, nextWorld^[j] w ∈ g.origins := by
  induction n generalizing w with
  | zero => simp [freeWorld] at h
  | succ n ih =>
    rw [freeWorld] at h
    split at h
    · rename_i hw
      obtain ⟨hv, m, hm, hpassed⟩ := ih h
      refine ⟨hv, m + 1, hm, fun j hj => ?_⟩
      cases j with
      | zero => exact hw
      | succ j => exact hpassed j (Nat.lt_of_succ_lt_succ hj)
    · rename_i hw
      obtain rfl := Option.some.inj h
      exact ⟨hw, 0, rfl, fun j hj => absurd hj (Nat.not_lt_zero j)⟩

theorem iterate_toNat (h : w.toNat + n < 65536) : (nextWorld^[n] w).toNat = w.toNat + n := by
  induction n with
  | zero => rfl
  | succ n ih =>
    have hn := ih (by omega)
    rw [Function.iterate_succ_apply']
    generalize nextWorld^[n] w = u at *
    have hlast : u + 1 ≠ 0 := by
      intro he
      have := congrArg UInt16.toNat he
      simp [UInt16.toNat_add] at this
      omega
    rw [nextWorld, if_neg hlast, UInt16.toNat_add, hn]
    simp
    omega

theorem exists_iterate_eq (w : UInt16) (hv : 2 ≤ v.toNat) : ∃ n, nextWorld^[n] w = v := by
  have hlt := w.toNat_lt
  have hlast : (nextWorld^[65535 - w.toNat] w).toNat = 65535 := by
    rw [iterate_toNat (by omega)]
    omega
  have hwrap : nextWorld^[65535 - w.toNat + 1] w = 2 := by
    rw [Function.iterate_succ_apply', nextWorld, if_pos]
    apply UInt16.toNat_inj.mp
    simp [UInt16.toNat_add, hlast]
  have hv' := v.toNat_lt
  refine ⟨(v.toNat - 2) + (65535 - w.toNat + 1), ?_⟩
  rw [Function.iterate_add_apply, hwrap]
  apply UInt16.toNat_inj.mp
  have htwo : (2 : UInt16).toNat = 2 := rfl
  rw [iterate_toNat (by omega)]
  omega

/-- The world that a `JOIN` without one is given. -/
def givenWorld (g : Gateway) : Option UInt16 := if g.hung then none else g.freeWorld 65536 g.worldCounter

/-- Each of the worlds from 2 on would have an origin if the search did not end. -/
theorem size_of_endless (h : g.freeWorld 65536 g.worldCounter = none) : 65534 ≤ g.origins.size := by
  let used := (Finset.range 65534).image fun k => UInt16.ofNat (k + 2)
  have htoNat : ∀ k < 65534, (UInt16.ofNat (k + 2)).toNat = k + 2 := by
    intro k hk
    rw [UInt16.toNat_ofNat']
    omega
  have hcard : used.card = 65534 := by
    rw [Finset.card_image_of_injOn, Finset.card_range]
    intro j hj k hk he
    have hjk := congrArg UInt16.toNat he
    have hj' := Finset.mem_range.mp (Finset.mem_coe.mp hj)
    have hk' := Finset.mem_range.mp (Finset.mem_coe.mp hk)
    simp only [htoNat j hj', htoNat k hk'] at hjk
    omega
  have hsub : used ⊆ g.origins.keys.toFinset := by
    intro v hv
    obtain ⟨k, hk, rfl⟩ := Finset.mem_image.mp hv
    rw [Finset.mem_range] at hk
    obtain ⟨n, hn⟩ := exists_iterate_eq (v := UInt16.ofNat (k + 2)) g.worldCounter (by rw [htoNat k hk]; omega)
    rw [List.mem_toFinset, ExtTreeMap.mem_keys, ← hn]
    exact search_endless h n
  calc 65534 = used.card := hcard.symm
    _ ≤ g.origins.keys.toFinset.card := Finset.card_le_card hsub
    _ ≤ g.origins.keys.length := List.toFinset_card_le _
    _ = g.origins.size := ExtTreeMap.length_keys

theorem hung_joinWorld (accepts : UInt64 → Bool) (w : UInt16) (client : UInt64) :
    (g.joinWorld accepts w client).hung = g.hung := by
  rw [joinWorld]
  split
  · have hmarks := (marks_promoteCandidate accepts (fun addr ok => .init w addr.hostId addr.hostId ok)
      g.matchers.size g).hung
    rw [createOrigin]
    split <;> exact hmarks
  · split
    · split <;> rfl
    · split <;> rfl

theorem hung_becomeOrigin (id : UInt64) (info : MatcherInfo) : (g.becomeOrigin id info).hung = g.hung := by
  rw [becomeOrigin]
  split <;> rfl

theorem hung_keepAlive (accepts : UInt64 → Bool) (sender id originId : UInt64) (info : MatcherInfo) :
    (g.keepAlive accepts sender id originId info).hung = g.hung := by
  rw [keepAlive]
  split
  · split
    · exact hung_becomeOrigin id info
    · split
      · exact hung_becomeOrigin id info
      · rfl
  · split <;> rfl

theorem hung_handleAlive (accepts : UInt64 → Bool) (now sender : UInt64) (requestReply : Bool) (worldId : UInt16)
    (addr : Addr) (originId : UInt64) :
    (g.handleAlive accepts now sender requestReply worldId addr originId).hung = g.hung := by
  have hin : ∀ (g : Gateway) (w : UInt16), (g.handleAliveIn accepts now sender w addr originId).hung = g.hung := by
    intro g w
    rw [handleAliveIn]
    split
    · exact hung_keepAlive ..
    · split
      · rfl
      · exact hung_keepAlive ..
  rw [handleAlive]
  generalize (if worldId = 0 then (g.matchers[originId]?.getD {}).worldId else worldId) = w
  split
  · rfl
  · rw [hin]
    split <;> rfl

theorem hung_handleDisconnect (accepts : UInt64 → Bool) (id : UInt64) :
    (g.handleDisconnect accepts id).hung = g.hung := by
  rw [handleDisconnect]
  split
  · rw [originDisconnected]
    split
    · rfl
    · dsimp only
      split <;> rfl
  · rfl

theorem step_join_of_givenWorld (accepts : UInt64 → Bool) (client : UInt64) (h : g.givenWorld = some w) :
    g.step (.join accepts 0 client) = ({ g with worldCounter := w + 1 } : Gateway).joinWorld accepts w client := by
  rw [givenWorld] at h
  split at h
  · cases h
  · rename_i hhung
    rw [step, if_neg hhung, handle, handleJoin, if_pos rfl, h]

/-- As long as a world from 2 on is free, every handler returns. -/
theorem hung_step (hg : g.hung = false) (e : Event) (hsize : g.origins.size < 65534) : (g.step e).hung = false := by
  rw [step, if_neg (by simp [hg])]
  cases e with
  | candidate now candidate =>
    rw [handle, handleCandidate]
    split <;> exact hg
  | join accepts worldId client =>
    rw [handle, handleJoin]
    split
    · split
      · exact (hung_joinWorld ..).trans hg
      · rename_i hnone
        exact absurd (size_of_endless hnone) (by omega)
    · exact (hung_joinWorld ..).trans hg
  | insert accepts joinPos origin => exact (marks_promoteCandidate ..).hung.trans hg
  | alive accepts now sender requestReply worldId addr originId => exact (hung_handleAlive ..).trans hg
  | disconnect accepts id => exact (hung_handleDisconnect accepts id).trans hg

/-- A `JOIN` for world 0 ends with a world that is neither 0 nor `VAST_DEFAULT_WORLD_ID` and has no origin. -/
def Assigns (g : Gateway) : Event → Prop
  | .join accepts worldId client => worldId = 0 → ∃ w, g.givenWorld = some w ∧
      g.step (.join accepts worldId client) =
        ({ g with worldCounter := w + 1 } : Gateway).joinWorld accepts w client ∧
      w ≠ 0 ∧ w ≠ 1 ∧ w ∉ g.origins
  | _ => True

/-- A `JOIN` for world 0 does not meet a counter that has gone round to 0 or 1 with that world free. -/
def Unwrapped (g : Gateway) : Event → Prop
  | .join _ worldId _ => worldId = 0 →
      (g.worldCounter = 0 → 0 ∈ g.origins ∧ 1 ∈ g.origins) ∧ (g.worldCounter = 1 → 1 ∈ g.origins)
  | _ => True

instance (g : Gateway) : (e : Event) → Decidable (g.Unwrapped e)
  | .join _ worldId _ => inferInstanceAs (Decidable (worldId = 0 → _))
  | .candidate _ _ | .insert _ _ _ | .alive _ _ _ _ _ _ _ | .disconnect _ _ => .isTrue trivial

theorem freeWorld_one (h : g.freeWorld n w = some 1) : w = 1 ∨ w = 0 ∧ 0 ∈ g.origins := by
  obtain ⟨-, m, hm, hpassed⟩ := freeWorld_some h
  cases m with
  | zero => exact .inl hm
  | succ m =>
    rw [Function.iterate_succ_apply'] at hm
    have hzero := nextWorld_eq_one hm
    cases m with
    | zero => exact .inr ⟨hzero, hzero ▸ hpassed 0 (Nat.succ_pos 0)⟩
    | succ m => exact absurd hzero (iterate_ne_zero m w)

theorem freeWorld_zero (h : g.freeWorld n w = some 0) : w = 0 ∧ 0 ∉ g.origins := by
  obtain ⟨hfree, m, hm, -⟩ := freeWorld_some h
  cases m with
  | zero => exact ⟨hm, hfree⟩
  | succ m => exact absurd hm (iterate_ne_zero m w)

theorem assigns_iff_unwrapped (hg : g.hung = false) (hsize : g.origins.size < 65534) (e : Event) :
    g.Assigns e ↔ g.Unwrapped e := by
  cases e with
  | join accepts worldId client =>
    refine imp_congr_right fun hw => ?_
    subst hw
    have hgiven : g.givenWorld = g.freeWorld 65536 g.worldCounter := by simp [givenWorld, hg]
    obtain ⟨w, hfound⟩ : ∃ w, g.freeWorld 65536 g.worldCounter = some w := by
      refine Option.ne_none_iff_exists'.mp fun hnone => ?_
      have := size_of_endless hnone
      omega
    have hfree := (freeWorld_some hfound).1
    constructor
    · rintro ⟨v, hv, -, hzero, hone, -⟩
      obtain rfl : w = v := Option.some.inj (hfound.symm.trans (hgiven.symm.trans hv))
      constructor
      · intro hc
        rw [hc, freeWorld] at hfound
        split at hfound
        · rename_i hused
          refine ⟨hused, ?_⟩
          by_contra hnot
          have hnext : nextWorld 0 = 1 := rfl
          rw [freeWorld, hnext, if_neg hnot] at hfound
          exact hone (Option.some.inj hfound).symm
        · exact absurd (Option.some.inj hfound).symm hzero
      · intro hc
        by_contra hnot
        rw [hc, freeWorld, if_neg hnot] at hfound
        exact hone (Option.some.inj hfound).symm
    · rintro ⟨hzero, hone⟩
      refine ⟨w, hgiven.trans hfound, step_join_of_givenWorld accepts client (hgiven.trans hfound), ?_, ?_, hfree⟩
      · rintro rfl
        obtain ⟨hc, hnot⟩ := freeWorld_zero hfound
        exact hnot (hzero hc).1
      · rintro rfl
        rcases freeWorld_one hfound with hc | ⟨hc, -⟩
        · exact hfree (hone hc)
        · exact hfree (hzero hc).2
  | candidate now candidate => exact Iff.rfl
  | insert accepts joinPos origin => exact Iff.rfl
  | alive accepts now sender requestReply worldId addr originId => exact Iff.rfl
  | disconnect accepts id => exact Iff.rfl

/-- The gateway hands out fresh worlds exactly until its counter comes round to a world below 2 that is free. -/
theorem worlds_fresh_iff (es : List Event)
    (hsize : StepRun.Along step (fun g _ => g.origins.size < 65534) {} es) :
    StepRun.Along step Assigns {} es ↔ StepRun.Along step Unwrapped {} es := by
  have hrun : ∀ (g : Gateway) e, g.hung = false → g.origins.size < 65534 → (g.step e).hung = false :=
    fun g e hg hsize => hung_step hg e hsize
  exact StepRun.along_congr hrun (fun g e hg hsize => assigns_iff_unwrapped hg hsize e) hsize rfl

/-- Of two candidates the first becomes the origin of world 2 and the second that of world 3. -/
def twoWorlds : List Event :=
  [.candidate 0 { hostId := 5 }, .candidate 0 { hostId := 6 }, .join (fun _ => true) 0 9,
    .alive (fun _ => true) 1 5 false 2 { hostId := 5 } 5, .join (fun _ => true) 0 10, .join (fun _ => true) 2 11]

theorem worlds_fresh_two : StepRun.Along step Assigns {} twoWorlds ∧
    (twoWorlds.foldl step {}).origins.toList = [(2, 5), (3, 6)] :=
  ⟨(worlds_fresh_iff _ (by decide)).mpr (by decide), by decide⟩

def lonelyJoin : Event := .join (fun _ => true) 0 9

theorem step_lonelyJoin (c : UInt16) : ({ worldCounter := c } : Gateway).step lonelyJoin = { worldCounter := c + 1 } := by
  have hfree : c ∉ ({ worldCounter := c } : Gateway).origins := ExtTreeMap.not_mem_empty
  have hgiven : ({ worldCounter := c } : Gateway).givenWorld = some c := by
    rw [givenWorld, if_neg Bool.false_ne_true, freeWorld, if_neg hfree]
  rw [lonelyJoin, step_join_of_givenWorld _ _ hgiven, joinWorld]
  simp [createOrigin, promoteCandidate]

theorem foldl_lonelyJoin (n : Nat) (c : UInt16) :
    (List.replicate n lonelyJoin).foldl step { worldCounter := c } = { worldCounter := c + UInt16.ofNat n } := by
  induction n generalizing c with
  | zero => simp
  | succ n ih =>
    rw [List.replicate_succ, List.foldl_cons, step_lonelyJoin, ih, UInt16.ofNat_add, add_assoc, add_comm 1]
    rfl

theorem along_lonelyJoin (n : Nat) (c : UInt16) :
    StepRun.Along step (fun g _ => g.origins.size < 65534) { worldCounter := c } (List.replicate n lonelyJoin) := by
  induction n generalizing c with
  | zero => trivial
  | succ n ih =>
    rw [List.replicate_succ]
    refine ⟨by simp, ?_⟩
    rw [step_lonelyJoin]
    exact ih (c + 1)

/-- The 65535th `JOIN` without a candidate is given world 0. -/
theorem worlds_run_out :
    StepRun.Along step (fun g _ => g.origins.size < 65534) {} (List.replicate 65535 lonelyJoin) ∧
      ¬ StepRun.Along step Assigns {} (List.replicate 65535 lonelyJoin) := by
  refine ⟨along_lonelyJoin 65535 2, fun h => ?_⟩
  rw [List.replicate_succ'] at h
  have hlast := h.last
  have hstate := foldl_lonelyJoin 65534 2
  have hwrap : (2 : UInt16) + UInt16.ofNat 65534 = 0 := by decide
  rw [hwrap] at hstate
  change Assigns ((List.replicate 65534 lonelyJoin).foldl step { worldCounter := 2 }) _ at hlast
  rw [hstate] at hlast
  have hunwrapped := (assigns_iff_unwrapped rfl (by simp) lonelyJoin).mp hlast rfl
  exact ExtTreeMap.not_mem_empty (hunwrapped.1 rfl).1

end Gateway

end VastNC
