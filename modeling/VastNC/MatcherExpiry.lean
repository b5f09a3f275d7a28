import VastNC.OriginReplacement

/-! `removeExpiredMatchers`: which matchers the gateway drops for their silence, and what is left of
the worlds they were the origins of. -/

namespace VastNC

open Std (ExtTreeMap)

namespace Gateway

variable {g g' : Gateway} {accepts : UInt64 → Bool} {now expireTime : UInt64} {id k : UInt64} {v w : UInt16}
  {info : MatcherInfo}

/-- The test of `removeExpiredMatchers`, with the sum of `timestamp_t`. -/
def isExpired (now expireTime : UInt64) (info : MatcherInfo) : Bool :=
  info.state == .active && now > info.time + expireTime

def removeMatcher (accepts : UInt64 → Bool) (g : Gateway) (id : UInt64) : Gateway :=
  if g.isOriginMatcher id then g.originDisconnected accepts id
  else { g with matchers := g.matchers.erase id }

def removeList (g : Gateway) (now expireTime : UInt64) : List UInt64 :=
  (g.matchers.toList.filter (fun e => isExpired now expireTime e.2)).map Prod.fst

def removeExpiredMatchers (accepts : UInt64 → Bool) (now expireTime : UInt64) (g : Gateway) : Gateway :=
  (g.removeList now expireTime).foldl (removeMatcher accepts) g

/-- The record had a keepalive within the expiry period. -/
def Recent (now expireTime : UInt64) (info : MatcherInfo) : Prop :=
  now.toNat ≤ info.time.toNat + expireTime.toNat

/-- A sum that wraps makes a record expire too soon, never too late. -/
theorem recent_of_not_expired (hs : info.state = .active) (h : isExpired now expireTime info = false) :
    Recent now expireTime info := by
  simp only [isExpired, hs, beq_self_eq_true, Bool.true_and, decide_eq_false_iff_not, gt_iff_lt,
    UInt64.lt_iff_toNat_lt, UInt64.toNat_add, not_lt] at h
  have hlt := now.toNat_lt
  rw [Recent]
  omega

theorem active_of_expired (h : isExpired now expireTime info = true) : info.state = .active := by
  simp only [isExpired, Bool.and_eq_true, beq_iff_eq] at h
  exact h.1

theorem mem_removeList : k ∈ g.removeList now expireTime ↔
    ∃ info, g.matchers[k]? = some info ∧ isExpired now expireTime info = true := by
  rw [removeList, Tables.mem_filter_keys, Option.any_eq_true]

/-- A record is kept as it is, or it was the backup of a world and is its origin now. -/
def Kept (before after : Option MatcherInfo) : Prop :=
  after = before ∨ ∃ info, before = some info ∧ info.state = .active ∧ after = some { info with state := .origin }

theorem Kept.trans {a b c : Option MatcherInfo} (h : Kept a b) (h' : Kept b c) : Kept a c := by
  rcases h' with rfl | ⟨info, rfl, hs, rfl⟩
  · exact h
  · rcases h with rfl | ⟨old, rfl, -, he⟩
    · exact .inr ⟨info, rfl, hs, rfl⟩
    · rw [Option.some.inj he] at hs
      cases hs

theorem Kept.worldId {b : Option MatcherInfo} (h : Kept (some info) b) :
    ∃ info', b = some info' ∧ info'.worldId = info.worldId ∧ info'.time = info.time := by
  rcases h with rfl | ⟨old, he, -, rfl⟩
  · exact ⟨info, rfl, rfl, rfl⟩
  · rw [Option.some.inj he]
    exact ⟨_, rfl, rfl, rfl⟩

/-- The entry of the world names a matcher that is registered for another world or not at all. -/
def Stale (g : Gateway) (w : UInt16) (k : UInt64) : Prop :=
  g.origins[w]? = some k ∧ ∀ info, g.matchers[k]? = some info → info.worldId ≠ w

/-- What one turn of the removal does: to the records, and to the worlds. -/
structure Removes (g g' : Gateway) (id : UInt64) : Prop where
  gone : g'.matchers[id]? = none
  kept : ∀ k, k ≠ id → Kept g.matchers[k]? g'.matchers[k]?
  origins : ∀ w : UInt16, g'.origins[w]? = g.origins[w]? ∧ (g.origins[w]? = some id → ¬ ∃ info,
      g.matchers[id]? = some info ∧ info.worldId = w) ∨
    g.origins[w]? = some id ∧ (∃ info, g.matchers[id]? = some info ∧ info.worldId = w) ∧
      ∀ k, g'.origins[w]? = some k → k ≠ id ∧ ∃ info, g.matchers[k]? = some info ∧ info.worldId = w

theorem backup_worldId (h : g.backup w = some (k, info)) : info.worldId = w := by
  have hs := List.find?_some h
  exact beq_iff_eq.mp (Bool.and_eq_true_iff.mp hs).1

theorem removes_originDisconnected (accepts : UInt64 → Bool) (h : g.isOriginMatcher id = true) :
    Removes g (g.originDisconnected accepts id) id := by
  obtain ⟨gone, hid, horigin⟩ := isOriginMatcher_iff.mp h
  have hworld : ∀ w : UInt16, w ≠ gone.worldId → g.origins[w]? = some id → ¬ ∃ info,
      g.matchers[id]? = some info ∧ info.worldId = w := by
    rintro w hne - ⟨info, hinfo, rfl⟩
    rw [hid] at hinfo
    exact hne (Option.some.inj hinfo ▸ rfl)
  rw [originDisconnected, hid]
  dsimp only
  split
  · rename_i k info hb
    obtain ⟨hk, hactive⟩ := backup_some hb
    have hw := backup_worldId hb
    rw [ExtTreeMap.getElem?_erase] at hk
    split at hk
    · cases hk
    · rename_i hne
      have hkid : k ≠ id := fun he => hne (Std.compare_eq_iff_eq.mpr he.symm)
      refine ⟨?_, fun j hj => ?_, fun w => ?_⟩
      · change ((g.matchers.erase id).insert k _)[id]? = none
        rw [ExtTreeMap.getElem?_insert, if_neg fun he => hkid (Std.compare_eq_iff_eq.mp he),
          ExtTreeMap.getElem?_erase_self]
      · change Kept _ ((g.matchers.erase id).insert k _)[j]?
        rw [ExtTreeMap.getElem?_insert]
        split
        · rename_i he
          obtain rfl := Std.compare_eq_iff_eq.mp he
          exact .inr ⟨info, hk, hactive, rfl⟩
        · rw [ExtTreeMap.getElem?_erase, if_neg fun he => hj (Std.compare_eq_iff_eq.mp he).symm]
          exact .inl rfl
      · change (g.origins.insert gone.worldId k)[w]? = _ ∧ _ ∨ _ ∧ _ ∧ ∀ j, (g.origins.insert gone.worldId k)[w]? = some j → _
        rw [ExtTreeMap.getElem?_insert]
        split
        · rename_i he
          obtain rfl := Std.compare_eq_iff_eq.mp he
          refine .inr ⟨horigin, ⟨gone, hid, rfl⟩, fun j hj => ?_⟩
          obtain rfl := Option.some.inj hj
          exact ⟨hkid, info, hk, hw⟩
        · rename_i he
          exact .inl ⟨rfl, hworld w fun hc => he (Std.compare_eq_iff_eq.mpr hc.symm)⟩
  · refine ⟨ExtTreeMap.getElem?_erase_self, fun j hj => ?_, fun w => ?_⟩
    · change Kept _ (g.matchers.erase id)[j]?
      rw [ExtTreeMap.getElem?_erase, if_neg fun he => hj (Std.compare_eq_iff_eq.mp he).symm]
      exact .inl rfl
    · change (g.origins.erase gone.worldId)[w]? = _ ∧ _ ∨ _ ∧ _ ∧ ∀ j, (g.origins.erase gone.worldId)[w]? = some j → _
      rw [ExtTreeMap.getElem?_erase]
      split
      · rename_i he
        obtain rfl := Std.compare_eq_iff_eq.mp he
        exact .inr ⟨horigin, ⟨gone, hid, rfl⟩, fun j hj => by cases hj⟩
      · rename_i he
        exact .inl ⟨rfl, hworld w fun hc => he (Std.compare_eq_iff_eq.mpr hc.symm)⟩

theorem removes_removeMatcher (accepts : UInt64 → Bool) (g : Gateway) (id : UInt64) :
    Removes g (g.removeMatcher accepts id) id := by
  rw [removeMatcher]
  split
  · rename_i h
    exact removes_originDisconnected accepts h
  · rename_i h
    refine ⟨ExtTreeMap.getElem?_erase_self, fun j hj => ?_, fun w => .inl ⟨rfl, ?_⟩⟩
    · change Kept _ (g.matchers.erase id)[j]?
      rw [ExtTreeMap.getElem?_erase, if_neg fun he => hj (Std.compare_eq_iff_eq.mp he).symm]
      exact .inl rfl
    · rintro hw ⟨info, hid, rfl⟩
      exact h (isOriginMatcher_iff.mpr ⟨info, hid, hw⟩)

/-- Only a world that its origin is registered for changes hands, and the new origin is registered for it too. -/
theorem Removes.stale_iff (h : Removes g g' id) : Stale g' w k ↔ Stale g w k := by
  have hreg : (∀ info, g'.matchers[k]? = some info → info.worldId ≠ w) ↔
      k = id ∨ ∀ info, g.matchers[k]? = some info → info.worldId ≠ w := by
    by_cases hk : k = id
    · subst hk
      simp [h.gone]
    · rw [or_iff_right hk]
      rcases h.kept k hk with he | ⟨info, hinfo, -, hinfo'⟩
      · rw [he]
      · simp [hinfo, hinfo']
  rw [Stale, Stale, hreg]
  rcases h.origins w with ⟨he, hother⟩ | ⟨hid, ⟨info, hinfo, hw⟩, hnew⟩
  · rw [he]
    refine and_congr_right fun hk => or_iff_right_of_imp ?_
    rintro rfl info hinfo rfl
    exact hother hk ⟨info, hinfo, rfl⟩
  · constructor
    · rintro ⟨hk, hreg⟩
      obtain ⟨hne, info', hinfo', hw'⟩ := hnew k hk
      exact absurd hw' (hreg.resolve_left hne info' hinfo')
    · rintro ⟨hk, hreg⟩
      obtain rfl := Option.some.inj (hid.symm.trans hk)
      exact absurd hw (hreg info hinfo)

theorem stale_foldl (accepts : UInt64 → Bool) (l : List UInt64) (g : Gateway) :
    Stale (l.foldl (removeMatcher accepts) g) w k ↔ Stale g w k := by
  induction l generalizing g with
  | nil => exact .rfl
  | cons id l ih => exact (ih _).trans (removes_removeMatcher accepts g id).stale_iff

theorem kept_foldl (accepts : UInt64 → Bool) {l : List UInt64} (hk : k ∉ l) (g : Gateway) :
    Kept g.matchers[k]? (l.foldl (removeMatcher accepts) g).matchers[k]? := by
  induction l generalizing g with
  | nil => exact .inl rfl
  | cons id l ih =>
    rw [List.mem_cons, not_or] at hk
    exact ((removes_removeMatcher accepts g id).kept k hk.1).trans (ih hk.2 _)

theorem gone_foldl (accepts : UInt64 → Bool) {l : List UInt64} (hk : k ∈ l) (g : Gateway) :
    (l.foldl (removeMatcher accepts) g).matchers[k]? = none := by
  induction l generalizing g with
  | nil => simp at hk
  | cons id l ih =>
    rw [List.foldl_cons]
    by_cases hmem : k ∈ l
    · exact ih hmem _
    · obtain rfl := (List.mem_cons.mp hk).resolve_right hmem
      rcases kept_foldl accepts hmem (g.removeMatcher accepts k) with he | ⟨info, he, -⟩
      · rw [he]
        exact (removes_removeMatcher accepts g k).gone
      · rw [(removes_removeMatcher accepts g k).gone] at he
        cases he

/-- What the removal is for: who is left has been heard of, and nobody who was removed is an origin. -/
def Expires (accepts : UInt64 → Bool) (now expireTime : UInt64) (g : Gateway) : Prop :=
  (∀ (k : UInt64) info, (g.removeExpiredMatchers accepts now expireTime).matchers[k]? = some info →
    info.state ≠ .candidate → Recent now expireTime info) ∧
  ∀ (w : UInt16) k, (g.removeExpiredMatchers accepts now expireTime).origins[w]? = some k → k ∈ g.matchers →
    k ∈ (g.removeExpiredMatchers accepts now expireTime).matchers

/-- Only active matchers are silent, and those are registered for the worlds that they are the origins of. -/
structure OnlyActiveSilent (now expireTime : UInt64) (g : Gateway) : Prop where
  recent : ∀ (k : UInt64) info, g.matchers[k]? = some info → info.state ≠ .active → info.state ≠ .candidate →
    Recent now expireTime info
  registered : ∀ (w : UInt16) k info, g.origins[w]? = some k → g.matchers[k]? = some info →
    isExpired now expireTime info = true → info.worldId = w

theorem kept_removeExpired (accepts : UInt64 → Bool) (hk : k ∉ g.removeList now expireTime) :
    Kept g.matchers[k]? (g.removeExpiredMatchers accepts now expireTime).matchers[k]? :=
  kept_foldl accepts hk g

theorem gone_removeExpired (accepts : UInt64 → Bool) (hk : k ∈ g.removeList now expireTime) :
    (g.removeExpiredMatchers accepts now expireTime).matchers[k]? = none :=
  gone_foldl accepts hk g

theorem mem_removeList_of_gone (hinfo : g.matchers[k]? = some info)
    (hgone : (g.removeExpiredMatchers accepts now expireTime).matchers[k]? = none) : k ∈ g.removeList now expireTime := by
  by_contra hk
  have hkept := kept_removeExpired accepts hk
  rw [hinfo, hgone] at hkept
  obtain ⟨info', hinfo', -⟩ := hkept.worldId
  cases hinfo'

theorem recent_iff (accepts : UInt64 → Bool) :
    (∀ (k : UInt64) info, (g.removeExpiredMatchers accepts now expireTime).matchers[k]? = some info →
      info.state ≠ .candidate → Recent now expireTime info) ↔
    ∀ (k : UInt64) info, g.matchers[k]? = some info → info.state ≠ .active → info.state ≠ .candidate →
      Recent now expireTime info := by
  constructor
  · intro hrecent k info hinfo hactive hcandidate
    have hk : k ∉ g.removeList now expireTime := by
      intro hk
      obtain ⟨info', hinfo', hexpired⟩ := mem_removeList.mp hk
      rw [hinfo] at hinfo'
      exact hactive (Option.some.inj hinfo' ▸ active_of_expired hexpired)
    rcases kept_removeExpired accepts hk with he | ⟨info', hinfo', hactive', -⟩
    · exact hrecent k info (he.trans hinfo) hcandidate
    · rw [hinfo] at hinfo'
      exact absurd (Option.some.inj hinfo' ▸ hactive') hactive
  · intro hrecent k info hinfo hcandidate
    have hk : k ∉ g.removeList now expireTime := by
      intro hk
      rw [gone_removeExpired accepts hk] at hinfo
      cases hinfo
    have hheard : ∀ info, g.matchers[k]? = some info → info.state = .active → Recent now expireTime info := by
      intro info hinfo hactive
      refine recent_of_not_expired hactive (Bool.eq_false_iff.mpr fun he => ?_)
      exact hk (mem_removeList.mpr ⟨info, hinfo, he⟩)
    rcases kept_removeExpired accepts hk with he | ⟨old, hold, hactive, he⟩
    · rw [hinfo] at he
      by_cases hactive : info.state = .active
      · exact hheard info he.symm hactive
      · exact hrecent k info he.symm hactive hcandidate
    · rw [hinfo] at he
      rw [Option.some.inj he]
      exact hheard old hold hactive

theorem registered_iff (accepts : UInt64 → Bool) :
    (∀ (w : UInt16) k, (g.removeExpiredMatchers accepts now expireTime).origins[w]? = some k → k ∈ g.matchers →
      k ∈ (g.removeExpiredMatchers accepts now expireTime).matchers) ↔
    ∀ (w : UInt16) k info, g.origins[w]? = some k → g.matchers[k]? = some info →
      isExpired now expireTime info = true → info.worldId = w := by
  have hstale : ∀ w k, Stale (g.removeExpiredMatchers accepts now expireTime) w k ↔ Stale g w k :=
    fun w k => stale_foldl accepts _ g
  constructor
  · intro horigins w k info hw hinfo hexpired
    by_contra hne
    have hs : Stale g w k := by
      refine ⟨hw, fun info' hinfo' => ?_⟩
      rw [hinfo] at hinfo'
      exact Option.some.inj hinfo' ▸ hne
    have hmem := horigins w k ((hstale w k).mpr hs).1 (by rw [ExtTreeMap.mem_iff_isSome_getElem?, hinfo]; rfl)
    rw [ExtTreeMap.mem_iff_isSome_getElem?,
      gone_removeExpired accepts (mem_removeList.mpr ⟨info, hinfo, hexpired⟩)] at hmem
    cases hmem
  · intro hregistered w k hw hmem
    by_contra hnot
    have hgone := ExtTreeMap.getElem?_eq_none hnot
    have hs := (hstale w k).mp ⟨hw, fun info hinfo => by rw [hgone] at hinfo; cases hinfo⟩
    obtain ⟨info, hinfo⟩ : ∃ info, g.matchers[k]? = some info :=
      Option.isSome_iff_exists.mp (ExtTreeMap.mem_iff_isSome_getElem?.mp hmem)
    obtain ⟨info', hinfo', hexpired⟩ := mem_removeList.mp (mem_removeList_of_gone hinfo hgone)
    exact hs.2 info' hinfo' (hregistered w k info' hs.1 hinfo' hexpired)

theorem expires_iff (accepts : UInt64 → Bool) (now expireTime : UInt64) (g : Gateway) :
    g.Expires accepts now expireTime ↔ g.OnlyActiveSilent now expireTime := by
  rw [Expires, recent_iff, registered_iff]
  exact ⟨fun h => ⟨h.1, h.2⟩, fun h => ⟨h.recent, h.registered⟩⟩

/-- Candidate 5 becomes the origin of world 7 and falls silent. -/
def silentOrigin : Gateway :=
  [Event.candidate 0 { hostId := 5 }, .join (fun _ => true) 7 9,
    .alive (fun _ => true) 10 5 false 7 { hostId := 5 } 5].foldl step {}

theorem silent_origin_stays : ¬ silentOrigin.Expires (fun _ => true) 1000000 15000 := by
  intro h
  have hrecent := h.1 5 ⟨.origin, 7, { hostId := 5 }, 10⟩ (by decide) (by decide)
  revert hrecent
  rw [Recent]
  decide

end Gateway

end VastNC
