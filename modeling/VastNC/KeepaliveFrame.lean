import VastNC.OriginReplacement

/-! Which records of the gateway a `MATCHER_ALIVE` touches. -/

namespace VastNC

open Std (ExtTreeMap)

namespace Gateway

variable {g : Gateway} {id k : UInt64}

theorem getElem?_becomeOrigin (info : MatcherInfo) (hk : k ≠ id) :
    (g.becomeOrigin id info).matchers[k]? = g.matchers[k]? := by
  have hset := getElem?_setMatcher g id k { info with state := .origin }
  rw [if_neg (Ne.symm hk)] at hset
  rw [becomeOrigin]
  split <;> exact hset

theorem getElem?_keepAlive (accepts : UInt64 → Bool) (sender originId : UInt64) (info : MatcherInfo)
    (hk : k ≠ id) : (g.keepAlive accepts sender id originId info).matchers[k]? = g.matchers[k]? := by
  have hset := getElem?_setMatcher g id k info
  rw [if_neg (Ne.symm hk)] at hset
  rw [keepAlive]
  split
  · split
    · exact (getElem?_becomeOrigin info hk).trans hset
    · split
      · exact (getElem?_becomeOrigin info hk).trans hset
      · exact hset
  · split
    · rw [getElem?_setMatcher, if_neg (Ne.symm hk)]
      exact hset
    · exact hset

theorem getElem?_handleAliveIn (accepts : UInt64 → Bool) (now sender : UInt64) (worldId : UInt16) (addr : Addr)
    (originId : UInt64) (hk : k ≠ addr.hostId) :
    (g.handleAliveIn accepts now sender worldId addr originId).matchers[k]? = g.matchers[k]? := by
  rw [handleAliveIn]
  split
  · exact getElem?_keepAlive accepts sender originId _ hk
  · split
    · rfl
    · exact getElem?_keepAlive accepts sender originId _ hk

/-- The reply reads the record of the claimed origin, which makes one where there is none. -/
theorem getElem?_sendWorldInfo (target : UInt64) (worldId : UInt16) (originId : UInt64) :
    (g.sendWorldInfo target worldId originId).matchers[k]? =
      if k = originId ∧ originId ∉ g.matchers then some {} else g.matchers[k]? := by
  change (g.setMatcher originId _).matchers[k]? = _
  rw [getElem?_setMatcher]
  by_cases hk : originId = k
  · subst hk
    by_cases hmem : originId ∈ g.matchers <;> simp [hmem]
  · rw [if_neg hk, if_neg fun h => hk h.1.symm]

/-- The reply is sent where it is asked for and the world of the message, or of the claimed origin, is known. -/
theorem getElem?_handleAlive (accepts : UInt64 → Bool) (now sender : UInt64) (requestReply : Bool)
    (worldId : UInt16) (addr : Addr) (originId : UInt64) (hk : k ≠ addr.hostId) :
    (g.handleAlive accepts now sender requestReply worldId addr originId).matchers[k]? =
      if k = originId ∧ originId ∉ g.matchers ∧ requestReply ∧ worldId ≠ 0 then some {} else g.matchers[k]? := by
  rw [handleAlive]
  by_cases hw : worldId = 0
  · have hquiet : ¬ (k = originId ∧ originId ∉ g.matchers ∧ requestReply = true ∧ worldId ≠ 0) := fun h => h.2.2.2 hw
    rw [if_pos hw, if_neg hquiet]
    split
    · rfl
    · rename_i hknown
      rw [getElem?_handleAliveIn _ _ _ _ _ _ hk]
      split
      · rw [getElem?_sendWorldInfo, if_neg]
        -- a world is only read from a record that is there
        rintro ⟨-, hmem⟩
        exact hknown (by rw [ExtTreeMap.getElem?_eq_none hmem]; rfl)
      · rfl
  · rw [if_neg hw, if_neg hw, getElem?_handleAliveIn _ _ _ _ _ _ hk]
    cases requestReply with
    | false => simp
    | true => simp [getElem?_sendWorldInfo, hw]

/-- A keepalive of the matcher at `addr` leaves all other records alone, unless it asks for a reply in a
world and claims an origin that is not known. -/
theorem handleAlive_frame_iff (g : Gateway) (accepts : UInt64 → Bool) (now sender : UInt64) (requestReply : Bool)
    (worldId : UInt16) (addr : Addr) (originId : UInt64) :
    (∀ k, k ≠ addr.hostId →
      (g.handleAlive accepts now sender requestReply worldId addr originId).matchers[k]? = g.matchers[k]?) ↔
    ¬ (requestReply = true ∧ worldId ≠ 0 ∧ originId ≠ addr.hostId ∧ originId ∉ g.matchers) := by
  constructor
  · rintro hframe ⟨hreply, hw, hne, hmem⟩
    have hnew := hframe originId hne
    rw [getElem?_handleAlive _ _ _ _ _ _ _ hne, if_pos ⟨rfl, hmem, hreply, hw⟩,
      ExtTreeMap.getElem?_eq_none hmem] at hnew
    cases hnew
  · intro h k hk
    rw [getElem?_handleAlive _ _ _ _ _ _ _ hk, if_neg]
    rintro ⟨rfl, hmem, hreply, hw⟩
    exact h ⟨hreply, hw, hk, hmem⟩

/-- Matcher 3 claims the unknown origin 5: a record of 5 appears. -/
theorem handleAlive_makes_record :
    ¬ ∀ k, k ≠ (3 : UInt64) → (({} : Gateway).handleAlive (fun _ => true) 100 3 true 7 { hostId := 3 } 5).matchers[k]? =
      ({} : Gateway).matchers[k]? := by
  intro h
  exact absurd (h 5 (by decide)) (by decide)

end Gateway

end VastNC
