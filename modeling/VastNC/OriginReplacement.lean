import VastNC.Gateway
import VastNC.Lib.Walk

/-! Origin matchers: when the worlds of a matcher that has gone are given to another or given up,
so that every world is served by a matcher that is known. -/

namespace VastNC

open Std (ExtTreeMap)

namespace Gateway

variable {g g' : Gateway} {accepts : UInt64 → Bool}

theorem getElem?_setMatcher (g : Gateway) (id k : UInt64) (info : MatcherInfo) :
    (g.setMatcher id info).matchers[k]? = if id = k then some info else g.matchers[k]? := by
  rw [setMatcher, ExtTreeMap.getElem?_insert]
  exact if_congr Std.compare_eq_iff_eq rfl rfl

theorem setMatcher_cases {id k : UInt64} {info other : MatcherInfo}
    (h : (g.setMatcher id info).matchers[k]? = some other) :
    id = k ∧ info = other ∨ g.matchers[k]? = some other := by
  rw [getElem?_setMatcher] at h
  split at h
  · rename_i he
    exact .inl ⟨he, Option.some.inj h⟩
  · exact .inr h

theorem firstCandidate_some {k : UInt64} {info : MatcherInfo} (h : g.firstCandidate = some (k, info)) :
    g.matchers[k]? = some info ∧ info.state = .candidate := by
  have hs := List.find?_some h
  exact ⟨ExtTreeMap.mem_toList_iff_getElem?_eq_some.mp (List.mem_of_find?_eq_some h), beq_iff_eq.mp hs⟩

theorem firstCandidate_none (h : g.firstCandidate = none) {k : UInt64} {info : MatcherInfo}
    (hk : g.matchers[k]? = some info) : info.state ≠ .candidate := by
  have hf := List.find?_eq_none.mp h (k, info) (ExtTreeMap.mem_toList_iff_getElem?_eq_some.mpr hk)
  exact fun hs => hf (beq_iff_eq.mpr hs)

structure Marks (g g' : Gateway) : Prop where
  origins : g'.origins = g.origins
  requests : g'.requests = g.requests
  worldCounter : g'.worldCounter = g.worldCounter
  hung : g'.hung = g.hung
  matchers : ∀ k : UInt64, g'.matchers[k]? = g.matchers[k]? ∨ ∃ info : MatcherInfo, g.matchers[k]? = some info ∧
    info.state = .candidate ∧ g'.matchers[k]? = some { info with state := .promoting }

theorem Marks.refl (g : Gateway) : Marks g g := ⟨rfl, rfl, rfl, rfl, fun _ => .inl rfl⟩

theorem Marks.trans {g'' : Gateway} (h : Marks g g') (h' : Marks g' g'') : Marks g g'' := by
  refine ⟨h'.origins.trans h.origins, h'.requests.trans h.requests, h'.worldCounter.trans h.worldCounter,
    h'.hung.trans h.hung, fun k => ?_⟩
  rcases h'.matchers k with hk | ⟨info, hk, hs, hk'⟩
  · rw [hk]
    exact h.matchers k
  · rcases h.matchers k with he | ⟨old, -, -, he⟩
    · exact .inr ⟨info, he ▸ hk, hs, hk'⟩
    · rw [he] at hk
      rw [← Option.some.inj hk] at hs
      exact MatcherState.noConfusion hs

theorem marks_findCandidate {addr : Addr} (h : g.findCandidate = some (addr, g')) : Marks g g' ∧
    ∃ k info, g.firstCandidate = some (k, info) ∧ info.addr = addr ∧
      g' = (g.setMatcher k { info with state := .promoting }).call (.selected k) := by
  obtain ⟨⟨k, info⟩, hf, he⟩ := Option.map_eq_some_iff.mp h
  obtain ⟨rfl, rfl⟩ := Prod.mk.inj he
  obtain ⟨hk, hs⟩ := firstCandidate_some hf
  refine ⟨⟨rfl, rfl, rfl, rfl, fun j => ?_⟩, k, info, hf, rfl, rfl⟩
  rw [call, getElem?_setMatcher]
  split
  · rename_i hj
    exact .inr ⟨info, hj ▸ hk, hs, rfl⟩
  · exact .inl rfl

theorem findCandidate_none (h : g.findCandidate = none) : g.firstCandidate = none := Option.map_eq_none_iff.mp h

theorem Marks.call (h : Marks g g') (c : GatewayCall) : Marks g (g'.call c) :=
  ⟨h.origins, h.requests, h.worldCounter, h.hung, h.matchers⟩

theorem marks_promoteCandidate (accepts : UInt64 → Bool) (message : Addr → Bool → GatewayCall) (n : Nat) (g : Gateway) :
    Marks g (g.promoteCandidate accepts message n).1 := by
  induction n generalizing g with
  | zero => exact .refl g
  | succ n ih =>
    rw [promoteCandidate]
    split
    · exact .refl g
    · rename_i addr g' hf
      have hm := (marks_findCandidate hf).1.call (message addr (accepts addr.hostId))
      dsimp only
      split
      · exact hm
      · exact hm.trans (ih _)

theorem promoteCandidate_some {message : Addr → Bool → GatewayCall} {n : Nat} {addr : Addr}
    (h : (g.promoteCandidate accepts message n).2 = some addr) : ∃ (k : UInt64) (info : MatcherInfo), g.matchers[k]? = some info ∧
      info.state = .candidate ∧ info.addr = addr ∧
      (g.promoteCandidate accepts message n).1.matchers[k]? = some { info with state := .promoting } := by
  induction n generalizing g with
  | zero => cases h
  | succ n ih =>
    rw [promoteCandidate] at h ⊢
    split at h
    · cases h
    · rename_i found g' hf
      obtain ⟨hm, k, info, hfirst, rfl, rfl⟩ := marks_findCandidate hf
      dsimp only at h ⊢
      split at h
      · rename_i hok
        obtain ⟨hk, hs⟩ := firstCandidate_some hfirst
        rw [if_pos hok]
        refine ⟨k, info, hk, hs, Option.some.inj h, ?_⟩
        rw [call, call, getElem?_setMatcher, if_pos rfl]
      · rename_i hok
        rw [if_neg hok]
        obtain ⟨j, other, hj, hs, haddr, hj'⟩ := ih h
        refine ⟨j, other, ?_, hs, haddr, hj'⟩
        rw [call, call, getElem?_setMatcher] at hj
        split at hj
        · rw [← Option.some.inj hj] at hs
          exact MatcherState.noConfusion hs
        · exact hj

def candidates (g : Gateway) : Finset UInt64 :=
  ((g.matchers.toList.filter (fun e => e.2.state == .candidate)).map Prod.fst).toFinset

theorem mem_candidates {k : UInt64} : k ∈ g.candidates ↔ g.matchers[k]?.any (fun info => info.state == .candidate) := by
  rw [candidates, List.mem_toFinset, Tables.mem_filter_keys]

theorem card_candidates_le (g : Gateway) : g.candidates.card ≤ g.matchers.size := by
  refine (List.toFinset_card_le _).trans ?_
  rw [List.length_map, ← ExtTreeMap.length_toList]
  exact List.length_filter_le _ _

/-- As many turns as there are candidates leave none, unless one is accepted. -/
theorem promoteCandidate_none {message : Addr → Bool → GatewayCall} {n : Nat} (hn : g.candidates.card ≤ n)
    (h : (g.promoteCandidate accepts message n).2 = none) {k : UInt64} {info : MatcherInfo}
    (hk : (g.promoteCandidate accepts message n).1.matchers[k]? = some info) : info.state ≠ .candidate := by
  induction n generalizing g with
  | zero =>
    intro hs
    have hmem : k ∈ g.candidates := mem_candidates.mpr (by rw [show g.matchers[k]? = some info from hk]; exact beq_iff_eq.mpr hs)
    exact absurd (Finset.card_pos.mpr ⟨k, hmem⟩) (by omega)
  | succ n ih =>
    rw [promoteCandidate] at h hk
    split at h
    · rename_i hf
      rw [hf] at hk
      exact firstCandidate_none (findCandidate_none hf) hk
    · rename_i found g' hf
      obtain ⟨hm, j, other, hfirst, rfl, rfl⟩ := marks_findCandidate hf
      rw [hf] at hk
      dsimp only at h hk
      split at h
      · cases h
      · rename_i hok
        rw [if_neg hok] at hk
        refine ih ?_ h hk
        obtain ⟨hj, hs⟩ := firstCandidate_some hfirst
        have hmem : j ∈ g.candidates := mem_candidates.mpr (by rw [hj]; exact beq_iff_eq.mpr hs)
        have hsub : (((g.setMatcher j { other with state := .promoting }).call (.selected j)).call
            (message other.addr (accepts other.addr.hostId))).candidates ⊆ g.candidates.erase j := by
          intro i hi
          have hi := mem_candidates.mp hi
          rw [call, call, getElem?_setMatcher] at hi
          split at hi
          · cases hi
          · rename_i hne
            exact Finset.mem_erase.mpr ⟨fun he => hne he.symm, mem_candidates.mpr hi⟩
        have hcard := Finset.card_le_card hsub
        have hpos := Finset.card_pos.mpr ⟨j, hmem⟩
        rw [Finset.card_erase_of_mem hmem] at hcard
        omega

/-- Every origin is a matcher that is known, and a candidate has the address it announced. -/
structure Sound (g : Gateway) : Prop where
  registered : ∀ (w : UInt16) (k : UInt64), g.origins[w]? = some k → ∃ info, g.matchers[k]? = some info
  keyed : ∀ (k : UInt64) (info : MatcherInfo), g.matchers[k]? = some info → info.state = .candidate →
    info.addr.hostId = k
  running : g.hung = false

theorem Sound.frame (h : g.Sound) (hm : g'.matchers = g.matchers) (ho : g'.origins = g.origins)
    (hr : g'.hung = g.hung) : g'.Sound :=
  ⟨hm ▸ ho ▸ h.registered, hm ▸ h.keyed, hr.trans h.running⟩

theorem Sound.marks (h : g.Sound) (hm : Marks g g') : g'.Sound where
  registered w k hk := by
    obtain ⟨info, hi⟩ := h.registered w k (hm.origins ▸ hk)
    rcases hm.matchers k with he | ⟨old, -, -, he⟩
    · exact ⟨info, he.trans hi⟩
    · exact ⟨_, he⟩
  keyed k info hk hs := by
    rcases hm.matchers k with he | ⟨old, -, -, he⟩
    · exact h.keyed k info (he ▸ hk) hs
    · rw [he] at hk
      rw [← Option.some.inj hk] at hs
      exact MatcherState.noConfusion hs
  running := hm.hung.trans h.running

theorem Sound.setMatcher (h : g.Sound) (id : UInt64) (info : MatcherInfo)
    (hk : info.state = .candidate → info.addr.hostId = id) : (g.setMatcher id info).Sound where
  registered w k hw := by
    rw [getElem?_setMatcher]
    split
    · exact ⟨info, rfl⟩
    · exact h.registered w k hw
  keyed k other hi hs := by
    obtain ⟨rfl, rfl⟩ | hi := setMatcher_cases hi
    · exact hk hs
    · exact h.keyed k other hi hs
  running := h.running

theorem Sound.eraseOrigin (h : g.Sound) (w : UInt16) : Sound { g with origins := g.origins.erase w } where
  registered v j hv := by
    rw [ExtTreeMap.getElem?_erase] at hv
    split at hv
    · cases hv
    · exact h.registered v j hv
  keyed := h.keyed
  running := h.running

theorem Sound.replaceOrigin {w : UInt16} (h : Sound { g with origins := g.origins.erase w }) {k : UInt64}
    {info : MatcherInfo} (hk : g.matchers[k]? = some info) :
    Sound { g with origins := g.origins.insert w k } where
  registered v j hv := by
    rw [ExtTreeMap.getElem?_insert] at hv
    split at hv
    · exact ⟨info, Option.some.inj hv ▸ hk⟩
    · rename_i hne
      refine h.registered v j ?_
      rw [ExtTreeMap.getElem?_erase, if_neg hne]
      exact hv
  keyed := h.keyed
  running := h.running

theorem Sound.setOrigin (h : g.Sound) (w : UInt16) {k : UInt64} {info : MatcherInfo}
    (hk : g.matchers[k]? = some info) : Sound { g with origins := g.origins.insert w k } :=
  (h.eraseOrigin w).replaceOrigin hk

theorem Sound.call (h : g.Sound) (c : GatewayCall) : (g.call c).Sound := h.frame rfl rfl rfl

theorem Sound.storeRequestingClient (h : g.Sound) (w : UInt16) (client : UInt64) :
    (g.storeRequestingClient w client).Sound := h.frame rfl rfl rfl

def waiting (g : Gateway) (worldId : UInt16) : List UInt64 := g.requests[worldId]?.getD []

theorem mem_waiting (g : Gateway) (w : UInt16) (client : UInt64) :
    client ∈ (g.storeRequestingClient w client).waiting w := by
  rw [waiting, storeRequestingClient, ExtTreeMap.getElem?_insert_self, Option.getD_some]
  split
  · assumption
  · exact List.mem_append_right _ (List.mem_singleton_self client)

/-- What a `JOIN` for a world comes to: the address of its origin, a place among those who wait
for an origin in the making, or an attempt to make one that only fails when no candidate is left. -/
def Served (g g' : Gateway) (worldId : UInt16) (client : UInt64) : Prop :=
  match g.origins[worldId]? with
  | some k => ∃ info, g.matchers[k]? = some info ∧
    if info.state = .promoting then client ∈ g'.waiting worldId
    else g'.calls = g.calls ++ [.notifyMatcher [client] info.addr]
  | none => (∃ k info, g'.origins[worldId]? = some k ∧ g'.matchers[k]? = some info ∧ info.state = .promoting ∧
      client ∈ g'.waiting worldId) ∨
    ∀ (k : UInt64) (info : MatcherInfo), g'.matchers[k]? = some info → info.state ≠ .candidate

theorem Sound.createOrigin (h : g.Sound) (accepts : UInt64 → Bool) {w : UInt16} (hw : g.origins[w]? = none)
    (client : UInt64) : (g.createOrigin accepts w client).Sound ∧
      Served g (g.createOrigin accepts w client) w client := by
  rw [Gateway.createOrigin, Served, hw]
  dsimp only
  have hm := marks_promoteCandidate accepts (fun addr ok => .init w addr.hostId addr.hostId ok)
    g.matchers.size g
  have hs := h.marks hm
  split
  · rename_i addr hr
    obtain ⟨k, info, hk, hc, rfl, hk'⟩ := promoteCandidate_some hr
    have hkey := h.keyed k info hk hc
    rw [hkey]
    refine ⟨(hs.setOrigin w hk').storeRequestingClient w client, .inl ⟨k, _, ?_, hk', rfl, mem_waiting _ w client⟩⟩
    exact ExtTreeMap.getElem?_insert_self
  · rename_i hr
    exact ⟨hs, .inr fun k info hk => promoteCandidate_none (card_candidates_le g) hr hk⟩

theorem Sound.joinWorld (h : g.Sound) (accepts : UInt64 → Bool) (w : UInt16) (client : UInt64) :
    (g.joinWorld accepts w client).Sound ∧ Served g (g.joinWorld accepts w client) w client := by
  rw [Gateway.joinWorld]
  split
  · rename_i hw
    exact h.createOrigin accepts hw client
  · rename_i k hw
    obtain ⟨info, hk⟩ := h.registered w k hw
    rw [Served, hw, hk]
    dsimp only
    split
    · rename_i hp
      exact ⟨h.storeRequestingClient w client, info, hk, by rw [if_pos hp]; exact mem_waiting g w client⟩
    · rename_i hp
      exact ⟨h.call _, info, hk, by rw [if_neg hp]; rfl⟩

theorem Sound.sendWorldInfo (h : g.Sound) (target : UInt64) (worldId : UInt16) (originId : UInt64) :
    (g.sendWorldInfo target worldId originId).Sound := by
  refine (h.setMatcher originId _ fun hs => ?_).call _
  cases hk : g.matchers[originId]? with
  | none =>
    rw [hk] at hs
    exact MatcherState.noConfusion hs
  | some info =>
    rw [hk] at hs
    exact h.keyed originId info hk hs

theorem Sound.becomeOrigin (h : g.Sound) (id : UInt64) (info : MatcherInfo) : (g.becomeOrigin id info).Sound := by
  have hs := h.setMatcher id { info with state := .origin } MatcherState.noConfusion
  have hk : (g.setMatcher id { info with state := .origin }).matchers[id]? = some { info with state := .origin } := by
    rw [getElem?_setMatcher, if_pos rfl]
  rw [Gateway.becomeOrigin]
  generalize g.setMatcher id { info with state := .origin } = w at *
  split
  · exact (hs.setOrigin info.worldId hk).frame rfl rfl rfl
  · exact hs.setOrigin info.worldId hk

theorem Sound.keepAlive (h : g.Sound) (accepts : UInt64 → Bool) (sender originId : UInt64) {id : UInt64}
    {info : MatcherInfo} (hid : info.addr.hostId = id) : (g.keepAlive accepts sender id originId info).Sound := by
  have hs := h.setMatcher id info fun _ => hid
  rw [Gateway.keepAlive]
  generalize g.setMatcher id info = w at *
  split
  · split
    · exact hs.becomeOrigin id info
    · split
      · exact hs.becomeOrigin id info
      · exact hs.call _
  · split
    · exact hs.setMatcher id _ MatcherState.noConfusion
    · exact hs

theorem hostId_refreshed (a addr : Addr) : (if a.differs addr then addr else a).hostId = addr.hostId := by
  split
  · rfl
  · rename_i hd
    simp only [Addr.differs, Bool.or_eq_true, bne_iff_ne, not_or, not_not] at hd
    exact hd.1

theorem Sound.handleAlive (h : g.Sound) (accepts : UInt64 → Bool) (now sender : UInt64) (requestReply : Bool)
    (worldId : UInt16) (addr : Addr) (originId : UInt64) :
    (g.handleAlive accepts now sender requestReply worldId addr originId).Sound := by
  rw [Gateway.handleAlive]
  generalize (if worldId = 0 then (g.matchers[originId]?.getD {}).worldId else worldId) = w
  split
  · exact h
  · have hg : (if requestReply then g.sendWorldInfo sender w originId else g).Sound := by
      split
      · exact h.sendWorldInfo sender w originId
      · exact h
    generalize (if requestReply then g.sendWorldInfo sender w originId else g) = u at *
    rw [handleAliveIn]
    split
    · exact hg.keepAlive accepts sender originId (hostId_refreshed _ addr)
    · split
      · exact hg.call _
      · exact hg.keepAlive accepts sender originId (hostId_refreshed addr addr)

theorem freeWorld_eq_none {n : Nat} {w : UInt16} :
    g.freeWorld n w = none ↔ ∀ m < n, nextWorld^[m] w ∈ g.origins := by
  induction n generalizing w with
  | zero => simp [freeWorld]
  | succ n ih =>
    rw [freeWorld, Nat.forall_lt_succ_left']
    split
    · rename_i hw
      rw [ih]
      exact ⟨fun h => ⟨hw, h⟩, fun h => h.2⟩
    · rename_i hw
      exact iff_of_false (by simp) fun h => hw h.1

theorem search_endless {w : UInt16} (h : g.freeWorld 65536 w = none) (n : Nat) : nextWorld^[n] w ∈ g.origins := by
  have hinj : Function.Injective UInt16.toFin := fun a b hab => UInt16.toFin_inj.mp hab
  obtain ⟨m, hm, he⟩ := Walk.exists_iterate_lt hinj nextWorld w n
  exact he ▸ freeWorld_eq_none.mp h m hm

/-- A matcher that goes is registered for every world that it is the origin of. A `JOIN` that
leaves the world open finds a free one. -/
def Keeps (g : Gateway) : Event → Prop
  | .disconnect _ id => ∀ w : UInt16, g.origins[w]? = some id → ∃ info, g.matchers[id]? = some info ∧ info.worldId = w
  | .join _ worldId _ => worldId = 0 → g.freeWorld 65536 g.worldCounter ≠ none
  | _ => True

/-- A matcher that has gone is the origin of no world, and `JOIN` serves the client. -/
def Replaces (g : Gateway) (e : Event) : Prop :=
  match e with
  | .disconnect _ id => ∀ w : UInt16, (g.step e).origins[w]? ≠ some id
  | .join _ worldId client =>
    (g.step e).hung = false ∧ ∃ w, (worldId = 0 ∨ w = worldId) ∧ Served g (g.step e) w client
  | _ => True

theorem backup_some {w : UInt16} {k : UInt64} {info : MatcherInfo} (h : g.backup w = some (k, info)) :
    g.matchers[k]? = some info ∧ info.state = .active := by
  have hs := List.find?_some h
  exact ⟨ExtTreeMap.mem_toList_iff_getElem?_eq_some.mp (List.mem_of_find?_eq_some h),
    beq_iff_eq.mp (Bool.and_eq_true_iff.mp hs).2⟩

theorem isOriginMatcher_iff {id : UInt64} : g.isOriginMatcher id = true ↔
    ∃ info, g.matchers[id]? = some info ∧ g.origins[info.worldId]? = some id := by
  simp [isOriginMatcher, Option.any_eq_true]

/-- What becomes of the worlds: that of a registered origin goes to another matcher or is given up. -/
theorem origins_originDisconnected (accepts : UInt64 → Bool) {id : UInt64} {gone : MatcherInfo}
    (hk : g.matchers[id]? = some gone) (w : UInt16) :
    w = gone.worldId ∧ (g.originDisconnected accepts id).origins[w]? ≠ some id ∨
      w ≠ gone.worldId ∧ (g.originDisconnected accepts id).origins[w]? = g.origins[w]? := by
  rw [originDisconnected, hk]
  dsimp only
  split
  · rename_i k info hb
    obtain ⟨hk', -⟩ := backup_some hb
    rw [initMatcher, call, ExtTreeMap.getElem?_insert]
    split
    · rename_i hw
      refine .inl ⟨(Std.compare_eq_iff_eq.mp hw).symm, fun he => ?_⟩
      rw [Option.some.inj he, ExtTreeMap.getElem?_erase_self] at hk'
      cases hk'
    · rename_i hw
      exact .inr ⟨fun he => hw (Std.compare_eq_iff_eq.mpr he.symm), rfl⟩
  · rw [ExtTreeMap.getElem?_erase]
    split
    · rename_i hw
      exact .inl ⟨(Std.compare_eq_iff_eq.mp hw).symm, nofun⟩
    · rename_i hw
      exact .inr ⟨fun he => hw (Std.compare_eq_iff_eq.mpr he.symm), rfl⟩

theorem handleDisconnect_replaces (accepts : UInt64 → Bool) (id : UInt64) :
    (∀ w : UInt16, (g.handleDisconnect accepts id).origins[w]? ≠ some id) ↔ g.Keeps (.disconnect accepts id) := by
  rw [handleDisconnect, Keeps]
  split
  · rename_i ho
    obtain ⟨gone, hk, hw⟩ := isOriginMatcher_iff.mp ho
    constructor
    · intro h w hid
      rcases origins_originDisconnected accepts hk w with ⟨rfl, -⟩ | ⟨-, he⟩
      · exact ⟨gone, hk, rfl⟩
      · exact absurd (he.trans hid) (h w)
    · intro h w hid
      rcases origins_originDisconnected accepts hk w with ⟨-, hne⟩ | ⟨hne, he⟩
      · exact hne hid
      · obtain ⟨info, hk', rfl⟩ := h w (he ▸ hid)
        rw [hk] at hk'
        exact hne (Option.some.inj hk' ▸ rfl)
  · rename_i ho
    constructor
    · intro h w hid
      exact absurd hid (h w)
    · intro h w hid
      obtain ⟨info, hk, rfl⟩ := h w hid
      exact ho (isOriginMatcher_iff.mpr ⟨info, hk, hid⟩)

theorem Sound.eraseMatcher (h : g.Sound) {id : UInt64} (ho : ∀ w : UInt16, g.origins[w]? ≠ some id) :
    Sound { g with matchers := g.matchers.erase id } where
  registered w k hw := by
    obtain ⟨info, hk⟩ := h.registered w k hw
    have hne : ¬ compare id k = .eq := fun he => ho w (by rw [Std.compare_eq_iff_eq.mp he]; exact hw)
    refine ⟨info, ?_⟩
    rw [ExtTreeMap.getElem?_erase, if_neg hne]
    exact hk
  keyed k info hk hs := by
    rw [ExtTreeMap.getElem?_erase] at hk
    split at hk
    · cases hk
    · exact h.keyed k info hk hs
  running := h.running

theorem Sound.handleDisconnect (h : g.Sound) (accepts : UInt64 → Bool) {id : UInt64}
    (hk : g.Keeps (.disconnect accepts id)) : (g.handleDisconnect accepts id).Sound := by
  rw [Gateway.handleDisconnect]
  split
  · rename_i ho
    obtain ⟨gone, hgone, -⟩ := isOriginMatcher_iff.mp ho
    -- the world of `id` is given up before the record goes
    have hfree : Sound { g with matchers := g.matchers.erase id, origins := g.origins.erase gone.worldId } := by
      refine (h.eraseOrigin gone.worldId).eraseMatcher fun w hw => ?_
      rw [ExtTreeMap.getElem?_erase] at hw
      split at hw
      · cases hw
      · rename_i hne
        obtain ⟨info, hi, rfl⟩ := hk w hw
        rw [hgone] at hi
        exact hne (Std.compare_eq_iff_eq.mpr (congrArg MatcherInfo.worldId (Option.some.inj hi)))
    rw [originDisconnected, hgone]
    dsimp only
    split
    · rename_i k info hb
      have hset := hfree.setMatcher k { info with state := .origin } MatcherState.noConfusion
      have hget := (getElem?_setMatcher { g with matchers := g.matchers.erase id } k k
        { info with state := .origin }).trans (if_pos rfl)
      exact (Sound.replaceOrigin hset hget).call _
    · exact hfree
  · exact h

theorem Sound.handleCandidate (h : g.Sound) (now : UInt64) (candidate : Addr) :
    (g.handleCandidate now candidate).Sound := by
  rw [Gateway.handleCandidate]
  split
  · exact h
  · exact h.setMatcher candidate.hostId _ fun _ => rfl

theorem Sound.handleJoin (h : g.Sound) (accepts : UInt64 → Bool) (worldId : UInt16) (client : UInt64)
    (hk : g.Keeps (.join accepts worldId client)) : (g.handleJoin accepts worldId client).Sound ∧
      ∃ w, (worldId = 0 ∨ w = worldId) ∧ Served g (g.handleJoin accepts worldId client) w client := by
  rw [Gateway.handleJoin]
  split
  · rename_i hw
    obtain ⟨w, hfree⟩ := Option.ne_none_iff_exists'.mp (hk hw)
    rw [hfree]
    have hg : Sound { g with worldCounter := w + 1 } := h.frame rfl rfl rfl
    obtain ⟨hs, hserved⟩ := hg.joinWorld accepts w client
    exact ⟨hs, w, .inl hw, hserved⟩
  · obtain ⟨hs, hserved⟩ := h.joinWorld accepts worldId client
    exact ⟨hs, worldId, .inr rfl, hserved⟩

theorem Sound.step (h : g.Sound) (e : Event) (hk : g.Keeps e) : (g.step e).Sound := by
  rw [Gateway.step, if_neg (by rw [h.running]; exact Bool.false_ne_true)]
  cases e with
  | candidate now candidate => exact h.handleCandidate now candidate
  | join accepts worldId client => exact (h.handleJoin accepts worldId client hk).1
  | insert accepts joinPos origin => exact h.marks (marks_promoteCandidate accepts _ _ g)
  | alive accepts now sender requestReply worldId addr originId =>
    exact h.handleAlive accepts now sender requestReply worldId addr originId
  | disconnect accepts id => exact h.handleDisconnect accepts hk

theorem replaces_iff (h : g.Sound) (e : Event) : g.Replaces e ↔ g.Keeps e := by
  have hstep : g.step e = g.handle e := if_neg (by rw [h.running]; exact Bool.false_ne_true)
  cases e with
  | disconnect accepts id =>
    rw [Replaces, hstep]
    exact handleDisconnect_replaces accepts id
  | join accepts worldId client =>
    constructor
    · rintro ⟨hrun, -⟩ hw hnone
      rw [hstep, handle, handleJoin, if_pos hw, hnone] at hrun
      exact Bool.noConfusion hrun
    · intro hk
      obtain ⟨hs, hserved⟩ := h.handleJoin accepts worldId client hk
      rw [Replaces, hstep]
      exact ⟨hs.running, hserved⟩
  | _ => exact .rfl

theorem origin_replaced_iff (es : List Event) :
    StepRun.Along step Replaces {} es ↔ StepRun.Along step Keeps {} es :=
  StepRun.along_iff_along (fun _ e h hk => h.step e hk) (fun _ e h => replaces_iff h e)
    ⟨fun w k hk => by simp at hk, fun k info hk => by simp at hk, rfl⟩

def promotedRun : List Event := [.candidate 0 { hostId := 5 }, .join (fun _ => true) 7 9]

/-- A matcher that goes before its first keepalive stays the origin of its world. -/
theorem promoting_origin_kept :
    ¬ StepRun.Along step Replaces {} (promotedRun ++ [.disconnect (fun _ => true) 5]) :=
  fun h => h.last 7 (by decide)

end Gateway

end VastNC
