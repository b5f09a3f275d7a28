import VastNC.OriginReplacement

/-! The promotion of candidates: which send failures leave a host marked as being promoted that
was never told. -/

namespace VastNC

open Std (ExtTreeMap)

namespace Gateway

/-- Whether the host `k` was sent to since it was taken, after one more entry of the record. -/
def note (k : UInt64) (sent : Bool) : GatewayCall → Bool
  | .selected id => sent && id != k
  | .init _ _ target ok => sent || ok && target == k
  | .promote target _ _ ok => sent || ok && target == k
  | _ => sent

/-- A `MATCHER_INIT` or a `VSO_PROMOTE` for `k` was accepted since it last was a candidate. -/
def sentSince (k : UInt64) (calls : List GatewayCall) : Bool := calls.foldl (note k) false

variable {g g' : Gateway} {k : UInt64} {info : MatcherInfo}

theorem sentSince_call (k : UInt64) (g : Gateway) (c : GatewayCall) :
    sentSince k (g.call c).calls = note k (sentSince k g.calls) c := by
  rw [call, sentSince, List.foldl_append, ← sentSince, List.foldl_cons, List.foldl_nil]

/-- Every host marked as being promoted was told so. -/
def Told (g : Gateway) : Prop :=
  ∀ (k : UInt64) (info : MatcherInfo), g.matchers[k]? = some info → info.state = .promoting →
    sentSince k g.calls = true

def Lost (g : Gateway) (k : UInt64) : Prop :=
  (∃ info, g.matchers[k]? = some info ∧ info.state = .promoting) ∧ sentSince k g.calls = false

def Selectable (g : Gateway) (k : UInt64) : Prop := ∃ info, g.matchers[k]? = some info ∧ info.state = .candidate

def Keyed (g : Gateway) : Prop :=
  ∀ (k : UInt64) (info : MatcherInfo), g.matchers[k]? = some info → info.state = .candidate → info.addr.hostId = k

structure Tracked (g : Gateway) : Prop where
  keyed : g.Keyed
  told : g.Told

theorem Tracked.frame (h : g.Tracked) (hm : g'.matchers = g.matchers) (hc : g'.calls = g.calls) : g'.Tracked :=
  ⟨fun k info hk => h.keyed k info (hm ▸ hk), fun k info hk hs => hc ▸ h.told k info (hm ▸ hk) hs⟩

theorem Tracked.call (h : g.Tracked) {c : GatewayCall} (hc : ∀ k, note k true c = true) : (g.call c).Tracked where
  keyed := h.keyed
  told k info hk hs := by rw [sentSince_call, h.told k info hk hs, hc]

theorem Tracked.setMatcher (h : g.Tracked) {id : UInt64} (hk : info.state = .candidate → info.addr.hostId = id)
    (hp : info.state = .promoting → sentSince id g.calls = true) : (g.setMatcher id info).Tracked where
  keyed k other hi hs := by
    obtain ⟨rfl, rfl⟩ | hi := setMatcher_cases hi
    · exact hk hs
    · exact h.keyed k other hi hs
  told k other hi hs := by
    obtain ⟨rfl, rfl⟩ | hi := setMatcher_cases hi
    · exact hp hs
    · exact h.told k other hi hs

theorem Tracked.setOther (h : g.Tracked) (id : UInt64) (info : MatcherInfo) (hc : info.state ≠ .candidate) (hp : info.state ≠ .promoting) :
    (g.setMatcher id info).Tracked :=
  h.setMatcher (fun hs => absurd hs hc) fun hs => absurd hs hp

theorem Tracked.handleCandidate (h : g.Tracked) (now : UInt64) (candidate : Addr) :
    (g.handleCandidate now candidate).Tracked := by
  rw [Gateway.handleCandidate]
  split
  · exact h
  · exact h.setMatcher (fun _ => rfl) MatcherState.noConfusion

theorem Tracked.sendWorldInfo (h : g.Tracked) (target : UInt64) (worldId : UInt16) (originId : UInt64) :
    (g.sendWorldInfo target worldId originId).Tracked := by
  rw [Gateway.sendWorldInfo]
  cases hk : g.matchers[originId]? with
  | none => exact (h.setOther originId _ MatcherState.noConfusion MatcherState.noConfusion).call fun _ => rfl
  | some info => exact (h.setMatcher (h.keyed originId info hk) (h.told originId info hk)).call fun _ => rfl

theorem Tracked.becomeOrigin (h : g.Tracked) (id : UInt64) (info : MatcherInfo) : (g.becomeOrigin id info).Tracked := by
  have hs := h.setOther id { info with state := .origin } MatcherState.noConfusion MatcherState.noConfusion
  rw [Gateway.becomeOrigin]
  generalize g.setMatcher id { info with state := .origin } = w at *
  split
  · rename_i targets _
    have hcall : Tracked (w.call (.notifyMatcher targets info.addr)) := hs.call fun _ => rfl
    exact hcall.frame rfl rfl
  · exact hs.frame rfl rfl

theorem Tracked.keepAlive (h : g.Tracked) (accepts : UInt64 → Bool) (sender originId : UInt64) {id : UInt64}
    (hid : info.addr.hostId = id) (hp : info.state = .promoting → sentSince id g.calls = true) :
    (g.keepAlive accepts sender id originId info).Tracked := by
  have hs := h.setMatcher (fun _ => hid) hp
  rw [Gateway.keepAlive]
  generalize g.setMatcher id info = w at *
  split
  · split
    · exact hs.becomeOrigin id info
    · split
      · exact hs.becomeOrigin id info
      · exact hs.call fun _ => rfl
  · split
    · exact hs.setOther id _ MatcherState.noConfusion MatcherState.noConfusion
    · exact hs

theorem Tracked.handleAlive (h : g.Tracked) (accepts : UInt64 → Bool) (now sender : UInt64) (requestReply : Bool)
    (worldId : UInt16) (addr : Addr) (originId : UInt64) :
    (g.handleAlive accepts now sender requestReply worldId addr originId).Tracked := by
  rw [Gateway.handleAlive]
  generalize (if worldId = 0 then (g.matchers[originId]?.getD {}).worldId else worldId) = w
  split
  · exact h
  · have hg : (if requestReply then g.sendWorldInfo sender w originId else g).Tracked := by
      split
      · exact h.sendWorldInfo sender w originId
      · exact h
    generalize (if requestReply then g.sendWorldInfo sender w originId else g) = u at *
    rw [handleAliveIn]
    split
    · rename_i info hk
      exact hg.keepAlive accepts sender originId (hostId_refreshed _ addr) (hg.told addr.hostId info hk)
    · split
      · exact hg.call fun _ => rfl
      · exact hg.keepAlive accepts sender originId (hostId_refreshed addr addr) MatcherState.noConfusion

theorem Tracked.eraseMatcher (h : g.Tracked) (id : UInt64) : Tracked { g with matchers := g.matchers.erase id } where
  keyed k info hk := by
    rw [ExtTreeMap.getElem?_erase] at hk
    split at hk
    · cases hk
    · exact h.keyed k info hk
  told k info hk := by
    rw [ExtTreeMap.getElem?_erase] at hk
    split at hk
    · cases hk
    · exact h.told k info hk

theorem Tracked.handleDisconnect (h : g.Tracked) (accepts : UInt64 → Bool) (id : UInt64) :
    (g.handleDisconnect accepts id).Tracked := by
  rw [Gateway.handleDisconnect]
  split
  · rw [originDisconnected]
    split
    · exact h
    · have he := h.eraseMatcher id
      dsimp only
      split
      · rename_i k info _
        have hs := he.setOther k { info with state := .origin } MatcherState.noConfusion MatcherState.noConfusion
        rw [initMatcher]
        refine Tracked.call ?_ fun _ => rfl
        exact hs.frame rfl rfl
      · exact he.frame rfl rfl
  · exact h

variable {message : Addr → Bool → GatewayCall} {accepts : UInt64 → Bool}

def Promotes (message : Addr → Bool → GatewayCall) : Prop :=
  ∀ (addr : Addr) (ok : Bool) (k : UInt64) (sent : Bool),
    note k sent (message addr ok) = (sent || ok && addr.hostId == k)

def tried (g : Gateway) (k : UInt64) (info : MatcherInfo) (c : GatewayCall) : Gateway :=
  ((g.setMatcher k { info with state := .promoting }).call (.selected k)).call c

theorem getElem?_tried (g : Gateway) (k j : UInt64) (info : MatcherInfo) (c : GatewayCall) :
    (g.tried k info c).matchers[j]? = if k = j then some { info with state := .promoting } else g.matchers[j]? :=
  getElem?_setMatcher g k j _

theorem sentSince_tried (g : Gateway) (k j : UInt64) (info : MatcherInfo) (c : GatewayCall) :
    sentSince j (g.tried k info c).calls = note j (sentSince j g.calls && k != j) c := by
  rw [tried, sentSince_call, sentSince_call]
  rfl

theorem promoteCandidate_succ (n : Nat) (g : Gateway) : (g.promoteCandidate accepts message (n + 1)).1 =
    match g.firstCandidate with
    | none => g
    | some (k, info) =>
      if accepts info.addr.hostId then g.tried k info (message info.addr (accepts info.addr.hostId))
      else ((g.tried k info (message info.addr (accepts info.addr.hostId))).promoteCandidate accepts message n).1 := by
  rw [promoteCandidate, findCandidate]
  cases g.firstCandidate with
  | none => rfl
  | some e =>
    rw [Option.map_some]
    dsimp only
    split
    · rfl
    · rfl

theorem Keyed.tried (h : g.Keyed) (k : UInt64) (info : MatcherInfo) (c : GatewayCall) : (g.tried k info c).Keyed := by
  intro j other hj hs
  rw [getElem?_tried] at hj
  split at hj
  · rw [← Option.some.inj hj] at hs
    exact MatcherState.noConfusion hs
  · exact h j other hj hs

theorem Lost.promoteCandidate (accepts : UInt64 → Bool) (hm : Promotes message) (hg : g.Keyed) (hk : g.Lost k) (n : Nat) :
    (g.promoteCandidate accepts message n).1.Lost k := by
  induction n generalizing g with
  | zero => exact hk
  | succ n ih =>
    rw [promoteCandidate_succ]
    split
    · exact hk
    · rename_i j other hf
      obtain ⟨hj, hs⟩ := firstCandidate_some hf
      obtain ⟨⟨info, hinfo, hp⟩, hnot⟩ := hk
      have hne : j ≠ k := by
        rintro rfl
        rw [hj] at hinfo
        rw [Option.some.inj hinfo, hp] at hs
        exact MatcherState.noConfusion hs
      have hlost (c : GatewayCall) (hc : note k false c = false) : (g.tried j other c).Lost k := by
        refine ⟨⟨info, ?_, hp⟩, ?_⟩
        · rw [getElem?_tried, if_neg hne]
          exact hinfo
        · rw [sentSince_tried, hnot, Bool.false_and, hc]
      have hother : note k false (message other.addr (accepts other.addr.hostId)) = false := by
        rw [hm, hg j other hj hs, beq_false_of_ne hne, Bool.and_false, Bool.false_or]
      split
      · exact hlost _ hother
      · exact ih (hg.tried j other _) (hlost _ hother)

/-- `P` is exactly what it takes for every host to be told in `g`. -/
structure Decides (g : Gateway) (P : Prop) : Prop where
  needed : g.Told → P
  enough : P → g.Tracked

theorem Tracked.decides (h : g.Tracked) {P : Prop} (hp : P) : g.Decides P := ⟨fun _ => hp, fun _ => h⟩

theorem Decides.frame {P : Prop} (h : g.Decides P) (hm : g'.matchers = g.matchers) (hc : g'.calls = g.calls) :
    g'.Decides P :=
  ⟨fun ht => h.needed fun k info hk hs => hc ▸ ht k info (hm ▸ hk) hs, fun hp => (h.enough hp).frame hm hc⟩

theorem Decides.congr {P Q : Prop} (h : g.Decides P) (hPQ : P ↔ Q) : g.Decides Q := propext hPQ ▸ h

/-- A promotion loop leaves no host untold exactly if the message to the first candidate is accepted. -/
theorem Tracked.promoteCandidate (h : g.Tracked) (accepts : UInt64 → Bool) (hm : Promotes message) {n : Nat}
    (hn : g.candidates.card ≤ n) : (g.promoteCandidate accepts message n).1.Decides
      (∀ k info, g.firstCandidate = some (k, info) → accepts k = true) := by
  cases hf : g.firstCandidate with
  | none =>
    have hsame : (g.promoteCandidate accepts message n).1 = g := by
      cases n with
      | zero => rfl
      | succ n => rw [promoteCandidate_succ, hf]
    rw [hsame]
    exact h.decides nofun
  | some e =>
    obtain ⟨k, info⟩ := e
    obtain ⟨hk, hs⟩ := firstCandidate_some hf
    have hkey := h.keyed k info hk hs
    have hmem : k ∈ g.candidates := mem_candidates.mpr (by rw [hk]; exact beq_iff_eq.mpr hs)
    obtain ⟨n, rfl⟩ := Nat.exists_eq_add_of_le' (Nat.lt_of_lt_of_le (Finset.card_pos.mpr ⟨k, hmem⟩) hn)
    rw [promoteCandidate_succ, hf]
    dsimp only
    constructor
    · rintro ht _ _ ⟨⟩
      by_contra hno
      rw [hkey, if_neg hno] at ht
      have hlost : (g.tried k info (message info.addr (accepts k))).Lost k := by
        refine ⟨⟨_, (getElem?_tried g k k info _).trans (if_pos rfl), rfl⟩, ?_⟩
        rw [sentSince_tried, hm, Bool.eq_false_iff.mpr hno, bne_self_eq_false]
        simp
      obtain ⟨⟨other, hother, hp⟩, hnot⟩ := hlost.promoteCandidate accepts hm (h.keyed.tried k info _) n
      rw [ht k other hother hp] at hnot
      cases hnot
    · intro hok
      have hok := hok k info rfl
      rw [hkey, if_pos hok]
      refine ⟨h.keyed.tried k info _, fun j other hj hp => ?_⟩
      rw [sentSince_tried, hm, hok, hkey]
      rw [getElem?_tried] at hj
      split at hj
      · rename_i he
        simp [he]
      · rename_i hne
        rw [h.told j other hj hp, bne_iff_ne.mpr hne]
        rfl

/-- The messages that start a promotion loop, with the targets that can be sent to. -/
def promotes (g : Gateway) : Event → Option (UInt64 → Bool)
  | .join accepts worldId _ =>
    (if worldId = 0 then g.freeWorld 65536 g.worldCounter else some worldId).bind fun w =>
      if w ∈ g.origins then none else some accepts
  | .insert accepts _ _ => some accepts
  | _ => none

/-- The first candidate of every promotion loop can be sent to. -/
def Reaches (g : Gateway) (e : Event) : Prop :=
  g.hung = false → ∀ accepts, g.promotes e = some accepts →
    ∀ k info, g.firstCandidate = some (k, info) → accepts k = true

/-- No candidate is lost: those being promoted were told, and a host that was not told becomes a
candidate again by announcing itself. -/
def Recovers (g : Gateway) (e : Event) : Prop :=
  (g.step e).Told ∧ ∀ now candidate, e = .candidate now candidate → g.Lost candidate.hostId →
    (g.step e).Selectable candidate.hostId

theorem Tracked.joinWorld (h : g.Tracked) (accepts : UInt64 → Bool) (w : UInt16) (client : UInt64) :
    (g.joinWorld accepts w client).Decides
      (w ∉ g.origins → ∀ k info, g.firstCandidate = some (k, info) → accepts k = true) := by
  rw [Gateway.joinWorld]
  split
  · rename_i hw
    have hnew : w ∉ g.origins := by rw [ExtTreeMap.mem_iff_isSome_getElem?, hw]; exact Bool.false_ne_true
    have hm : Promotes fun addr ok => .init w addr.hostId addr.hostId ok := fun _ _ _ _ => rfl
    refine Decides.congr ?_ (forall_prop_of_true hnew).symm
    have hloop := h.promoteCandidate accepts hm (card_candidates_le g)
    rw [createOrigin]
    split
    · exact hloop.frame rfl rfl
    · exact hloop
  · rename_i id hw
    have hknown : w ∈ g.origins := by rw [ExtTreeMap.mem_iff_isSome_getElem?, hw]; rfl
    refine Tracked.decides ?_ fun hnew => absurd hknown hnew
    split
    · split
      · exact h.frame rfl rfl
      · exact h
    · split
      · exact h.frame rfl rfl
      · exact h.call fun _ => rfl

theorem Tracked.handleJoin (h : g.Tracked) (accepts : UInt64 → Bool) (worldId : UInt16) (client : UInt64) :
    (g.handleJoin accepts worldId client).Decides (∀ accepts', g.promotes (.join accepts worldId client) = some accepts' →
      ∀ k info, g.firstCandidate = some (k, info) → accepts' k = true) := by
  have hcond (w : UInt16) : (w ∉ g.origins → ∀ k info, g.firstCandidate = some (k, info) → accepts k = true) ↔
      ∀ accepts', (if w ∈ g.origins then none else some accepts) = some accepts' →
        ∀ k info, g.firstCandidate = some (k, info) → accepts' k = true := by
    by_cases hw : w ∈ g.origins
    · simp [hw]
    · simp [hw]
  rw [Gateway.handleJoin, promotes]
  split
  · cases g.freeWorld 65536 g.worldCounter with
    | none =>
      have hg : Tracked { g with hung := true } := h.frame rfl rfl
      exact hg.decides fun accepts' he => absurd he (by simp)
    | some w =>
      have hg : Tracked { g with worldCounter := w + 1 } := h.frame rfl rfl
      exact (hg.joinWorld accepts w client).congr (hcond w)
  · exact (h.joinWorld accepts worldId client).congr (hcond worldId)

theorem Tracked.step (h : g.Tracked) (e : Event) : (g.step e).Decides (g.Reaches e) := by
  rw [Gateway.step, Reaches]
  split
  · rename_i hh
    exact h.decides fun hr => absurd (hr.symm.trans hh) Bool.false_ne_true
  · rename_i hh
    refine Decides.congr ?_ (forall_prop_of_true (Bool.eq_false_iff.mpr hh)).symm
    cases e with
    | candidate now candidate => exact (h.handleCandidate now candidate).decides (fun a hp => absurd hp.symm (Option.some_ne_none a))
    | alive accepts now sender requestReply worldId addr originId =>
      exact (h.handleAlive accepts now sender requestReply worldId addr originId).decides (fun a hp => absurd hp.symm (Option.some_ne_none a))
    | disconnect accepts id => exact (h.handleDisconnect accepts id).decides (fun a hp => absurd hp.symm (Option.some_ne_none a))
    | join accepts worldId client => exact h.handleJoin accepts worldId client
    | insert accepts joinPos origin =>
      refine (h.promoteCandidate accepts (fun _ _ _ _ => rfl) (card_candidates_le g)).congr ?_
      simp [promotes]

theorem Tracked.not_lost (h : g.Tracked) (k : UInt64) : ¬ g.Lost k := by
  rintro ⟨⟨info, hk, hp⟩, hnot⟩
  rw [h.told k info hk hp] at hnot
  cases hnot

theorem Tracked.recovers_iff (h : g.Tracked) (e : Event) : g.Recovers e ↔ g.Reaches e := by
  constructor
  · intro hr
    exact (h.step e).needed hr.1
  · intro hr
    refine ⟨((h.step e).enough hr).told, fun now candidate _ hl => ?_⟩
    exact absurd hl (h.not_lost candidate.hostId)

theorem not_selectable_of_lost (now : UInt64) (candidate : Addr) (h : g.Lost candidate.hostId) :
    ¬ (g.step (.candidate now candidate)).Selectable candidate.hostId := by
  obtain ⟨⟨info, hk, hp⟩, -⟩ := h
  have hknown : candidate.hostId ∈ g.matchers := by rw [ExtTreeMap.mem_iff_isSome_getElem?, hk]; rfl
  have hsame : g.step (.candidate now candidate) = g := by
    rw [Gateway.step, handle, Gateway.handleCandidate, if_pos hknown, ite_self]
  rintro ⟨other, hother, hs⟩
  rw [hsame, hk] at hother
  rw [← Option.some.inj hother, hp] at hs
  exact MatcherState.noConfusion hs

theorem candidates_recovered_iff (es : List Event) :
    (StepRun.Along step Recovers {} es ↔ StepRun.Along step Reaches {} es) ∧
      ∀ (now : UInt64) (candidate : Addr), (es.foldl step {}).Lost candidate.hostId →
        ¬ ((es.foldl step {}).step (.candidate now candidate)).Selectable candidate.hostId := by
  constructor
  · exact StepRun.along_iff_along (fun g e (h : Tracked g) hr => (h.step e).enough hr)
      (fun g e (h : Tracked g) => h.recovers_iff e) ⟨fun k info hk => by simp at hk, fun k info hk => by simp at hk⟩
  · exact fun now candidate h => not_selectable_of_lost now candidate h

/-- Host 5 announces itself and cannot be sent to when it is to become the origin of world 7. -/
def unreachedRun : List Event := [.candidate 0 { hostId := 5 }, .join (fun _ => false) 7 9]

/-- It is lost, and announcing itself again does not help. -/
theorem unreached_candidate_lost : ¬ StepRun.Along step Recovers {} unreachedRun ∧
    (unreachedRun.foldl step {}).Lost 5 ∧
    ¬ ((unreachedRun.foldl step {}).step (.candidate 1 { hostId := 5 })).Selectable 5 := by
  have hlost : (unreachedRun.foldl step {}).Lost 5 :=
    ⟨⟨{ state := .promoting, addr := { hostId := 5 } }, by decide, rfl⟩, by decide⟩
  refine ⟨fun h => ?_, hlost, not_selectable_of_lost 1 { hostId := 5 } hlost⟩
  obtain ⟨⟨info, hk, hp⟩, hnot⟩ := hlost
  have htold := h.2.1.1 5 info hk hp
  exact Bool.false_ne_true (hnot.symm.trans htold)

end Gateway

end VastNC
