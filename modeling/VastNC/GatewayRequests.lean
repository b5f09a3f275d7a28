import VastNC.MatcherExpiry

/-! The requests of clients at the gateway: each that is taken is answered once or waits for the
origin of its world. -/

namespace VastNC

open Std (ExtTreeMap)

namespace Gateway

/-- What the gateway does: the handling of a message or the removal of silent matchers. -/
inductive Turn where
  | message (e : Event)
  | expire (accepts : UInt64 → Bool) (now expireTime : UInt64)

def turn (g : Gateway) : Turn → Gateway
  | .message e => g.step e
  | .expire accepts now expireTime => if g.hung then g else g.removeExpiredMatchers accepts now expireTime

def notice : GatewayCall → Option (List UInt64 × Addr)
  | .notifyMatcher targets addr => some (targets, addr)
  | _ => none

def notices (g : Gateway) : List (List UInt64 × Addr) := g.calls.filterMap notice

/-- How often the client is told the matcher of the world, where `worlds` are those that the notices are
about. -/
def answers (g : Gateway) (worlds : List UInt16) (w : UInt16) (client : UInt64) : Nat :=
  ((worlds.zip g.notices).map fun e => if e.1 = w then e.2.1.count client else 0).sum

def waits (g : Gateway) (w : UInt16) (client : UInt64) : Nat := (g.waiting w).count client

/-- Whether a `JOIN` for the world is answered or makes the client wait, which one that waits already
does not do again. -/
def takes (accepts : UInt64 → Bool) (g : Gateway) (worldId : UInt16) (client : UInt64) : Bool :=
  match g.origins[worldId]? with
  | none =>
    g.matchers.toList.any (fun e => e.2.state == .candidate && accepts e.2.addr.hostId) &&
      !(g.waiting worldId).contains client
  | some id =>
    g.matchers[id]?.any fun info => info.state != .promoting || !(g.waiting worldId).contains client

/-- The world that a `JOIN` is for, as long as one is free. -/
def worldOf (g : Gateway) (worldId : UInt16) : Option UInt16 :=
  if worldId = 0 then g.freeWorld 65536 g.worldCounter else some worldId

def takenIn (accepts : UInt64 → Bool) (g : Gateway) (worldId : UInt16) (client : UInt64) :
    Option (UInt16 × UInt64) := if g.takes accepts worldId client then some (worldId, client) else none

/-- The request that is taken in a turn, if there is one. -/
def request (g : Gateway) : Turn → Option (UInt16 × UInt64)
  | .message (.join accepts worldId client) =>
    if g.hung then none else (g.worldOf worldId).bind fun w => g.takenIn accepts w client
  | _ => none

def taken : Gateway → List Turn → List (UInt16 × UInt64)
  | _, [] => []
  | g, t :: ts => (g.request t).toList ++ taken (g.turn t) ts

/-- The address is that of the matcher that serves the world. -/
def HasOrigin (g : Gateway) (worldId : UInt16) (addr : Addr) : Prop :=
  ∃ id info, g.origins[worldId]? = some id ∧ g.matchers[id]? = some info ∧ info.state ≠ .promoting ∧
    info.addr = addr

/-- What a turn in which `request` is taken does for the clients. -/
inductive Does (g g' : Gateway) : Option (UInt16 × UInt64) → Prop
  | quiet (waiting : g'.waiting = g.waiting) (notices : g'.notices = g.notices) : Does g g' none
  | answered (w : UInt16) (client : UInt64) (addr : Addr) (waiting : g'.waiting = g.waiting)
      (notices : g'.notices = g.notices ++ [([client], addr)]) (origin : g'.HasOrigin w addr) :
      Does g g' (some (w, client))
  | listed (w : UInt16) (client : UInt64) (notices : g'.notices = g.notices)
      (waiting : g'.waiting = Function.update g.waiting w (g.waiting w ++ [client])) :
      Does g g' (some (w, client))
  | announced (w : UInt16) (addr : Addr) (waiting : g'.waiting = Function.update g.waiting w [])
      (notices : g'.notices = g.notices ++ [(g.waiting w, addr)]) (origin : g'.HasOrigin w addr) :
      Does g g' none

structure Quiet (g g' : Gateway) : Prop where
  waiting : g'.waiting = g.waiting
  notices : g'.notices = g.notices

variable {g g' : Gateway} {accepts : UInt64 → Bool} {request : Option (UInt16 × UInt64)}

namespace Quiet

theorem refl (g : Gateway) : Quiet g g := ⟨rfl, rfl⟩

theorem trans {g'' : Gateway} (h : Quiet g g') (h' : Quiet g' g'') : Quiet g g'' :=
  ⟨h'.waiting.trans h.waiting, h'.notices.trans h.notices⟩

theorem does (h : Quiet g g') : Does g g' none := .quiet h.waiting h.notices

theorem call (h : Quiet g g') {c : GatewayCall} (hc : notice c = none) : Quiet g (g'.call c) := by
  refine ⟨h.waiting, Eq.trans ?_ h.notices⟩
  rw [Gateway.notices, Gateway.call, List.filterMap_append, List.filterMap_cons_none hc, List.filterMap_nil,
    List.append_nil]
  rfl

theorem initMatcher (h : Quiet g g') (accepts : UInt64 → Bool) (w : UInt16) (originId target : UInt64) :
    Quiet g (g'.initMatcher accepts w originId target) := h.call rfl

theorem promoteCandidate {message : Addr → Bool → GatewayCall}
    (hm : ∀ addr ok, notice (message addr ok) = none) (n : Nat) (g : Gateway) :
    Quiet g (g.promoteCandidate accepts message n).1 := by
  induction n generalizing g with
  | zero => exact refl g
  | succ n ih =>
    rw [Gateway.promoteCandidate]
    split
    · exact refl g
    · rename_i addr g' hf
      obtain ⟨-, k, info, -, -, rfl⟩ := marks_findCandidate hf
      have hmarked : Quiet g (g.setMatcher k { info with state := .promoting }) := ⟨rfl, rfl⟩
      have htried := (hmarked.call (c := .selected k) rfl).call (hm addr (accepts addr.hostId))
      dsimp only
      split
      · exact htried
      · exact htried.trans (ih _)

theorem originDisconnected (accepts : UInt64 → Bool) (g : Gateway) (id : UInt64) :
    Quiet g (g.originDisconnected accepts id) := by
  rw [Gateway.originDisconnected]
  split
  · exact refl g
  · dsimp only
    split
    · rw [Gateway.initMatcher]
      refine call ?_ rfl
      exact ⟨rfl, rfl⟩
    · exact ⟨rfl, rfl⟩

theorem removeExpiredMatchers (accepts : UInt64 → Bool) (now expireTime : UInt64) (g : Gateway) :
    Quiet g (g.removeExpiredMatchers accepts now expireTime) := by
  rw [Gateway.removeExpiredMatchers]
  generalize g.removeList now expireTime = ids
  induction ids generalizing g with
  | nil => exact refl g
  | cons id ids ih =>
    refine trans ?_ (ih (g.removeMatcher accepts id))
    rw [removeMatcher]
    split
    · exact originDisconnected accepts g id
    · exact ⟨rfl, rfl⟩

theorem sendWorldInfo (g : Gateway) (target : UInt64) (w : UInt16) (originId : UInt64) :
    Quiet g (g.sendWorldInfo target w originId) := by
  have hset : Quiet g (g.setMatcher originId (g.matchers[originId]?.getD {})) := ⟨rfl, rfl⟩
  exact hset.call rfl

/-- What follows where nothing was done for the clients. -/
theorem andThen {g'' : Gateway} (h : Quiet g g') (hd : Does g' g'' request) : Does g g'' request := by
  cases hd with
  | quiet hw hn => exact .quiet (hw.trans h.waiting) (hn.trans h.notices)
  | answered w client addr hw hn ho => exact .answered w client addr (hw.trans h.waiting) (h.notices ▸ hn) ho
  | listed w client hn hw => exact .listed w client (hn.trans h.notices) (h.waiting ▸ hw)
  | announced w addr hw hn ho => exact .announced w addr (h.waiting ▸ hw) (h.notices ▸ h.waiting ▸ hn) ho

end Quiet

theorem waiting_of_insert (g : Gateway) (w : UInt16) (list : List UInt64) :
    ({ g with requests := g.requests.insert w list } : Gateway).waiting =
      Function.update g.waiting w list := by
  funext v
  rw [waiting, ExtTreeMap.getElem?_insert, Function.update_apply]
  by_cases h : v = w
  · rw [if_pos h, if_pos (Std.compare_eq_iff_eq.mpr h.symm), Option.getD_some]
  · rw [if_neg h, if_neg (fun he => h (Std.compare_eq_iff_eq.mp he).symm)]
    rfl

theorem waiting_of_erase (g : Gateway) (w : UInt16) :
    ({ g with requests := g.requests.erase w } : Gateway).waiting = Function.update g.waiting w [] := by
  funext v
  rw [waiting, ExtTreeMap.getElem?_erase, Function.update_apply]
  by_cases h : v = w
  · rw [if_pos h, if_pos (Std.compare_eq_iff_eq.mpr h.symm), Option.getD_none]
  · rw [if_neg h, if_neg (fun he => h (Std.compare_eq_iff_eq.mp he).symm)]
    rfl

theorem does_storeRequestingClient (g : Gateway) (w : UInt16) (client : UInt64) :
    Does g (g.storeRequestingClient w client) (if client ∈ g.waiting w then none else some (w, client)) := by
  have hw := waiting_of_insert g w (if client ∈ g.waiting w then g.waiting w else g.waiting w ++ [client])
  change (g.storeRequestingClient w client).waiting = _ at hw
  by_cases h : client ∈ g.waiting w
  · rw [if_pos h] at hw ⊢
    rw [Function.update_eq_self] at hw
    exact .quiet hw rfl
  · rw [if_neg h] at hw ⊢
    exact .listed w client rfl hw

theorem does_becomeOrigin (g : Gateway) (id : UInt64) (info : MatcherInfo) :
    Does g (g.becomeOrigin id info) none := by
  have hmatcher : (g.setMatcher id { info with state := .origin }).matchers[id]? =
      some { info with state := .origin } := (getElem?_setMatcher g id id _).trans (if_pos rfl)
  rw [becomeOrigin]
  change Does g _ none
  cases hr : g.requests[info.worldId]? with
  | none =>
    have hreq : (g.setMatcher id { info with state := .origin }).requests[info.worldId]? = none := hr
    rw [hreq]
    exact .quiet rfl rfl
  | some targets =>
    have hreq : (g.setMatcher id { info with state := .origin }).requests[info.worldId]? = some targets := hr
    have hwaiting : g.waiting info.worldId = targets := by rw [waiting, hr, Option.getD_some]
    rw [hreq]
    refine .announced info.worldId info.addr (waiting_of_erase g info.worldId) ?_ ?_
    · rw [hwaiting]
      exact List.filterMap_append
    · exact ⟨id, _, ExtTreeMap.getElem?_insert_self, hmatcher, MatcherState.noConfusion, rfl⟩

theorem does_handleAlive (accepts : UInt64 → Bool) (now : UInt64) (g : Gateway) (sender : UInt64)
    (requestReply : Bool) (worldId : UInt16) (addr : Addr) (originId : UInt64) :
    Does g (g.handleAlive accepts now sender requestReply worldId addr originId) none := by
  have hkeep (g : Gateway) (id : UInt64) (info : MatcherInfo) :
      Does g (g.keepAlive accepts sender id originId info) none := by
    have hset : Quiet g (g.setMatcher id info) := ⟨rfl, rfl⟩
    rw [keepAlive]
    generalize g.setMatcher id info = u at hset ⊢
    split
    · split
      · exact hset.andThen (does_becomeOrigin u id info)
      · split
        · exact hset.andThen (does_becomeOrigin u id info)
        · exact (hset.initMatcher accepts _ _ _).does
    · split
      · refine (hset.trans ?_).does
        exact ⟨rfl, rfl⟩
      · exact hset.does
  rw [handleAlive]
  generalize (if worldId = 0 then (g.matchers[originId]?.getD {}).worldId else worldId) = w
  split
  · exact (Quiet.refl g).does
  · have hinfo : Quiet g (if requestReply then g.sendWorldInfo sender w originId else g) := by
      split
      · exact Quiet.sendWorldInfo g sender w originId
      · exact Quiet.refl g
    generalize (if requestReply then g.sendWorldInfo sender w originId else g) = u at hinfo ⊢
    refine hinfo.andThen ?_
    rw [handleAliveIn]
    dsimp only
    split
    · exact hkeep _ _ _
    · split
      · exact (Quiet.initMatcher (Quiet.refl _) accepts _ _ _).does
      · exact hkeep _ _ _

theorem card_candidates_marked {j : UInt64} {info : MatcherInfo} {n : Nat} {c c' : GatewayCall}
    (hj : g.matchers[j]? = some info) (hs : info.state = .candidate) (hn : g.candidates.card ≤ n + 1) :
    (((g.setMatcher j { info with state := .promoting }).call c).call c').candidates.card ≤ n := by
  have hmem : j ∈ g.candidates := mem_candidates.mpr (by rw [hj]; exact beq_iff_eq.mpr hs)
  have hsub : (((g.setMatcher j { info with state := .promoting }).call c).call c').candidates ⊆
      g.candidates.erase j := by
    intro i hi
    have hi := mem_candidates.mp hi
    rw [call, call, getElem?_setMatcher] at hi
    split at hi
    · cases hi
    · rename_i hne
      exact Finset.mem_erase.mpr ⟨fun he => hne he.symm, mem_candidates.mpr hi⟩
  have hcard := Finset.card_le_card hsub
  rw [Finset.card_erase_of_mem hmem] at hcard
  omega

theorem any_candidate_iff :
    (g.matchers.toList.any fun e => e.2.state == .candidate && accepts e.2.addr.hostId) = true ↔
      ∃ (k : UInt64) (info : MatcherInfo), g.matchers[k]? = some info ∧ info.state = .candidate ∧
        accepts info.addr.hostId = true := by
  rw [List.any_eq_true]
  constructor
  · rintro ⟨⟨k, info⟩, he, h⟩
    rw [Bool.and_eq_true, beq_iff_eq] at h
    exact ⟨k, info, ExtTreeMap.mem_toList_iff_getElem?_eq_some.mp he, h.1, h.2⟩
  · rintro ⟨k, info, hk, hs, ha⟩
    exact ⟨(k, info), ExtTreeMap.mem_toList_iff_getElem?_eq_some.mpr hk, by simp [hs, ha]⟩

/-- The loop finds a matcher exactly if one of the candidates can be sent to. -/
theorem isSome_promoteCandidate {message : Addr → Bool → GatewayCall} {n : Nat} (hn : g.candidates.card ≤ n) :
    (g.promoteCandidate accepts message n).2.isSome =
      g.matchers.toList.any fun e => e.2.state == .candidate && accepts e.2.addr.hostId := by
  rw [Bool.eq_iff_iff, any_candidate_iff]
  induction n generalizing g with
  | zero =>
    refine ⟨fun h => absurd h Bool.false_ne_true, fun hex => ?_⟩
    obtain ⟨k, info, hk, hs, -⟩ := hex
    have hmem : k ∈ g.candidates := mem_candidates.mpr (by rw [hk]; exact beq_iff_eq.mpr hs)
    exact absurd (Finset.card_pos.mpr ⟨k, hmem⟩) (by omega)
  | succ n ih =>
    rw [promoteCandidate]
    split
    · rename_i hf
      refine ⟨fun h => absurd h Bool.false_ne_true, fun hex => ?_⟩
      obtain ⟨k, info, hk, hs, -⟩ := hex
      exact absurd hs (firstCandidate_none (findCandidate_none hf) hk)
    · rename_i addr g' hf
      obtain ⟨-, j, first, hfirst, rfl, rfl⟩ := marks_findCandidate hf
      obtain ⟨hj, hs⟩ := firstCandidate_some hfirst
      dsimp only
      by_cases ha : accepts first.addr.hostId = true
      · rw [if_pos ha]
        exact ⟨fun _ => ⟨j, first, hj, hs, ha⟩, fun _ => rfl⟩
      · rw [if_neg ha, ih (card_candidates_marked hj hs hn)]
        -- the first candidate is left out on both sides
        constructor
        · rintro ⟨k, info, hk, hc, hok⟩
          obtain ⟨-, rfl⟩ | hk := setMatcher_cases hk
          · exact MatcherState.noConfusion hc
          · exact ⟨k, info, hk, hc, hok⟩
        · rintro ⟨k, info, hk, hc, hok⟩
          refine ⟨k, info, ?_, hc, hok⟩
          refine (getElem?_setMatcher g j k _).trans ((if_neg ?_).trans hk)
          rintro rfl
          rw [Option.some.inj (hj.symm.trans hk)] at ha
          exact ha hok

theorem does_createOrigin (accepts : UInt64 → Bool) {w : UInt16} (h : g.origins[w]? = none)
    (client : UInt64) : Does g (g.createOrigin accepts w client) (g.takenIn accepts w client) := by
  have hquiet : Quiet g (g.promoteCandidate accepts (fun addr ok => .init w addr.hostId addr.hostId ok)
      g.matchers.size).1 := Quiet.promoteCandidate (fun _ _ => rfl) g.matchers.size g
  have hsome : (g.promoteCandidate accepts (fun addr ok => .init w addr.hostId addr.hostId ok)
      g.matchers.size).2.isSome = _ := isSome_promoteCandidate (card_candidates_le g)
  rw [createOrigin, takenIn, takes, h]
  dsimp only
  rw [← hsome]
  generalize
    g.promoteCandidate accepts (fun addr ok => .init w addr.hostId addr.hostId ok) g.matchers.size = r
    at hquiet ⊢
  obtain ⟨u, found⟩ := r
  cases found with
  | none =>
    rw [Option.isSome_none, Bool.false_and, if_neg Bool.false_ne_true]
    exact hquiet.does
  | some addr =>
    have hstore := does_storeRequestingClient { u with origins := u.origins.insert w addr.hostId } w client
    have hwaiting : ({ u with origins := u.origins.insert w addr.hostId } : Gateway).waiting = g.waiting :=
      hquiet.waiting
    have horigin : Quiet g { u with origins := u.origins.insert w addr.hostId } :=
      ⟨hquiet.waiting, hquiet.notices⟩
    rw [Option.isSome_some, Bool.true_and]
    rw [hwaiting] at hstore
    by_cases hc : client ∈ g.waiting w
    · rw [if_pos hc] at hstore
      rw [if_neg (by simp [hc])]
      exact horigin.andThen hstore
    · rw [if_neg hc] at hstore
      rw [if_pos (by simp [hc])]
      exact horigin.andThen hstore

theorem does_joinWorld (accepts : UInt64 → Bool) (g : Gateway) (w : UInt16) (client : UInt64) :
    Does g (g.joinWorld accepts w client) (g.takenIn accepts w client) := by
  rw [joinWorld]
  cases ho : g.origins[w]? with
  | none => exact does_createOrigin accepts ho client
  | some id =>
    have htakes : g.takes accepts w client =
        g.matchers[id]?.any (fun info => info.state != .promoting || !(g.waiting w).contains client) := by
      rw [takes, ho]
    rw [takenIn, htakes]
    dsimp only
    split
    · rename_i hm
      rw [hm, Option.any_none, if_neg Bool.false_ne_true]
      split
      · exact .quiet rfl rfl
      · exact .quiet rfl rfl
    · rename_i info hm
      rw [hm, Option.any_some]
      by_cases hs : info.state = .promoting
      · rw [if_pos hs, hs, bne_self_eq_false, Bool.false_or]
        have hstore := does_storeRequestingClient g w client
        by_cases hc : client ∈ g.waiting w
        · rw [if_pos hc] at hstore
          rwa [if_neg (by simp [hc])]
        · rw [if_neg hc] at hstore
          rwa [if_pos (by simp [hc])]
      · rw [if_neg hs, if_pos (by simp [hs])]
        exact .answered w client info.addr rfl List.filterMap_append ⟨id, info, ho, hm, hs, rfl⟩

theorem does_handleJoin (accepts : UInt64 → Bool) (g : Gateway) (worldId : UInt16) (client : UInt64) :
    Does g (g.handleJoin accepts worldId client)
      ((g.worldOf worldId).bind fun w => g.takenIn accepts w client) := by
  rw [handleJoin, worldOf]
  split
  · cases hf : g.freeWorld 65536 g.worldCounter with
    | none => exact .quiet rfl rfl
    | some w =>
      have hcounter : Quiet g { g with worldCounter := w + 1 } := ⟨rfl, rfl⟩
      exact hcounter.andThen (does_joinWorld accepts { g with worldCounter := w + 1 } w client)
  · exact does_joinWorld accepts g worldId client

/-- A gateway whose search for a free world goes round for ever takes nothing and does nothing. -/
theorem turn_hung (h : g.hung = true) (t : Turn) : g.turn t = g ∧ g.request t = none := by
  cases t with
  | message e =>
    refine ⟨if_pos h, ?_⟩
    cases e with
    | join accepts worldId client => exact if_pos h
    | _ => rfl
  | expire accepts now expireTime => exact ⟨if_pos h, rfl⟩

theorem does_turn (g : Gateway) (t : Turn) : Does g (g.turn t) (g.request t) := by
  cases t with
  | message e =>
    rw [turn, step]
    split
    · rename_i hhung
      rw [(turn_hung hhung (.message e)).2]
      exact (Quiet.refl g).does
    · rename_i hhung
      cases e with
      | candidate now candidate =>
        refine Quiet.does ?_
        change Quiet g (g.handleCandidate now candidate)
        rw [handleCandidate]
        split
        · exact Quiet.refl g
        · exact ⟨rfl, rfl⟩
      | join accepts worldId client =>
        rw [request, if_neg hhung]
        exact does_handleJoin accepts g worldId client
      | insert accepts joinPos origin =>
        exact (Quiet.promoteCandidate (fun _ _ => rfl) g.matchers.size g).does
      | alive accepts now sender requestReply worldId addr originId =>
        exact does_handleAlive accepts now g sender requestReply worldId addr originId
      | disconnect accepts id =>
        refine Quiet.does ?_
        change Quiet g (g.handleDisconnect accepts id)
        rw [handleDisconnect]
        split
        · exact Quiet.originDisconnected accepts g id
        · exact Quiet.refl g
  | expire accepts now expireTime =>
    rw [turn]
    split
    · exact (Quiet.refl g).does
    · exact (Quiet.removeExpiredMatchers accepts now expireTime g).does

theorem answers_congr (h : g'.notices = g.notices) (worlds : List UInt16) (w : UInt16) (client : UInt64) :
    g'.answers worlds w client = g.answers worlds w client := by
  rw [answers, h, answers]

theorem answers_append {worlds : List UInt16} {v : UInt16} {targets : List UInt64} {addr : Addr}
    (hl : worlds.length = g.notices.length) (h : g'.notices = g.notices ++ [(targets, addr)]) (w : UInt16)
    (client : UInt64) : g'.answers (worlds ++ [v]) w client =
      g.answers worlds w client + if v = w then targets.count client else 0 := by
  rw [answers, h, List.zip_append hl, List.map_append, List.sum_append, answers, List.zip_cons_cons,
    List.zip_nil_right, List.map_singleton, List.sum_singleton]

/-- The notices of a later time are about other worlds, which changes nothing for the earlier ones. -/
theorem answers_later {worlds : List UInt16} (h : g.notices.length ≤ worlds.length) (more : List UInt16)
    (w : UInt16) (client : UInt64) :
    g.answers (worlds ++ more) w client = g.answers worlds w client := by
  have hzip (l : List UInt16) (hl : g.notices.length ≤ l.length) :
      l.zip g.notices = (l.take g.notices.length).zip g.notices := by
    rw [List.zip_eq_zip_take_min, Nat.min_eq_right hl, List.take_length]
  rw [answers, hzip (worlds ++ more) (by rw [List.length_append]; omega), List.take_append_of_le_length h,
    ← hzip worlds h, answers]

/-- The turn keeps the count, whatever world its notice is about being noted at the end. -/
theorem Does.count (h : Does g g' request) {worlds : List UInt16} (hl : worlds.length = g.notices.length) :
    ∃ more, (worlds ++ more).length = g'.notices.length ∧ ∀ w client,
      g'.answers (worlds ++ more) w client + g'.waits w client =
        g.answers worlds w client + g.waits w client + request.toList.count (w, client) := by
  have hone (v w : UInt16) (asking client : UInt64) :
      (some (v, asking)).toList.count (w, client) = if v = w then [asking].count client else 0 := by
    rw [Option.toList_some, List.count_singleton, List.count_singleton]
    by_cases hv : v = w
    · simp [hv]
    · simp [hv]
  cases h with
  | quiet hw hn =>
    refine ⟨[], by rw [List.append_nil, hl, hn], fun w client => ?_⟩
    rw [List.append_nil, answers_congr hn, waits, hw, Option.toList_none, List.count_nil, Nat.add_zero, waits]
  | answered v asking addr hw hn =>
    refine ⟨[v], by rw [hn, List.length_append, List.length_append, hl]; rfl, fun w client => ?_⟩
    rw [answers_append hl hn, waits, hw, hone, waits]
    omega
  | listed v asking hn hw =>
    refine ⟨[], by rw [List.append_nil, hl, hn], fun w client => ?_⟩
    rw [List.append_nil, answers_congr hn, waits, hw, hone, waits, Function.update_apply]
    by_cases hv : w = v
    · rw [if_pos hv, if_pos hv.symm, List.count_append, hv, Nat.add_assoc]
    · rw [if_neg hv, if_neg (Ne.symm hv), Nat.add_zero]
  | announced v addr hw hn =>
    refine ⟨[v], by rw [hn, List.length_append, List.length_append, hl]; rfl, fun w client => ?_⟩
    rw [answers_append hl hn, waits, hw, Option.toList_none, List.count_nil, waits, Function.update_apply]
    by_cases hv : w = v
    · rw [if_pos hv, if_pos hv.symm, List.count_nil, hv]
    · rw [if_neg hv, if_neg (Ne.symm hv), Nat.add_zero]
      rfl

theorem Does.length_notices_le (h : Does g g' request) : g.notices.length ≤ g'.notices.length := by
  cases h with
  | quiet hw hn => exact (congrArg List.length hn).ge
  | answered w asking addr hw hn => rw [hn, List.length_append]; exact Nat.le_add_right _ _
  | listed w asking hn => exact (congrArg List.length hn).ge
  | announced w addr hw hn => rw [hn, List.length_append]; exact Nat.le_add_right _ _

theorem length_notices_le (g : Gateway) (ts : List Turn) :
    g.notices.length ≤ (ts.foldl turn g).notices.length := by
  induction ts generalizing g with
  | nil => exact Nat.le_refl _
  | cons t ts ih => exact (does_turn g t).length_notices_le.trans (ih (g.turn t))

theorem taken_append (g : Gateway) (ts : List Turn) (t : Turn) :
    taken g (ts ++ [t]) = taken g ts ++ ((ts.foldl turn g).request t).toList := by
  induction ts generalizing g with
  | nil => simp [taken]
  | cons s ts ih => rw [List.cons_append, taken, ih, taken, List.append_assoc, List.foldl_cons]

/-- Each request that is taken is answered once, by a notice about its world, or waits, and no other is.
From when the gateway hangs nothing is taken. -/
theorem requests_answered_once (ts : List Turn) :
    ∃ worlds : List UInt16, worlds.length = (ts.foldl turn {}).notices.length ∧
      ∀ pre, pre <+: ts →
        (∀ w client, (pre.foldl turn {}).answers worlds w client + (pre.foldl turn {}).waits w client =
          (taken {} pre).count (w, client)) ∧
        ((pre.foldl turn {}).hung = true → ∀ t,
          (pre.foldl turn {}).turn t = pre.foldl turn {} ∧ (pre.foldl turn {}).request t = none) := by
  suffices h : ∃ worlds : List UInt16, worlds.length = (ts.foldl turn {}).notices.length ∧ ∀ pre, pre <+: ts →
      ∀ w client, (pre.foldl turn {}).answers worlds w client + (pre.foldl turn {}).waits w client =
        (taken {} pre).count (w, client) by
    obtain ⟨worlds, hl, hcount⟩ := h
    exact ⟨worlds, hl, fun pre hpre => ⟨hcount pre hpre, fun hh => turn_hung hh⟩⟩
  induction ts using List.reverseRecOn with
  | nil =>
    refine ⟨[], rfl, fun pre hpre w client => ?_⟩
    rw [List.prefix_nil.mp hpre]
    rfl
  | append_singleton ts t ih =>
    obtain ⟨worlds, hl, hcount⟩ := ih
    obtain ⟨more, hlen, hmore⟩ := (does_turn (ts.foldl turn {}) t).count hl
    have hstep : (ts ++ [t]).foldl turn {} = (ts.foldl turn {}).turn t := by
      rw [List.foldl_append, List.foldl_cons, List.foldl_nil]
    refine ⟨worlds ++ more, hlen.trans (by rw [hstep]), fun pre hpre w client => ?_⟩
    rcases List.prefix_concat_iff.mp hpre with rfl | hpre
    · rw [hstep, hmore, hcount ts (List.prefix_refl ts), taken_append, List.count_append]
    · obtain ⟨rest, rfl⟩ := hpre
      rw [answers_later, hcount pre (List.prefix_append pre rest)]
      rw [hl, List.foldl_append]
      exact length_notices_le _ rest

theorem Does.mem_waiting (h : Does g g' request) {w : UInt16} {client : UInt64} (hc : client ∈ g'.waiting w) :
    client ∈ g.waiting w ∨ (w, client) ∈ request.toList := by
  cases h with
  | quiet hw => exact .inl (hw ▸ hc)
  | answered _ _ _ hw => exact .inl (hw ▸ hc)
  | listed v asking hn hw =>
    rw [hw, Function.update_apply] at hc
    split at hc
    · rename_i hv
      subst hv
      rcases List.mem_append.mp hc with hc | hc
      · exact .inl hc
      · rw [List.mem_singleton.mp hc]
        exact .inr (List.mem_singleton_self _)
    · exact .inl hc
  | announced v addr hw =>
    rw [hw, Function.update_apply] at hc
    split at hc
    · exact absurd hc List.not_mem_nil
    · exact .inl hc

theorem mem_taken_of_waiting (ts : List Turn) {w : UInt16} {client : UInt64}
    (h : client ∈ (ts.foldl turn {}).waiting w) : (w, client) ∈ taken {} ts := by
  induction ts using List.reverseRecOn with
  | nil => exact absurd h List.not_mem_nil
  | append_singleton ts t ih =>
    rw [List.foldl_append] at h
    rw [taken_append]
    rcases (does_turn _ t).mem_waiting h with h | h
    · exact List.mem_append_left _ (ih h)
    · exact List.mem_append_right _ h

/-- Whoever is told a matcher has asked for a world that this matcher serves at that time. -/
theorem notices_truthful (ts : List Turn) (t : Turn) :
    ((ts ++ [t]).foldl turn {}).notices = (ts.foldl turn {}).notices ∨ ∃ w targets addr,
      ((ts ++ [t]).foldl turn {}).notices = (ts.foldl turn {}).notices ++ [(targets, addr)] ∧
      ((ts ++ [t]).foldl turn {}).HasOrigin w addr ∧
      ∀ client ∈ targets, (w, client) ∈ taken {} (ts ++ [t]) := by
  rw [List.foldl_append, taken_append]
  have hdoes := does_turn (ts.foldl turn {}) t
  generalize (ts.foldl turn {}).request t = request at hdoes
  change (Gateway.turn _ t).notices = _ ∨ _
  cases hdoes with
  | quiet hw hn => exact .inl hn
  | answered w asking addr hw hn ho =>
    refine .inr ⟨w, [asking], addr, hn, ho, fun client hc => List.mem_append_right _ ?_⟩
    rw [List.mem_singleton.mp hc]
    exact List.mem_singleton_self _
  | listed w asking hn => exact .inl hn
  | announced w addr hw hn ho =>
    exact .inr ⟨w, _, addr, hn, ho, fun client hc => List.mem_append_left _ (mem_taken_of_waiting ts hc)⟩

end Gateway

end VastNC
