import VastNC.AddressBook
import VastNC.ClientLifeCycle

/-! A client that has joined and subscribed keeps asking for whatever it lacks. -/

namespace VastNC

open StepRun

namespace VASTClient

variable {c : VASTClient} (env : ClientEnv)

/-- A timeout that is set now does not end at the one time that stands for none. -/
def Timed (c : VASTClient) (e : ClientEnv × ClientEvent) : Prop := c.now e.1 + c.timeout ≠ 0

instance (c : VASTClient) (e : ClientEnv × ClientEvent) : Decidable (c.Timed e) :=
  inferInstanceAs (Decidable (_ ≠ _))

structure Sound (c : VASTClient) : Prop where
  phase : c.state = .absent ∨ c.state = .joining ∨ c.state = .joined
  asks : c.asked = true → c.client.active = false → c.timeoutSubscribe ≠ 0
  joins : c.state ≠ .absent → c.gateway.hostId ≠ 0 ∧ c.timeoutJoin ≠ 0

/-- What a message to the matcher changes: a backup that is not reached is given up, and a matcher that is not
reached is replaced. -/
theorem sendMatcherMessage_cases (c : VASTClient) (msg : ClientMessage) (others : List UInt64) :
    ∃ targets closestId, (others = [] → targets = [c.matcherId]) ∧
      (closestId = c.closestId ∨ closestId = 0) ∧
      ((c.sendMatcherMessage env msg others).1 = { c.call (.send targets msg) with closestId } ∨
        (c.sendMatcherMessage env msg others).1 =
          { c.call (.send targets msg) with closestId }.handleMatcherDisconnect) := by
  have hdrop (failed : List UInt64) (d : VASTClient) : ∃ closestId,
      (closestId = d.closestId ∨ closestId = 0) ∧ failed.foldl dropClosest d = { d with closestId } := by
    induction failed generalizing d with
    | nil => exact ⟨d.closestId, .inl rfl, rfl⟩
    | cons f failed ih =>
      obtain ⟨k, hk, heq⟩ := ih (d.dropClosest f)
      rw [List.foldl_cons, heq, dropClosest]
      rw [dropClosest] at hk
      split at hk
      · rename_i hf
        rw [if_pos hf]
        exact ⟨k, hk.elim .inr .inr, rfl⟩
      · rename_i hf
        rw [if_neg hf]
        exact ⟨k, hk, rfl⟩
  have htargets : others = [] →
      (if c.matcherId ∈ others then others else others ++ [c.matcherId]) = [c.matcherId] := by
    rintro rfl
    simp
  rw [sendMatcherMessage]
  generalize (if c.matcherId ∈ others then others else others ++ [c.matcherId]) = targets at htargets
  obtain ⟨k, hk, heq⟩ := hdrop (targets.filter env.unreachable) (c.call (.send targets msg))
  rw [heq]
  refine ⟨targets, k, htargets, hk, ?_⟩
  split
  · exact .inr rfl
  · exact .inl rfl

theorem sendGatewayMessage_eq (c : VASTClient) (msg : ClientMessage) :
    ∃ calls, c.sendGatewayMessage env msg = { c with calls } := by
  rw [sendGatewayMessage]
  split
  · exact ⟨c.calls, rfl⟩
  · dsimp only
    split
    · exact ⟨_, rfl⟩
    · exact ⟨_, rfl⟩

/-- The timeout that makes the client try at once. -/
theorem atOnce_ne_zero : (1 : UInt64) ≠ 0 := by decide

namespace Sound

theorem handleMatcherDisconnect (h : c.Sound) : c.handleMatcherDisconnect.Sound where
  phase := h.phase
  asks _ _ := atOnce_ne_zero
  joins := h.joins

theorem sendMatcherMessage (h : c.Sound) (msg : ClientMessage) (others : List UInt64) :
    (c.sendMatcherMessage env msg others).1.Sound := by
  obtain ⟨targets, closestId, -, -, heq⟩ := c.sendMatcherMessage_cases env msg others
  have hkept : Sound { c.call (.send targets msg) with closestId } := { h with }
  rcases heq with heq | heq
  · rwa [heq]
  · rw [heq]
    exact hkept.handleMatcherDisconnect

theorem sendGatewayMessage (h : c.Sound) (msg : ClientMessage) : (c.sendGatewayMessage env msg).Sound := by
  obtain ⟨calls, heq⟩ := c.sendGatewayMessage_eq env msg
  rw [heq]
  exact { h with }

theorem join (h : c.Sound) (htime : c.now env + c.timeout ≠ 0) (gateway : IPaddr) (worldId : UInt16) :
    (c.join env gateway worldId).Sound := by
  have hjoins : (resolveHostID (validateIPAddress env gateway)) ≠ 0 ∧ c.now env + c.timeout ≠ 0 :=
    ⟨AddressBook.resolveHostID_ne_zero _, htime⟩
  rw [VASTClient.join]
  dsimp only
  split
  · exact { h with joins := fun _ => hjoins }
  · apply sendGatewayMessage
    exact { h with phase := .inr (.inl rfl), joins := fun _ => hjoins }

theorem leave (h : c.Sound) : (c.leave env).Sound := by
  rw [VASTClient.leave]
  split
  · exact h
  · have hsent := (h.sendMatcherMessage env .leave []).sendGatewayMessage env (.stat 2)
    exact { hsent with
      phase := .inl rfl
      asks := fun ha => absurd ha Bool.false_ne_true
      joins := fun hs => absurd rfl hs }

theorem sendSubscription (h : c.Sound) (htime : c.timeoutSubscribe ≠ 0) :
    (c.sendSubscription env).Sound ∧ (c.sendSubscription env).timeoutSubscribe ≠ 0 := by
  rw [VASTClient.sendSubscription]
  generalize hd : ({ c with client := _ } : VASTClient) = d
  have hinactive : d.client.active = false := hd ▸ rfl
  have htimeout : d.timeoutSubscribe = c.timeoutSubscribe := hd ▸ rfl
  have hsound : d.Sound := by
    subst hd
    exact { h with asks := fun _ _ => htime }
  refine ⟨hsound.sendMatcherMessage env _ _, ?_⟩
  obtain ⟨targets, closestId, -, -, heq | heq⟩ :=
    d.sendMatcherMessage_cases env (.subscribe (d.subscription env)) []
  · rw [heq]
    exact htimeout ▸ htime
  · rw [heq]
    exact atOnce_ne_zero

theorem subscribe (h : c.Sound) (htime : c.now env + c.timeout ≠ 0) (area : Area) (layer : UInt16) :
    (c.subscribe env area layer).Sound ∧ (c.subscribe env area layer).timeoutSubscribe ≠ 0 := by
  have hrec : (c.recordSubscription env area layer).Sound := { h with asks := fun _ _ => htime }
  rw [VASTClient.subscribe]
  split
  · exact ⟨hrec, htime⟩
  · exact hrec.sendSubscription env htime

theorem move (h : c.Sound) (id : UInt64) (aoi : Area) (updateOnly : Bool) :
    (c.move env id aoi updateOnly).Sound := by
  have hsend (others : List UInt64) (msgs : List AreaMessage) {d : VASTClient} (hd : d.Sound) :
      (msgs.foldl (fun d msg => (d.sendMatcherMessage env (.move msg) others).1) d).Sound := by
    induction msgs generalizing d with
    | nil => exact hd
    | cons msg msgs ih => exact ih (hd.sendMatcherMessage env (.move msg) others)
  rw [VASTClient.move]
  split
  · exact h
  · rename_i hactive
    split
    · exact { h with asks := fun _ _ => atOnce_ne_zero }
    · rename_i hid
      split
      · have hclient : Sound { c with client := (c.client.move id aoi updateOnly env.clock).1 } := by
          have hkept : (c.client.move id aoi updateOnly env.clock).1.active = c.client.active := by
            rw [AreaClient.move, if_neg hactive, if_neg hid]
          exact { h with asks := fun hasked ha => h.asks hasked (hkept ▸ ha) }
        exact { hsend _ _ hclient with }
      · exact h

theorem applyEntry (h : c.Sound) (e : NeighborChange) : (c.applyEntry env e).Sound := by
  have htable (table : ClientNeighbors) : Sound { c with table } := { h with }
  rw [VASTClient.applyEntry]
  split
  · exact (htable _).sendMatcherMessage env _ []
  · exact htable _

theorem subscribed (h : c.Sound) (subNo : UInt64) (matcher : Addr) :
    (c.subscribed env subNo matcher).Sound := by
  rw [VASTClient.subscribed]
  split
  · exact h
  · apply sendGatewayMessage
    apply sendGatewayMessage
    split
    · exact { h with asks := fun _ ha => absurd ha.symm Bool.false_ne_true }
    · exact { h with asks := fun _ ha => absurd ha.symm Bool.false_ne_true }

theorem notifyMatcher (h : c.Sound) (hstate : c.state ≠ .absent) (matcher : Addr) :
    (c.notifyMatcher matcher).Sound := by
  have hjoined {d : VASTClient} (hd : d.Sound) (hs : d.state ≠ .absent) :
      (if d.state = .joining then { d with state := .joined } else d).Sound := by
    split
    · exact { hd with phase := .inr (.inr rfl), joins := fun _ => hd.joins hs }
    · exact hd
  rw [VASTClient.notifyMatcher]
  by_cases heq : matcher.hostId = c.matcherId
  · rw [if_pos heq]
    exact hjoined h hstate
  · rw [if_neg heq]
    exact hjoined { h with } hstate

theorem notifyClosest (h : c.Sound) (fromId : UInt64) (matcher : Addr) :
    (c.notifyClosest fromId matcher).Sound := by
  rw [VASTClient.notifyClosest]
  split
  · exact { h with }
  · exact h

theorem disconnected (h : c.Sound) (fromId : UInt64) : (c.disconnected env fromId).Sound := by
  rw [VASTClient.disconnected]
  split
  · exact h.handleMatcherDisconnect
  · split
    · exact { h with asks := fun _ _ => atOnce_ne_zero }
    · exact h

theorem removeGhosts (h : c.Sound) : (c.removeGhosts env).Sound := by
  rw [VASTClient.removeGhosts]
  split
  · exact h
  · have htable (table : ClientNeighbors) : Sound { c with table } := { h with }
    dsimp only
    split
    · exact (htable _).handleMatcherDisconnect
    · exact htable _

theorem retry (h : c.Sound) (htime : c.now env + c.timeout ≠ 0) : (c.retry env).Sound := by
  rw [VASTClient.retry]
  split
  · split
    · exact h.join env htime _ _
    · exact h
  · split
    · exact (h.subscribe env htime _ _).1
    · exact h

theorem postHandling (h : c.Sound) (htime : c.now env + c.timeout ≠ 0) : (c.postHandling env).Sound := by
  rw [VASTClient.postHandling]
  split
  · exact h
  · dsimp only
    split
    · apply removeGhosts
      exact { h.retry env htime with }
    · exact h.retry env htime

theorem handleMessage (h : c.Sound) (m : ClientInput) : (c.handleMessage env m).Sound := by
  rw [VASTClient.handleMessage.eq_def]
  split
  · exact h
  · rename_i hstate
    cases m with
    | subscribeR subNo matcher => exact h.subscribed env subNo matcher
    | notifyMatcher matcher => exact h.notifyMatcher hstate matcher
    | notifyClosest fromId matcher => exact h.notifyClosest fromId matcher
    | neighbor entries =>
      clear hstate
      dsimp only
      induction entries generalizing c with
      | nil => exact h
      | cons e entries ih => exact ih (h.applyEntry env e)
    | message msg => exact { h with }
    | syncClock sent gateway => exact { h with }
    | disconnect fromId => exact h.disconnected env fromId

theorem step (h : c.Sound) {e : ClientEnv × ClientEvent} (he : c.Timed e) : (c.step e).Sound := by
  obtain ⟨env, e⟩ := e
  cases e with
  | join gateway worldId => exact h.join env he gateway worldId
  | leave => exact h.leave env
  | subscribe area layer =>
    obtain ⟨hsub, htime⟩ := h.subscribe env he area layer
    exact { hsub with asks := fun _ _ => htime }
  | publish area layer msg =>
    change (c.publish env area layer msg).Sound
    rw [publish]
    split
    · exact h
    · exact h.sendMatcherMessage env _ []
  | move id aoi updateOnly => exact h.move env id aoi updateOnly
  | send msg =>
    change (c.send env msg).Sound
    rw [send]
    split
    · exact h
    · exact h.sendMatcherMessage env _ []
  | reportGateway msg =>
    change (c.reportGateway env msg).Sound
    rw [reportGateway]
    split
    · exact h
    · exact h.sendGatewayMessage env _
  | reportOrigin msg =>
    change (c.reportOrigin env msg).Sound
    rw [reportOrigin]
    split
    · exact h
    · exact h.sendMatcherMessage env _ []
  | input m => exact h.handleMessage env m
  | postHandling => exact h.postHandling env he

theorem start : Sound {} where
  phase := .inl rfl
  asks ha _ := absurd ha Bool.false_ne_true
  joins hs := absurd rfl hs

end Sound

/-- The client without the history of its calls. -/
def cleared (c : VASTClient) : VASTClient := { c with calls := [] }

def resubscribe (c : VASTClient) (env : ClientEnv) : ClientCall :=
  .send [c.matcherId]
    (.subscribe ((c.recordSubscription env c.client.sub.aoi c.client.sub.layer).subscription env))

theorem Sound.run {es : List (ClientEnv × ClientEvent)} (h : c.Sound)
    (hes : Along VASTClient.step Timed c es) : (c.run es).Sound := by
  have hinv (c : VASTClient) (e : ClientEnv × ClientEvent) (h : c.Sound) (he : c.Timed e) :
      (c.step e).Sound := h.step he
  exact always_of_along hinv h hes es (List.prefix_refl es)

def entry : IPaddr where
  host := 16909061
  port := 1037

/-- Nobody joins who has a matcher, no subscription is confirmed while a join is under way, and the messages
name a matcher and their sender. -/
def Orderly (c : VASTClient) (e : ClientEnv × ClientEvent) : Prop :=
  match e.2 with
  | .join _ _ => c.matcherId = 0
  | .input (.subscribeR _ matcher) => c.state ≠ .joining ∧ matcher.hostId ≠ 0
  | .input (.notifyMatcher matcher) => matcher.hostId ≠ 0
  | .input (.notifyClosest fromId _) => fromId ≠ 0
  | _ => True

def Backed (c : VASTClient) : Prop := c.matcherId = 0 → c.closestId = 0

/-- `d` is where `c` was: a client without a matcher and a backup has found none. -/
structure Calm (c d : VASTClient) : Prop where
  state : d.state = c.state
  matcher : c.Backed → c.matcherId = 0 → d.matcherId = 0
  backed : c.Backed → d.Backed

namespace Calm

variable {d : VASTClient}

theorem refl (c : VASTClient) : Calm c c where
  state := rfl
  matcher _ h := h
  backed h := h

theorem trans {e : VASTClient} (h : Calm c d) (h' : Calm d e) : Calm c e where
  state := h'.state.trans h.state
  matcher hb hm := h'.matcher (h.backed hb) (h.matcher hb hm)
  backed hb := h'.backed (h.backed hb)

theorem handleMatcherDisconnect (c : VASTClient) : Calm c c.handleMatcherDisconnect where
  state := rfl
  matcher hb hm := hb hm
  backed _ _ := rfl

theorem sendMatcherMessage (c : VASTClient) (msg : ClientMessage) (others : List UInt64) :
    Calm c (c.sendMatcherMessage env msg others).1 := by
  obtain ⟨targets, closestId, -, hk, heq⟩ := c.sendMatcherMessage_cases env msg others
  have hkept : Calm c { c.call (.send targets msg) with closestId } :=
    { refl c with backed := fun hb hm => hk.elim (fun hk => hk.trans (hb hm)) id }
  rcases heq with heq | heq
  · rwa [heq]
  · rw [heq]
    exact hkept.trans (handleMatcherDisconnect _)

theorem sendGatewayMessage (c : VASTClient) (msg : ClientMessage) :
    Calm c (c.sendGatewayMessage env msg) := by
  obtain ⟨calls, heq⟩ := c.sendGatewayMessage_eq env msg
  rw [heq]
  exact { refl c with }

theorem subscribe (c : VASTClient) (area : Area) (layer : UInt16) : Calm c (c.subscribe env area layer) := by
  have hrec : Calm c (c.recordSubscription env area layer) := { refl c with }
  rw [VASTClient.subscribe]
  split
  · exact hrec
  · rw [VASTClient.sendSubscription]
    refine hrec.trans (Calm.trans ?_ (sendMatcherMessage env _ _ _))
    exact { refl (c.recordSubscription env area layer) with }

theorem move (c : VASTClient) (id : UInt64) (aoi : Area) (updateOnly : Bool) :
    Calm c (c.move env id aoi updateOnly) := by
  have hsend (others : List UInt64) (msgs : List AreaMessage) {d : VASTClient} (hd : Calm c d) :
      Calm c (msgs.foldl (fun d msg => (d.sendMatcherMessage env (.move msg) others).1) d) := by
    induction msgs generalizing d with
    | nil => exact hd
    | cons msg msgs ih => exact ih (hd.trans (sendMatcherMessage env d (.move msg) others))
  rw [VASTClient.move]
  split
  · exact refl c
  · split
    · exact { refl c with }
    · split
      · have hclient (client : AreaClient) : Calm c { c with client } := { refl c with }
        exact { hsend _ _ (hclient _) with }
      · exact refl c

theorem applyEntry (c : VASTClient) (e : NeighborChange) : Calm c (c.applyEntry env e) := by
  have htable (table : ClientNeighbors) : Calm c { c with table } := { refl c with }
  rw [VASTClient.applyEntry]
  split
  · exact (htable _).trans (sendMatcherMessage env _ _ [])
  · exact htable _

theorem notifyClosest {fromId : UInt64} (hne : fromId ≠ 0) (matcher : Addr) :
    Calm c (c.notifyClosest fromId matcher) := by
  rw [VASTClient.notifyClosest]
  split
  · rename_i heq
    exact { refl c with backed := fun _ hm => absurd (heq.trans hm) hne }
  · exact refl c

theorem disconnected (c : VASTClient) (fromId : UInt64) : Calm c (c.disconnected env fromId) := by
  rw [VASTClient.disconnected]
  split
  · exact handleMatcherDisconnect c
  · split
    · exact { refl c with }
    · exact refl c

theorem removeGhosts (c : VASTClient) : Calm c (c.removeGhosts env) := by
  rw [VASTClient.removeGhosts]
  split
  · exact refl c
  · have htable (table : ClientNeighbors) : Calm c { c with table } := { refl c with }
    dsimp only
    split
    · exact (htable _).trans (handleMatcherDisconnect _)
    · exact htable _

end Calm

/-- Who waits for the gateway has no matcher yet, and who has no matcher has no backup. -/
structure Settled (c : VASTClient) : Prop where
  waiting : c.state = .joining → c.matcherId = 0
  backed : c.Backed

theorem Calm.settled {d : VASTClient} (h : Calm c d) (hs : c.Settled) : d.Settled where
  waiting hstate := h.matcher hs.backed (hs.waiting (h.state ▸ hstate))
  backed := h.backed hs.backed

namespace Settled

theorem join (h : c.Settled) (hmatcher : c.matcherId = 0) (gateway : IPaddr) (worldId : UInt16) :
    (c.join env gateway worldId).Settled := by
  rw [VASTClient.join]
  dsimp only
  split
  · exact { h with }
  · apply (Calm.sendGatewayMessage env _ _).settled
    exact { h with waiting := fun _ => hmatcher }

theorem leave (h : c.Settled) : (c.leave env).Settled := by
  rw [VASTClient.leave]
  split
  · exact h
  · have hcalm := (Calm.sendMatcherMessage env c .leave []).trans (Calm.sendGatewayMessage env _ (.stat 2))
    exact ⟨fun hjoining => NodeState.noConfusion hjoining, hcalm.backed h.backed⟩

theorem subscribed (h : c.Settled) (hstate : c.state ≠ .joining) {matcher : Addr} (hne : matcher.hostId ≠ 0)
    (subNo : UInt64) : (c.subscribed env subNo matcher).Settled := by
  rw [VASTClient.subscribed]
  split
  · exact h
  · apply (Calm.sendGatewayMessage env _ _).settled
    apply (Calm.sendGatewayMessage env _ _).settled
    split
    · exact { h with }
    · exact ⟨fun hjoining => absurd hjoining hstate, fun hm => absurd hm hne⟩

theorem notifyMatcher (h : c.Settled) {matcher : Addr} (hne : matcher.hostId ≠ 0) :
    (c.notifyMatcher matcher).Settled := by
  have hjoined {d : VASTClient} (hd : d.Backed) :
      (if d.state = .joining then { d with state := .joined } else d).Settled := by
    split
    · exact ⟨fun hjoining => NodeState.noConfusion hjoining, hd⟩
    · rename_i hstate
      exact ⟨fun hjoining => absurd hjoining hstate, hd⟩
  rw [VASTClient.notifyMatcher]
  by_cases heq : matcher.hostId = c.matcherId
  · rw [if_pos heq]
    exact hjoined h.backed
  · rw [if_neg heq]
    exact hjoined fun hm => absurd hm hne

theorem postHandling (h : c.Settled) : (c.postHandling env).Settled := by
  have hretry : (c.retry env).Settled := by
    rw [retry]
    split
    · rename_i hmatcher
      split
      · exact h.join env hmatcher _ _
      · exact h
    · split
      · exact (Calm.subscribe env c _ _).settled h
      · exact h
  rw [VASTClient.postHandling]
  split
  · exact h
  · dsimp only
    split
    · exact (Calm.removeGhosts env _).settled { hretry with }
    · exact hretry

theorem handleMessage (h : c.Settled) {m : ClientInput} (ho : c.Orderly (env, .input m)) :
    (c.handleMessage env m).Settled := by
  rw [VASTClient.handleMessage.eq_def]
  split
  · exact h
  · cases m with
    | subscribeR subNo matcher => exact h.subscribed env ho.1 ho.2 subNo
    | notifyMatcher matcher => exact h.notifyMatcher ho
    | notifyClosest fromId matcher => exact (Calm.notifyClosest ho matcher).settled h
    | neighbor entries =>
      have hcalm {d : VASTClient} (hd : Calm c d) : Calm c (entries.foldl (applyEntry env) d) := by
        clear ho
        induction entries generalizing d with
        | nil => exact hd
        | cons e entries ih => exact ih (hd.trans (Calm.applyEntry env d e))
      exact (hcalm (Calm.refl c)).settled h
    | message msg => exact { h with }
    | syncClock sent gateway => exact { h with }
    | disconnect fromId => exact (Calm.disconnected env c fromId).settled h

theorem step (h : c.Settled) {e : ClientEnv × ClientEvent} (ho : c.Orderly e) : (c.step e).Settled := by
  obtain ⟨env, e⟩ := e
  have hcalm {d : VASTClient} (hd : Calm c d) : d.Settled := hd.settled h
  cases e with
  | join gateway worldId => exact h.join env ho gateway worldId
  | leave => exact h.leave env
  | subscribe area layer => exact hcalm { Calm.subscribe env c area layer with }
  | publish area layer msg =>
    apply hcalm
    change Calm c (c.publish env area layer msg)
    rw [publish]
    split
    · exact Calm.refl c
    · exact Calm.sendMatcherMessage env c _ []
  | move id aoi updateOnly => exact hcalm (Calm.move env c id aoi updateOnly)
  | send msg =>
    apply hcalm
    change Calm c (c.send env msg)
    rw [send]
    split
    · exact Calm.refl c
    · exact Calm.sendMatcherMessage env c _ []
  | reportGateway msg =>
    apply hcalm
    change Calm c (c.reportGateway env msg)
    rw [reportGateway]
    split
    · exact Calm.refl c
    · exact Calm.sendGatewayMessage env c _
  | reportOrigin msg =>
    apply hcalm
    change Calm c (c.reportOrigin env msg)
    rw [reportOrigin]
    split
    · exact Calm.refl c
    · exact Calm.sendMatcherMessage env c _ []
  | input m => exact h.handleMessage env ho
  | postHandling => exact h.postHandling env

end Settled

end VASTClient

end VastNC
