import VastNC.VastVerse

/-! The life cycle of a node: its callbacks alternate in every run, and the runs in which
destroying it takes effect are those that destroy it while the layers under it stand. -/

namespace VastNC

namespace VASTVerse

variable {v w : VASTVerse} {env : VerseLayers}

def nodeCallbacks (calls : List VerseCall) : List Bool :=
  calls.filterMap fun c => match c with
    | .nodeJoined => some true
    | .nodeLeft => some false
    | _ => none

def Alternates (next : Bool) : List Bool → Prop
  | [] => True
  | x :: l => x = next ∧ Alternates (!next) l

def turn (next : Bool) (l : List Bool) : Bool := l.foldl (fun b _ => !b) next

theorem alternates_concat {next x : Bool} {l : List Bool} :
    Alternates next (l ++ [x]) ↔ Alternates next l ∧ x = turn next l := by
  induction l generalizing next with
  | nil => simp [Alternates, turn]
  | cons y l ih => rw [List.cons_append, Alternates, Alternates, ih, and_assoc, turn, turn, List.foldl_cons]

/-- Nothing that the node's callbacks depend on changes. -/
structure Quiet (v w : VASTVerse) : Prop where
  callback : w.callback = v.callback
  calls : nodeCallbacks w.calls = nodeCallbacks v.calls
  joined : w.state = .joined ↔ v.state = .joined

theorem Quiet.refl (v : VASTVerse) : Quiet v v := ⟨rfl, rfl, .rfl⟩

theorem Quiet.trans {u : VASTVerse} (h : Quiet u v) (h' : Quiet v w) : Quiet u w :=
  ⟨h'.callback.trans h.callback, h'.calls.trans h.calls, h'.joined.trans h.joined⟩

theorem quiet_call (v : VASTVerse) {c : VerseCall} (hc : nodeCallbacks [c] = []) : Quiet v (v.call c) :=
  ⟨rfl, by rw [call, nodeCallbacks, List.filterMap_append, ← nodeCallbacks, ← nodeCallbacks, hc, List.append_nil], .rfl⟩

theorem quiet_notify (v : VASTVerse) {c : VerseCall} (hc : nodeCallbacks [c] = []) : Quiet v (v.notify c) := by
  rw [notify]
  split
  · exact quiet_call v hc
  · exact .refl v

theorem quiet_connect (v : VASTVerse) : Quiet v v.connect := by
  rw [connect]
  split
  · exact .refl v
  · have h := quiet_notify v (c := .gatewayConnected) rfl
    exact ⟨h.callback, h.calls, h.joined⟩

theorem quiet_isInitialized (env : VerseLayers) (v : VASTVerse) : Quiet v (v.isInitialized env).1 := by
  rw [isInitialized]
  repeat' split
  all_goals exact ⟨rfl, rfl, .rfl⟩

theorem quiet_destroyClient (v : VASTVerse) : Quiet v v.destroyClient.1 := by
  rw [destroyClient]
  split
  · exact ⟨rfl, rfl, .rfl⟩
  · exact .refl v

theorem quiet_createClient (env : VerseLayers) (v : VASTVerse) (worldId : UInt16) :
    Quiet v (v.createClient env worldId).1 := by
  have h := quiet_isInitialized env v
  rw [createClient]
  dsimp only
  split
  · exact h
  · split
    · exact h
    · split
      · exact h.trans (quiet_call _ rfl)
      · have hc := h.trans (quiet_call _ (c := .clientJoin worldId) rfl)
        exact ⟨hc.callback, hc.calls, hc.joined⟩

/-- The callbacks so far alternate, and the state says which one comes next. -/
structure Balanced (v : VASTVerse) : Prop where
  alternates : Alternates true (nodeCallbacks v.calls)
  turn : v.callback = true → (turn true (nodeCallbacks v.calls) = true ↔ v.state ≠ .joined)

theorem Balanced.quiet (h : v.Balanced) (hw : Quiet v w) : w.Balanced where
  alternates := hw.calls ▸ h.alternates
  turn hc := by
    rw [hw.calls, h.turn (hw.callback ▸ hc)]
    exact not_congr hw.joined.symm

theorem turn_concat (next x : Bool) (l : List Bool) : turn next (l ++ [x]) = !turn next l := by
  rw [turn, turn, List.foldl_append, List.foldl_cons, List.foldl_nil]

theorem Balanced.notify (h : v.Balanced) {c : VerseCall} {x : Bool} (hc : nodeCallbacks [c] = [x]) {s : NodeState}
    (hx : x = true ↔ v.state ≠ .joined) (hs : x = true ↔ s = .joined) :
    (VASTVerse.notify { v with state := s } c).Balanced := by
  rw [VASTVerse.notify]
  split
  · rename_i hcall
    have happ : nodeCallbacks (v.calls ++ [c]) = nodeCallbacks v.calls ++ [x] := by
      rw [nodeCallbacks, List.filterMap_append, ← nodeCallbacks, ← nodeCallbacks, hc]
    have hturn : x = VASTVerse.turn true (nodeCallbacks v.calls) :=
      Bool.eq_iff_iff.mpr (hx.trans (h.turn hcall).symm)
    refine ⟨?_, fun _ => ?_⟩
    · change Alternates true (nodeCallbacks (v.calls ++ [c]))
      rw [happ]
      exact alternates_concat.mpr ⟨h.alternates, hturn⟩
    · change VASTVerse.turn true (nodeCallbacks (v.calls ++ [c])) = true ↔ s ≠ .joined
      rw [happ, turn_concat, ← hturn, Bool.not_eq_true', ← Bool.not_eq_true]
      exact not_congr hs
  · rename_i hcall
    exact ⟨h.alternates, fun hc => absurd hc hcall⟩

theorem quiet_await {period : Nat} {back : VASTVerse → VASTVerse}
    (hback : ∀ w, Quiet v w → Quiet v (back w)) : Quiet v (v.await period back) := by
  rw [await]
  split
  · exact hback _ ⟨rfl, rfl, .rfl⟩
  · exact ⟨rfl, rfl, .rfl⟩

theorem Quiet.withState (h : Quiet v w) (hv : v.state ≠ .joined) {s : NodeState} (hs : s ≠ .joined) :
    Quiet v { w with state := s } :=
  ⟨h.callback, h.calls, iff_of_false hs hv⟩

theorem Balanced.advance (h : v.Balanced) (hv : v.state ≠ .joined) (env : VerseLayers) (period : Nat)
    (info : VASTNodeInfo) : (v.advance env period info).Balanced := by
  unfold VASTVerse.advance
  split
  · have hq := quiet_createClient env v info.worldId
    dsimp only
    split
    · exact h.quiet (hq.withState hv NodeState.noConfusion)
    · exact h.quiet hq
  · split
    · exact h.quiet ((quiet_call v rfl).withState hv NodeState.noConfusion)
    · refine h.quiet (quiet_await fun w hw => ?_)
      exact (hw.trans (quiet_destroyClient w)).withState hv NodeState.noConfusion
  · split
    · exact h.notify rfl (iff_of_true rfl hv) (iff_of_true rfl rfl)
    · exact h.quiet (quiet_await fun w hw => hw.withState hv NodeState.noConfusion)
  · exact h

theorem Balanced.tick (h : v.Balanced) (env : VerseLayers) : (v.tick env).Balanced := by
  have hinit := h.quiet (quiet_isInitialized env v)
  rw [VASTVerse.tick]
  generalize v.isInitialized env = r at *
  dsimp only
  split
  · have hconn := hinit.quiet (quiet_connect r.1)
    split
    · split
      · exact hconn
      · rename_i hs
        exact hconn.advance hs env _ _
    · split
      · rename_i hs
        exact hconn.notify rfl (iff_of_false Bool.false_ne_true (not_not.mpr hs))
          (iff_of_false Bool.false_ne_true NodeState.noConfusion)
      · exact hconn
  · exact hinit

theorem Balanced.step (h : v.Balanced) (e : Event) : (v.step e).Balanced := by
  cases e with
  | create info =>
    rw [VASTVerse.step, createVASTNode]
    split
    · exact h.quiet ⟨rfl, rfl, .rfl⟩
    · exact h
  | destroy env =>
    rw [VASTVerse.step, destroyVASTNode]
    have hleave := h.quiet (quiet_call v (c := .clientLeave) rfl)
    generalize v.call .clientLeave = w at *
    dsimp only
    split
    · split
      · exact hleave
      · have hcleared : Balanced { w with vastinfo := [] } := hleave.quiet ⟨rfl, rfl, .rfl⟩
        exact (hcleared.tick env).quiet (quiet_destroyClient _)
    · exact h
  | tick env => exact h.tick env

/-- A node that is more than absent has its client, its description and the layers under it. -/
structure Sound (v : VASTVerse) : Prop where
  client : v.client = true ↔ v.state ≠ .absent
  info : v.state ≠ .absent → v.vastinfo ≠ []
  layers : v.state ≠ .absent → v.net = true ∧ v.relay = true ∧ v.matcher = true
  known : v.state ≠ .querying
  timeout : v.timeout ≤ v.retryPeriod

structure Below (v w : VASTVerse) : Prop where
  retryPeriod : w.retryPeriod = v.retryPeriod
  state : w.state = v.state
  timeout : w.timeout = v.timeout
  vastinfo : w.vastinfo = v.vastinfo
  client : w.client = v.client
  net : v.net = true → w.net = true
  relay : v.relay = true → w.relay = true
  matcher : v.matcher = true → w.matcher = true

theorem Below.refl (v : VASTVerse) : Below v v := ⟨rfl, rfl, rfl, rfl, rfl, id, id, id⟩

theorem Below.trans {u : VASTVerse} (h : Below u v) (h' : Below v w) : Below u w :=
  ⟨h'.retryPeriod.trans h.retryPeriod, h'.state.trans h.state, h'.timeout.trans h.timeout,
    h'.vastinfo.trans h.vastinfo, h'.client.trans h.client, h'.net ∘ h.net, h'.relay ∘ h.relay,
    h'.matcher ∘ h.matcher⟩

theorem below_notify (v : VASTVerse) (c : VerseCall) : Below v (v.notify c) := by
  rw [notify]
  split
  · exact ⟨rfl, rfl, rfl, rfl, rfl, id, id, id⟩
  · exact .refl v

theorem below_connect (v : VASTVerse) : Below v v.connect := by
  rw [connect]
  split
  · exact .refl v
  · have h := below_notify v .gatewayConnected
    exact ⟨h.retryPeriod, h.state, h.timeout, h.vastinfo, h.client, h.net, h.relay, h.matcher⟩

theorem below_isInitialized (env : VerseLayers) (v : VASTVerse) : Below v (v.isInitialized env).1 := by
  rw [isInitialized]
  split
  · exact ⟨rfl, rfl, rfl, rfl, rfl, fun _ => rfl, id, id⟩
  · split
    · exact .refl v
    · split
      · rename_i hrelay
        exact ⟨rfl, rfl, rfl, rfl, rfl, id, fun h => absurd (hrelay.symm.trans h) Bool.false_ne_true, id⟩
      · split
        · exact .refl v
        · split
          · exact ⟨rfl, rfl, rfl, rfl, rfl, id, id, fun _ => rfl⟩
          · exact .refl v

structure Up (env : VerseLayers) (v : VASTVerse) : Prop where
  net : v.net = true
  relay : v.relay = true
  matcher : v.matcher = true
  netJoined : env.netJoined = true
  relayJoined : env.relayJoined = true

theorem up_of_isInitialized (h : (v.isInitialized env).2 = true) : Up env (v.isInitialized env).1 := by
  rw [isInitialized] at h ⊢
  by_cases hnet : v.net = false
  · rw [if_pos hnet] at h
    cases h
  by_cases hjoined : env.netJoined = false
  · rw [if_neg hnet, if_pos hjoined] at h
    cases h
  by_cases hrelay : v.relay = false
  · rw [if_neg hnet, if_neg hjoined, if_pos hrelay] at h
    cases h
  by_cases hrejoined : env.relayJoined = false
  · rw [if_neg hnet, if_neg hjoined, if_neg hrelay, if_pos hrejoined] at h
    cases h
  rw [if_neg hnet, if_neg hjoined, if_neg hrelay, if_neg hrejoined]
  rw [Bool.not_eq_false] at hnet hjoined hrelay hrejoined
  split
  · exact ⟨hnet, hrelay, rfl, hjoined, hrejoined⟩
  · rename_i hmatcher
    exact ⟨hnet, hrelay, (Bool.not_eq_false _).mp hmatcher, hjoined, hrejoined⟩

theorem Up.isInitialized (h : Up env v) : v.isInitialized env = (v, true) := by
  obtain ⟨hnet, hrelay, hmatcher, hjoined, hrejoined⟩ := h
  simp [VASTVerse.isInitialized, hnet, hrelay, hmatcher, hjoined, hrejoined]

theorem Sound.below (h : v.Sound) (hw : Below v w) : w.Sound where
  client := by rw [hw.client, hw.state, h.client]
  info hs := hw.vastinfo ▸ h.info (hw.state ▸ hs)
  layers hs := (h.layers (hw.state ▸ hs)).imp hw.net (And.imp hw.relay hw.matcher)
  known := hw.state ▸ h.known
  timeout := by rw [hw.timeout, hw.retryPeriod]; exact h.timeout

theorem Up.below (h : Up env v) (hw : Below v w) : Up env w :=
  ⟨hw.net h.net, hw.relay h.relay, hw.matcher h.matcher, h.netJoined, h.relayJoined⟩

theorem Up.createClient (h : Up env v) (hc : v.client = false) (worldId : UInt16) :
    v.createClient env worldId =
      if env.matcherJoined = false then (v.call .matcherJoin, false)
      else ({ v.call (.clientJoin worldId) with client := true }, true) := by
  rw [VASTVerse.createClient, h.isInitialized, hc]
  rfl

theorem Sound.of_up (h : Up env v) (hc : v.client = true ↔ v.state ≠ .absent) (hi : v.vastinfo ≠ [])
    (hk : v.state ≠ .querying) (ht : v.timeout ≤ v.retryPeriod) : v.Sound :=
  ⟨hc, fun _ => hi, fun _ => ⟨h.net, h.relay, h.matcher⟩, hk, ht⟩

theorem Sound.advance (h : v.Sound) (hu : Up env v) (hi : v.vastinfo ≠ []) (info : VASTNodeInfo) :
    (v.advance env v.retryPeriod info).Sound := by
  have hlayers {w : VASTVerse} (hn : w.net = v.net) (hr : w.relay = v.relay) (hm : w.matcher = v.matcher) :
      Up env w := ⟨hn ▸ hu.net, hr ▸ hu.relay, hm ▸ hu.matcher, hu.netJoined, hu.relayJoined⟩
  unfold VASTVerse.advance
  split
  · rename_i hs
    have hc : v.client = false := by
      rw [← Bool.not_eq_true, h.client, not_not]
      exact hs
    rw [hu.createClient hc]
    by_cases hm : env.matcherJoined = false
    · rw [if_pos hm]
      exact h.below ⟨rfl, rfl, rfl, rfl, rfl, id, id, id⟩
    · rw [if_neg hm]
      refine .of_up (hlayers rfl rfl rfl) (iff_of_true rfl NodeState.noConfusion) hi NodeState.noConfusion h.timeout
  · rename_i hs
    have hc : v.client = true := h.client.mpr (hs ▸ NodeState.noConfusion)
    split
    · exact .of_up (hlayers rfl rfl rfl) (iff_of_true hc NodeState.noConfusion) hi NodeState.noConfusion h.timeout
    · rw [await]
      split
      · rw [destroyClient, if_pos hu.net]
        exact .of_up (hlayers rfl rfl rfl) (iff_of_false Bool.false_ne_true (not_not.mpr rfl)) hi
          NodeState.noConfusion (Nat.zero_le _)
      · rename_i ht
        exact .of_up (hlayers rfl rfl rfl) h.client hi h.known (Nat.not_lt.mp ht)
  · rename_i hs
    have hc : v.client = true := h.client.mpr (hs ▸ NodeState.noConfusion)
    split
    · exact Sound.below (.of_up (v := { v with state := .joined }) (hlayers rfl rfl rfl)
        (iff_of_true hc NodeState.noConfusion) hi NodeState.noConfusion h.timeout) (below_notify _ _)
    · rw [await]
      split
      · exact .of_up (hlayers rfl rfl rfl) (iff_of_true hc NodeState.noConfusion) hi NodeState.noConfusion
          (Nat.zero_le _)
      · rename_i ht
        exact .of_up (hlayers rfl rfl rfl) h.client hi h.known (Nat.not_lt.mp ht)
  · exact h

theorem Sound.tick (h : v.Sound) (env : VerseLayers) : (v.tick env).Sound := by
  have hinit := below_isInitialized env v
  rw [VASTVerse.tick]
  dsimp only
  split
  · rename_i hready
    have hup := up_of_isInitialized hready
    have hnet : v.net = true := by
      by_contra hn
      rw [isInitialized, if_pos (Bool.not_eq_true _ ▸ hn)] at hready
      cases hready
    rw [if_pos hnet]
    generalize (v.isInitialized env).1 = u at *
    have hbelow := hinit.trans (below_connect u)
    have hsound := h.below hbelow
    have hup := hup.below (below_connect u)
    have hperiod := hbelow.retryPeriod
    generalize u.connect = w at *
    split
    · rename_i hinfo
      split
      · exact hsound
      · rw [← hperiod]
        exact hsound.advance hup (hinfo ▸ List.cons_ne_nil _ _) _
    · rename_i hinfo
      split
      · rename_i hs
        exact absurd hinfo (hsound.info (hs ▸ NodeState.noConfusion))
      · exact hsound
  · exact h.below hinit

/-- `destroyVASTNode` with a node: the client goes, and the state with it where the layers stand. -/
structure Destroyed (env : VerseLayers) (v w : VASTVerse) : Prop where
  retryPeriod : w.retryPeriod = v.retryPeriod
  timeout : w.timeout = v.timeout
  vastinfo : w.vastinfo = []
  client : w.client = false
  layers : w.net = true ∧ w.relay = true ∧ w.matcher = true
  state : w.state = if env.netJoined = true ∧ env.relayJoined = true then .absent else .joined

theorem Destroyed.below {u w : VASTVerse} (h : Below u w) (hperiod : u.retryPeriod = v.retryPeriod)
    (htime : u.timeout = v.timeout) (hinfo : u.vastinfo = [])
    (hlayers : u.net = true ∧ u.relay = true ∧ u.matcher = true)
    (hs : u.state = if env.netJoined = true ∧ env.relayJoined = true then .absent else .joined) :
    Destroyed env v w.destroyClient.1 ∧ w.destroyClient.2 = true := by
  rw [destroyClient, if_pos (h.net hlayers.1)]
  exact ⟨⟨h.retryPeriod.trans hperiod, h.timeout.trans htime, h.vastinfo.trans hinfo, rfl,
    hlayers.imp h.net (And.imp h.relay h.matcher), h.state.trans hs⟩, rfl⟩

theorem Sound.destroyed (h : v.Sound) (hn : v.getVASTNode = true) (env : VerseLayers) :
    Destroyed env v (v.destroyVASTNode env).1 ∧ (v.destroyVASTNode env).2 = true := by
  obtain ⟨hs, hc⟩ := Bool.and_eq_true_iff.mp hn
  have hs := beq_iff_eq.mp hs
  have hpresent : v.state ≠ .absent := hs ▸ NodeState.noConfusion
  have hlayers := h.layers hpresent
  rw [destroyVASTNode, if_pos hn]
  dsimp only
  have hinfo : (v.call .clientLeave).vastinfo ≠ [] := h.info hpresent
  rw [if_neg hinfo, VASTVerse.tick]
  generalize hw : ({ v.call .clientLeave with vastinfo := [] } : VASTVerse) = w
  have hwl : w.net = true ∧ w.relay = true ∧ w.matcher = true := hw ▸ hlayers
  have hws : w.state = .joined := hw ▸ hs
  have hwi : w.vastinfo = [] := hw ▸ rfl
  have hwp : w.retryPeriod = v.retryPeriod := hw ▸ rfl
  have hwt : w.timeout = v.timeout := hw ▸ rfl
  by_cases hjoined : env.netJoined = true ∧ env.relayJoined = true
  · have hup : Up env w := ⟨hwl.1, hwl.2.1, hwl.2.2, hjoined.1, hjoined.2⟩
    have hconn := below_connect w
    rw [hup.isInitialized]
    dsimp only
    rw [if_pos rfl]
    generalize w.connect = u at *
    rw [hconn.vastinfo.trans hwi]
    dsimp only
    rw [if_pos (hconn.state.trans hws)]
    exact Destroyed.below (below_notify { u with state := .absent, vastinfo := [] } .nodeLeft)
      (hconn.retryPeriod.trans hwp) (hconn.timeout.trans hwt) rfl
      (hwl.imp hconn.net (And.imp hconn.relay hconn.matcher)) (if_pos hjoined).symm
  · have hready : ¬ (w.isInitialized env).2 = true := fun hr =>
      hjoined ⟨(up_of_isInitialized hr).netJoined, (up_of_isInitialized hr).relayJoined⟩
    dsimp only
    rw [if_neg hready]
    exact Destroyed.below (below_isInitialized env w) hwp hwt hwi hwl (hws.trans (if_neg hjoined).symm)

/-- The same layers under a node that was never created. -/
def renewed (v : VASTVerse) : VASTVerse := { v with state := .absent, timeout := 0, vastinfo := [], client := false }

/-- Whatever is asked for later is carried out as if no node had been created before. -/
def AsFresh (v : VASTVerse) : Prop :=
  ∀ es : List Event, (es.foldl step v).state = (es.foldl step v.renewed).state ∧
    (es.foldl step v).calls = (es.foldl step v.renewed).calls

def Held (v : VASTVerse) : Prop :=
  v.state = .joining ∨ v.state = .joining2 ∨ v.state = .joined → v.client = true

def Lives (v : VASTVerse) (e : Event) : Prop :=
  (v.step e).Held ∧
    match e with
    | .destroy env => (v.destroyVASTNode env).2 = true → (v.step e).state = .absent ∧ (v.step e).AsFresh
    | _ => True

/-- The node is destroyed while the network and the relay are joined, and no attempt to join has
left a part of its time behind. -/
def Keeps (v : VASTVerse) : Event → Prop
  | .destroy env => v.getVASTNode = true → env.netJoined = true ∧ env.relayJoined = true ∧ v.timeout = 0
  | _ => True

/-- The layers answer, the client does not come to join. -/
def stalled : VerseLayers where
  netJoined := true
  gatewayValid := true
  hostIdAssigned := true
  relayJoined := true
  matcherJoined := true
  clientJoined := false
  subscribed := false

structure Waiting (k : Nat) (v : VASTVerse) : Prop where
  state : v.state = .joining
  info : v.vastinfo ≠ []
  up : Up stalled v
  timeout : v.timeout = k

theorem tick_of_up (h : Up env v) {info : VASTNodeInfo} {rest : List VASTNodeInfo}
    (hi : v.vastinfo = info :: rest) (hs : v.state ≠ .joined) :
    v.tick env = v.connect.advance env v.retryPeriod info := by
  have hconn := below_connect v
  have hne : v.connect.state ≠ .joined := hconn.state ▸ hs
  rw [VASTVerse.tick, h.isInitialized]
  dsimp only
  rw [if_pos rfl, hconn.vastinfo.trans hi, if_pos h.net]
  exact if_neg hne

theorem Waiting.tick {k : Nat} (h : Waiting k v) :
    if v.retryPeriod < k + 1 then (v.tick stalled).state = .absent
    else Waiting (k + 1) (v.tick stalled) ∧ (v.tick stalled).retryPeriod = v.retryPeriod := by
  obtain ⟨info, rest, hi⟩ := List.exists_cons_of_ne_nil h.info
  have hconn := below_connect v
  rw [tick_of_up h.up hi (h.state ▸ NodeState.noConfusion)]
  generalize v.connect = w at *
  have hs : w.state = .joining := hconn.state.trans h.state
  have ht : w.timeout = k := hconn.timeout.trans h.timeout
  have hadvance : w.advance stalled v.retryPeriod info =
      w.await v.retryPeriod (fun v => { v.destroyClient.1 with state := .absent }) := by
    unfold VASTVerse.advance
    rw [hs]
    rfl
  rw [hadvance, await, ht]
  split
  · rfl
  · have hup := h.up.below hconn
    exact ⟨⟨hs, hconn.vastinfo ▸ h.info, ⟨hup.net, hup.relay, hup.matcher, rfl, rfl⟩, rfl⟩, hconn.retryPeriod⟩

def stalledRun (n : Nat) : List Event :=
  .create ⟨0, {}, 0⟩ :: .tick stalled :: List.replicate n (.tick stalled)

theorem Waiting.run {k n : Nat} (h : Waiting k v) (hk : k + n ≤ v.retryPeriod) :
    Waiting (k + n) ((List.replicate n (Event.tick stalled)).foldl step v) ∧
      ((List.replicate n (Event.tick stalled)).foldl step v).retryPeriod = v.retryPeriod := by
  induction n generalizing k v with
  | zero => exact ⟨h, rfl⟩
  | succ n ih =>
    have htick := h.tick
    rw [if_neg (by omega)] at htick
    obtain ⟨hw, hp⟩ := htick
    have hrest := ih hw (by rw [hp]; omega)
    rw [List.replicate_succ, List.foldl_cons, step, ← Nat.add_assoc, Nat.add_right_comm]
    exact ⟨hrest.1, hrest.2.trans hp⟩

theorem Waiting.of_created (hs : v.state = .absent) (hi : v.vastinfo = []) (hc : v.client = false)
    (hl : v.net = true ∧ v.relay = true ∧ v.matcher = true) :
    Waiting v.timeout ((v.createVASTNode ⟨0, {}, 0⟩).tick stalled) ∧
      ((v.createVASTNode ⟨0, {}, 0⟩).tick stalled).retryPeriod = v.retryPeriod := by
  have hup : Up stalled { v with vastinfo := [⟨0, {}, 0⟩] } := ⟨hl.1, hl.2.1, hl.2.2, rfl, rfl⟩
  have hne : ({ v with vastinfo := [⟨0, {}, 0⟩] } : VASTVerse).state ≠ .joined := hs ▸ NodeState.noConfusion
  rw [createVASTNode, if_pos hi, tick_of_up hup rfl hne]
  have hconn := below_connect { v with vastinfo := [⟨0, {}, 0⟩] }
  generalize VASTVerse.connect _ = w at *
  have hup := hup.below hconn
  have hadvance : w.advance stalled v.retryPeriod ⟨0, {}, 0⟩ =
      { w.call (.clientJoin 0) with client := true, state := .joining } := by
    unfold VASTVerse.advance
    rw [hconn.state.trans hs]
    dsimp only
    rw [hup.createClient (hconn.client.trans hc)]
    rfl
  rw [hadvance]
  exact ⟨⟨rfl, hconn.vastinfo ▸ List.cons_ne_nil _ _, ⟨hup.net, hup.relay, hup.matcher, rfl, rfl⟩, hconn.timeout⟩,
    hconn.retryPeriod⟩

theorem stalledRun_waiting {n : Nat} (hs : v.state = .absent) (hi : v.vastinfo = []) (hc : v.client = false)
    (hl : v.net = true ∧ v.relay = true ∧ v.matcher = true) (hn : v.timeout + n ≤ v.retryPeriod) :
    Waiting (v.timeout + n) ((stalledRun n).foldl step v) ∧
      ((stalledRun n).foldl step v).retryPeriod = v.retryPeriod := by
  obtain ⟨hw, hp⟩ := Waiting.of_created hs hi hc hl
  have hrun := hw.run (n := n) (hp ▸ hn)
  exact ⟨hrun.1, hrun.2.trans hp⟩

/-- The time that an attempt to join has left behind is missing in the next. -/
theorem asFresh_iff (hs : v.state = .absent) (hi : v.vastinfo = []) (hc : v.client = false)
    (hl : v.net = true ∧ v.relay = true ∧ v.matcher = true) (ht : v.timeout ≤ v.retryPeriod) :
    v.AsFresh ↔ v.timeout = 0 := by
  constructor
  · intro h
    by_contra hne
    have hearly := stalledRun_waiting (n := v.retryPeriod - v.timeout) hs hi hc hl (by omega)
    have hlate := stalledRun_waiting (v := v.renewed) (n := v.retryPeriod - v.timeout + 1) rfl rfl rfl hl
      (show 0 + _ ≤ v.retryPeriod by omega)
    have habsent := hearly.1.tick
    rw [if_pos (by rw [hearly.2]; omega)] at habsent
    have hsame := (h (stalledRun (v.retryPeriod - v.timeout + 1))).1
    have hsplit : stalledRun (v.retryPeriod - v.timeout + 1) =
        stalledRun (v.retryPeriod - v.timeout) ++ [.tick stalled] := by
      rw [stalledRun, stalledRun, List.replicate_succ', List.cons_append, List.cons_append]
    rw [hlate.1.state, hsplit, List.foldl_append] at hsame
    exact NodeState.noConfusion (habsent.symm.trans hsame)
  · intro h
    have hv : v.renewed = v := by
      rw [renewed, ← h, ← hs, ← hi, ← hc]
    intro es
    rw [hv]
    exact ⟨rfl, rfl⟩

theorem Sound.held (h : v.Sound) : v.Held := by
  rintro (hs | hs | hs)
  · exact h.client.mpr (hs ▸ NodeState.noConfusion)
  · exact h.client.mpr (hs ▸ NodeState.noConfusion)
  · exact h.client.mpr (hs ▸ NodeState.noConfusion)

theorem Sound.create (h : v.Sound) (info : VASTNodeInfo) : (v.createVASTNode info).Sound := by
  rw [createVASTNode]
  split
  · exact ⟨h.client, fun _ => List.cons_ne_nil _ _, h.layers, h.known, h.timeout⟩
  · exact h

theorem step_destroy_of_none (hn : ¬ v.getVASTNode = true) (env : VerseLayers) :
    v.destroyVASTNode env = (v, false) := by
  rw [destroyVASTNode, if_neg hn]

theorem Sound.step (h : v.Sound) (e : Event) (hk : v.Keeps e) : (v.step e).Sound := by
  cases e with
  | create info => exact h.create info
  | destroy env =>
    by_cases hn : v.getVASTNode = true
    · have hd := (h.destroyed hn env).1
      obtain ⟨hnet, hrelay, -⟩ := hk hn
      have hs := hd.state.trans (if_pos ⟨hnet, hrelay⟩)
      exact ⟨by simp [VASTVerse.step, hd.client, hs], fun hp => absurd hs hp, fun hp => absurd hs hp,
        fun hq => NodeState.noConfusion (hs.symm.trans hq), by
          rw [VASTVerse.step, hd.timeout, hd.retryPeriod]
          exact h.timeout⟩
    · rw [VASTVerse.step, step_destroy_of_none hn]
      exact h
  | tick env => exact h.tick env

theorem lives_iff (h : v.Sound) (e : Event) : v.Lives e ↔ v.Keeps e := by
  cases e with
  | create info => exact iff_of_true ⟨(h.create info).held, trivial⟩ trivial
  | tick env => exact iff_of_true ⟨(h.tick env).held, trivial⟩ trivial
  | destroy env =>
    by_cases hn : v.getVASTNode = true
    · obtain ⟨hd, htrue⟩ := h.destroyed hn env
      constructor
      · rintro ⟨-, hl⟩ -
        obtain ⟨hs, hfresh⟩ := hl htrue
        have hjoined : env.netJoined = true ∧ env.relayJoined = true := by
          by_contra hj
          exact NodeState.noConfusion (hs.symm.trans (hd.state.trans (if_neg hj)))
        refine ⟨hjoined.1, hjoined.2, ?_⟩
        have hle : (v.step (.destroy env)).timeout ≤ (v.step (.destroy env)).retryPeriod := by
          rw [VASTVerse.step, hd.timeout, hd.retryPeriod]
          exact h.timeout
        exact hd.timeout.symm.trans ((asFresh_iff hs hd.vastinfo hd.client hd.layers hle).mp hfresh)
      · intro hk
        have hsound := h.step (.destroy env) hk
        obtain ⟨hnet, hrelay, ht⟩ := hk hn
        have hs := hd.state.trans (if_pos ⟨hnet, hrelay⟩)
        refine ⟨hsound.held, fun _ => ⟨hs, ?_⟩⟩
        exact (asFresh_iff hs hd.vastinfo hd.client hd.layers hsound.timeout).mpr (hd.timeout.trans ht)
    · refine iff_of_true ?_ fun hc => absurd hc hn
      rw [Lives, VASTVerse.step, step_destroy_of_none hn]
      exact ⟨h.held, fun hc => absurd hc Bool.false_ne_true⟩

theorem node_life_cycle_iff (retryPeriod : Nat) (callback : Bool) (es : List Event) :
    StepRun.Always step (fun v => Alternates true (nodeCallbacks v.calls)) { retryPeriod, callback } es ∧
      (StepRun.Along step Lives { retryPeriod, callback } es ↔
        StepRun.Along step Keeps { retryPeriod, callback } es) := by
  have hbalanced : Balanced { retryPeriod, callback } :=
    ⟨trivial, fun _ => iff_of_true rfl NodeState.noConfusion⟩
  have hsound : Sound { retryPeriod, callback } :=
    ⟨iff_of_false Bool.false_ne_true (not_not.mpr rfl), fun hs => absurd rfl hs, fun hs => absurd rfl hs,
      NodeState.noConfusion, Nat.zero_le _⟩
  constructor
  · have hruns := StepRun.always_of_step (fun v e (h : Balanced v) => h.step e) es hbalanced
    exact fun pre hpre => (hruns pre hpre).alternates
  · exact StepRun.along_iff_along (fun v e h hk => h.step e hk) (fun v e h => lives_iff h e) hsound

def settled : VerseLayers := { stalled with clientJoined := true, subscribed := true }

def joinedRun : List Event := .create ⟨1, {}, 1⟩ :: List.replicate 5 (.tick settled)

theorem node_destroyed_offline :
    ¬ StepRun.Along step Lives { retryPeriod := 1000, callback := true }
      (joinedRun ++ [.destroy { settled with netJoined := false }]) := by
  intro h
  have hclient := h.last.1 (.inr (.inr (by decide)))
  exact absurd hclient (by decide)

end VASTVerse

end VastNC
