import VastNC.RelayQueries
import VastNC.RelayRouting
import VastNC.Lib.StableQueue

/-! The relays of a `VASTRelay` in the order of their distance. The distance of a relay is taken
when it is added; the coordinate that a later `PONG` brings may be at another one. -/

namespace VastNC

namespace VASTRelay

section Tables

variable {K : Type} {p q r : VASTRelay K} {L : Nat} {id : UInt64}

/-- From the node's own coordinate to the one that is recorded for the relay. -/
def distanceTo (p : VASTRelay K) (id : UInt64) : K :=
  p.metric.distance (p.nodeOf id).aoi.center p.self.aoi.center

def Current (p : VASTRelay K) : Prop := ∀ e ∈ p.dist2relay, e.1 = p.distanceTo e.2

/-- Relays may have been removed, and nothing else has happened to the tables. -/
structure Shrinks (p q : VASTRelay K) : Prop where
  metric : q.metric = p.metric
  self : q.self = p.self
  list : q.dist2relay.Sublist p.dist2relay
  nodes : ∀ (id : UInt64) (x : Node), q.relays[id]? = some x → p.relays[id]? = some x

theorem Shrinks.refl (p : VASTRelay K) : Shrinks p p := ⟨rfl, rfl, .refl _, fun _ _ => id⟩

theorem Shrinks.trans (h : Shrinks p q) (h' : Shrinks q r) : Shrinks p r where
  metric := h'.metric.trans h.metric
  self := h'.self.trans h.self
  list := h'.list.trans h.list
  nodes id x hx := h.nodes id x (h'.nodes id x hx)

theorem Shrinks.frame (h : Shrinks p q) (hm : r.metric = q.metric) (hs : r.self = q.self)
    (hl : r.dist2relay = q.dist2relay) (hn : r.relays = q.relays) : Shrinks p r where
  metric := hm.trans h.metric
  self := hs.trans h.self
  list := hl ▸ h.list
  nodes := hn ▸ h.nodes

theorem shrinks_forget (p : VASTRelay K) (id : UInt64) : Shrinks p (p.forget id) := by
  rw [forget]
  split
  · exact (Shrinks.refl p).frame rfl rfl rfl rfl
  · split
    · exact (Shrinks.refl p).frame rfl rfl rfl rfl
    · exact .refl p

theorem shrinks_removeRelay (p : VASTRelay K) (id : UInt64) : Shrinks p (p.removeRelay id) := by
  rw [removeRelay]
  split
  · have hf := p.shrinks_forget id
    generalize p.forget id = q at hf
    have herase : Shrinks p
        { q with dist2relay := q.dist2relay.eraseP (fun e => e.2 == id), relays := q.relays.erase id } := by
      refine hf.trans ⟨rfl, rfl, List.eraseP_sublist, fun j x hx => ?_⟩
      dsimp only at hx
      rw [Std.ExtTreeMap.getElem?_erase] at hx
      split at hx
      · cases hx
      · exact hx
    dsimp only
    split
    · split
      · exact herase.frame rfl rfl rfl rfl
      · exact herase.frame rfl rfl rfl rfl
    · split
      · exact hf.frame rfl rfl rfl rfl
      · exact hf.frame rfl rfl rfl rfl
  · exact .refl p

theorem shrinks_removeRelays (p : VASTRelay K) (l : List UInt64) : Shrinks p (l.foldl removeRelay p) :=
  List.foldlRecOn l _ (.refl p) fun q hq id _ => hq.trans (q.shrinks_removeRelay id)

theorem Shrinks.sendRelay (h : Shrinks p q) (targets : List UInt64) (call : RelayCall) :
    Shrinks p (q.sendRelay targets call).1 := by
  rw [VASTRelay.sendRelay]
  split
  · exact h
  · have hs : Shrinks p (q.send call) := h.frame rfl rfl rfl rfl
    exact hs.trans (shrinks_removeRelays _ _)

theorem Shrinks.nextRelay (h : Shrinks p q) : Shrinks p q.nextRelay.1 := by
  rw [VASTRelay.nextRelay]
  split
  · split
    · exact h
    · exact h.frame rfl rfl rfl rfl
  · exact h.frame rfl rfl rfl rfl

theorem Shrinks.joinRelay (h : Shrinks p q) (now : UInt64) : Shrinks p (q.joinRelay now) := by
  rw [VASTRelay.joinRelay]
  split
  · exact h
  · dsimp only
    split
    · exact h.nextRelay
    · exact (h.nextRelay.sendRelay _ _).frame rfl rfl rfl rfl

theorem Shrinks.setJoined (h : Shrinks p q) (relayId : UInt64) : Shrinks p (q.setJoined relayId) := by
  rw [VASTRelay.setJoined]
  split
  · exact h.frame rfl rfl rfl rfl
  · split
    · exact h.frame rfl rfl rfl rfl
    · exact h

theorem Shrinks.pong (h : Shrinks p q) (target : UInt64) (first : Bool) : Shrinks p (q.pong target first) := by
  rw [VASTRelay.pong]
  apply Shrinks.sendRelay
  split
  · exact h
  · exact h.frame rfl rfl rfl rfl

theorem Shrinks.ping (h : Shrinks p q) (now : UInt64) (currRelayOnly : Bool) :
    Shrinks p (q.ping now currRelayOnly) := by
  rw [VASTRelay.ping]
  apply Shrinks.sendRelay
  exact h.frame rfl rfl rfl rfl

theorem Shrinks.sendRelayList (h : Shrinks p q) (target : UInt64) : Shrinks p (q.sendRelayList target) := by
  rw [VASTRelay.sendRelayList]
  split
  · exact h
  · exact h.frame rfl rfl rfl rfl

theorem Shrinks.handleQuery (h : Shrinks p q) (joiner : Node) (forwarder : Addr) (fuel : Nat) :
    Shrinks p (handleQuery joiner forwarder fuel q) := by
  induction fuel generalizing q with
  | zero => exact h.frame rfl rfl rfl rfl
  | succ fuel ih =>
    rw [VASTRelay.handleQuery]
    dsimp only
    split
    · exact h.sendRelay _ _
    · split
      · exact h.sendRelay _ _
      · exact ih (h.sendRelay _ _)

theorem Shrinks.forward (h : Shrinks p q) (now : UInt64) (msg : Message) : Shrinks p (q.forward now msg) := by
  rw [VASTRelay.forward]
  have hq : ∀ l : List UInt64, Shrinks p (l.foldl (enqueue now msg) q) := fun l =>
    List.foldlRecOn l _ h fun s hs target _ => hs.frame rfl rfl rfl rfl
  split
  · exact hq _
  · exact (hq _).frame rfl rfl rfl rfl

theorem Shrinks.queryRelay (h : Shrinks p q) (now : UInt64) : Shrinks p (q.queryRelay now) := by
  have hq : Shrinks p { q with timeoutQuery := now + q.timing.query } := h.frame rfl rfl rfl rfl
  rw [VASTRelay.queryRelay]
  split
  · dsimp only
    split
    · exact hq.nextRelay.frame rfl rfl rfl rfl
    · split
      · exact (hq.nextRelay.sendRelay _ _).frame rfl rfl rfl rfl
      · exact hq.nextRelay.sendRelay _ _
  · exact h

theorem Directory.shrinks_cleanupRelays (h : Directory L p) : Shrinks p p.cleanupRelays := by
  rcases h.cleanupRelays_cases with ⟨heq, -⟩ | ⟨curr, r, -, -, -, heq⟩
  · rw [heq]
    exact .refl p
  · rw [heq]
    exact p.shrinks_removeRelays r

theorem Shrinks.nodeOf (h : Shrinks p q) (hid : id ∈ q.relays) : q.nodeOf id = p.nodeOf id := by
  obtain ⟨x, hx⟩ := Option.isSome_iff_exists.mp (Std.ExtTreeMap.mem_iff_isSome_getElem?.mp hid)
  rw [VASTRelay.nodeOf, VASTRelay.nodeOf, hx, h.nodes id x hx]

theorem Shrinks.distanceTo (h : Shrinks p q) (hid : id ∈ q.relays) : q.distanceTo id = p.distanceTo id := by
  rw [VASTRelay.distanceTo, VASTRelay.distanceTo, h.nodeOf hid, h.metric, h.self]

/-- The coordinate that a `PONG` or `PONG_2` brings is as far away as the one it replaces, unless
the sender is not known, or is removed in the same step. -/
def Fresh (p : VASTRelay K) : Event → Prop
  | .message now sender (.pong initial querytime coord) =>
    now ≠ querytime → sender ∈ p.relays → (initial = true → p.fails p.net.length sender = false) →
      p.metric.distance coord p.self.aoi.center = p.distanceTo sender
  | _ => True

/-- `PONG` and `PONG_2` record the coordinate of a known relay. -/
def recordCoord (p : VASTRelay K) (sender : UInt64) (coord : Position) : VASTRelay K :=
  { p with
    tempCoord := p.self.aoi.center
    relays := if sender ∈ p.relays then
        let relay := p.nodeOf sender
        p.relays.insert sender { relay with aoi := { relay.aoi with center := coord } }
      else p.relays }

theorem handleMessage_pong (p : VASTRelay K) (now sender : UInt64) (initial : Bool) (querytime : UInt64)
    (coord : Position) : p.handleMessage now sender (.pong initial querytime coord) =
      if now = querytime then p.removeRelay sender
      else if initial then (p.recordCoord sender coord).pong sender false else p.recordCoord sender coord := rfl

theorem recordCoord_getElem? {sender : UInt64} (hs : sender ∈ p.relays) (coord : Position) (id : UInt64) :
    (p.recordCoord sender coord).relays[id]? = if sender = id then
        some { p.nodeOf sender with aoi := { (p.nodeOf sender).aoi with center := coord } }
      else p.relays[id]? := by
  rw [recordCoord]
  dsimp only
  rw [if_pos hs, Std.ExtTreeMap.getElem?_insert]
  simp only [Std.compare_eq_iff_eq]

theorem distanceTo_recordCoord {sender : UInt64} (hs : sender ∈ p.relays) (coord : Position) (id : UInt64) :
    (p.recordCoord sender coord).distanceTo id =
      if sender = id then p.metric.distance coord p.self.aoi.center else p.distanceTo id := by
  rw [distanceTo, nodeOf, recordCoord_getElem? hs]
  split
  · rfl
  · rfl

/-- Where the sender is gone in the end, its coordinate does not matter. -/
theorem shrinks_recordCoord {sender : UInt64} {coord : Position} (hq : Shrinks (p.recordCoord sender coord) q)
    (hgone : sender ∉ q.relays) : Shrinks p q where
  metric := hq.metric
  self := hq.self
  list := hq.list
  nodes id x hx := by
    have hid := hq.nodes id x hx
    by_cases hs : sender ∈ p.relays
    · rw [recordCoord_getElem? hs, if_neg] at hid
      · exact hid
      · rintro rfl
        exact hgone (Std.ExtTreeMap.mem_iff_isSome_getElem?.mpr (by rw [hx]; rfl))
    · rw [recordCoord] at hid
      dsimp only at hid
      rwa [if_neg hs] at hid

theorem recordCoord_unknown {sender : UInt64} (hs : sender ∉ p.relays) (coord : Position) :
    Shrinks p (p.recordCoord sender coord) := by
  refine (Shrinks.refl p).frame rfl rfl rfl ?_
  rw [recordCoord]
  dsimp only
  rw [if_neg hs]

theorem Directory.recordCoord (h : Directory L p) (sender : UInt64) (coord : Position) :
    Directory L (p.recordCoord sender coord) :=
  h.handlePong coord sender

theorem Directory.pong_gone (h : Directory L p) {sender : UInt64} (hf : p.fails p.net.length sender = true) :
    sender ∉ (p.pong sender false).relays := by
  have hp : Directory L { p with pending := p.pending.erase sender } := h.frame rfl rfl rfl rfl rfl rfl rfl
  rw [VASTRelay.pong, if_neg Bool.false_ne_true]
  rcases sendRelay_single { p with pending := p.pending.erase sender } sender (.pong sender false) with
    ⟨hacc, -⟩ | ⟨-, hsend⟩
  · rw [hf] at hacc
    cases hacc
  · rw [hsend]
    exact (hp.send _).removeRelay_gone sender

/-- A reply that arrives leaves the tables as they are. -/
theorem pong_sent (p : VASTRelay K) {sender : UInt64} (hf : p.fails p.net.length sender = false) :
    (p.pong sender false).dist2relay = p.dist2relay ∧ (p.pong sender false).relays = p.relays ∧
      (p.pong sender false).metric = p.metric ∧ (p.pong sender false).self = p.self := by
  rw [VASTRelay.pong, if_neg Bool.false_ne_true]
  rcases sendRelay_single { p with pending := p.pending.erase sender } sender (.pong sender false) with
    ⟨-, hsend⟩ | ⟨hrej, -⟩
  · rw [hsend]
    exact ⟨rfl, rfl, rfl, rfl⟩
  · rw [hf] at hrej
    cases hrej

theorem current_congr (hd : q.dist2relay = p.dist2relay) (hr : q.relays = p.relays) (hm : q.metric = p.metric)
    (hs : q.self = p.self) : q.Current ↔ p.Current := by
  rw [Current, Current, hd]
  simp only [distanceTo, nodeOf, hr, hm, hs]

end Tables

section Order

variable {K : Type} [LinearOrder K] {p q : VASTRelay K} {L : Nat} {id : UInt64}

/-- The order of the multimap is that of the distances. -/
def ordered (p : VASTRelay K) : VASTRelay K :=
  { p with metric := { p.metric with lt := fun a b => decide (a < b) } }

structure Indexed (L : Nat) (p : VASTRelay K) : Prop where
  directory : Directory L p
  order : ∀ a b, p.metric.lt a b = decide (a < b)
  sorted : p.dist2relay.Pairwise (fun a b => a.1 ≤ b.1)
  current : p.Current

theorem insertByDist_eq {m : RelayMetric K} (hm : ∀ a b, m.lt a b = decide (a < b)) (e : K × UInt64)
    (l : List (K × UInt64)) : insertByDist m e l = l.orderedInsert (fun a b => a.1 < b.1) e := by
  have hlt : (fun x : K × UInt64 => !m.lt e.1 x.1) = fun x => decide ¬ e.1 < x.1 := by
    funext x
    rw [hm, decide_not]
  rw [List.orderedInsert_eq_take_drop, insertByDist, hlt]

theorem Indexed.shrink (h : Indexed L p) (hd : Directory L q) (hs : Shrinks p q) : Indexed L q where
  directory := hd
  order := hs.metric ▸ h.order
  sorted := h.sorted.sublist hs.list
  current e he := by
    rw [hs.distanceTo ((hd.keys e.2).mpr (List.mem_map_of_mem he))]
    exact h.current e (hs.list.subset he)

theorem Indexed.addRelay (h : Indexed L p) (now : UInt64) (relay : Node) :
    Indexed L (p.addRelay now relay) := by
  have hd := h.directory.addRelay now relay
  rw [VASTRelay.addRelay] at hd ⊢
  split
  · exact h
  · rename_i hid
    rw [if_neg hid] at hd
    dsimp only at hd ⊢
    generalize hrest : (if relay.id ∈ p.relays then p.dist2relay.eraseP (fun e => e.2 == relay.id)
      else p.dist2relay) = rest at hd ⊢
    have hsub : rest.Sublist p.dist2relay := by
      rw [← hrest]
      split
      · exact List.eraseP_sublist
      · exact .refl _
    have hperm := insertByDist_perm p.metric (p.metric.distance relay.aoi.center p.self.aoi.center, relay.id) rest
    have hnew : relay.id ∉ rest.map Prod.snd := by
      have hnd := (hperm.map Prod.snd).nodup_iff.mp hd.nodup
      exact (List.nodup_cons.mp hnd).1
    refine ⟨hd, h.order, ?_, fun e he => ?_⟩
    · dsimp only
      rw [insertByDist_eq h.order]
      have hrest : rest.Pairwise (fun a b => a.1 ≤ b.1) := h.sorted.sublist hsub
      exact StableQueue.pairwise_orderedInsert _ hrest
    · rcases List.mem_cons.mp (hperm.mem_iff.mp he) with rfl | he
      · rw [distanceTo, nodeOf]
        dsimp only
        rw [Std.ExtTreeMap.getElem?_insert_self, Option.getD_some]
      · have hne : relay.id ≠ e.2 := fun heq => hnew (heq ▸ List.mem_map_of_mem he)
        have hnode : (p.relays.insert relay.id { relay with time := now })[e.2]? = p.relays[e.2]? := by
          rw [Std.ExtTreeMap.getElem?_insert, if_neg fun hc => hne (Std.compare_eq_iff_eq.mp hc)]
        rw [h.current e (hsub.subset he), distanceTo, distanceTo, nodeOf, nodeOf]
        dsimp only
        rw [hnode]

theorem Indexed.addRelays (h : Indexed L p) (now : UInt64) (l : List Node) :
    Indexed L (l.foldl (VASTRelay.addRelay now) p) :=
  List.foldlRecOn l _ h fun _ hq relay _ => hq.addRelay now relay

/-- The keys stay current exactly if the distance of the sender has stayed what it was. -/
theorem Indexed.recordCoord_iff (h : Indexed L p) {sender : UInt64} (hs : sender ∈ p.relays)
    (coord : Position) :
    (p.recordCoord sender coord).Current ↔
      p.metric.distance coord p.self.aoi.center = p.distanceTo sender := by
  constructor
  · intro hc
    obtain ⟨e, he, rfl⟩ := List.mem_map.mp ((h.directory.keys sender).mp hs)
    have hkey := hc e he
    rw [distanceTo_recordCoord hs, if_pos rfl] at hkey
    rw [← hkey]
    exact h.current e he
  · intro hd e he
    rw [distanceTo_recordCoord hs]
    split
    · rename_i heq
      rw [hd, heq]
      exact h.current e he
    · exact h.current e he

theorem Indexed.handlePong (h : Indexed L p) (now sender : UInt64) (initial : Bool) (querytime : UInt64)
    (coord : Position) :
    (p.handleMessage now sender (.pong initial querytime coord)).Current ↔
      Fresh p (.message now sender (.pong initial querytime coord)) := by
  have hd := h.directory.handleMessage now sender (.pong initial querytime coord)
  rw [handleMessage_pong] at hd ⊢
  rw [Fresh]
  split at hd
  · rename_i heq
    rw [if_pos heq]
    exact iff_of_true (h.shrink hd (p.shrinks_removeRelay sender)).current fun hne => absurd heq hne
  · rename_i hne
    rw [if_neg hne]
    by_cases hs : sender ∈ p.relays
    · have hiff := h.recordCoord_iff hs coord
      cases initial with
      | false => exact hiff.trans ⟨fun hc _ _ _ => hc, fun hc => hc hne hs Bool.noConfusion⟩
      | true =>
        rw [if_pos rfl] at hd ⊢
        cases hf : p.fails p.net.length sender with
        | true =>
          -- the relay is removed behind the change of its coordinate
          have hgone : sender ∉ ((p.recordCoord sender coord).pong sender false).relays :=
            (h.directory.recordCoord sender coord).pong_gone hf
          have hq := shrinks_recordCoord ((Shrinks.refl _).pong sender false) hgone
          exact iff_of_true (h.shrink hd hq).current fun _ _ hr => absurd (hr rfl) Bool.noConfusion
        | false =>
          have hsent := pong_sent (p.recordCoord sender coord) hf
          obtain ⟨hl, hr, hm, hself⟩ := hsent
          rw [current_congr hl hr hm hself]
          exact hiff.trans ⟨fun hc _ _ _ => hc, fun hc => hc hne hs fun _ => rfl⟩
    · refine iff_of_true ?_ fun _ hin => absurd hin hs
      have hq := recordCoord_unknown hs coord
      cases initial with
      | false => exact (h.shrink hd hq).current
      | true => exact (h.shrink hd (hq.pong sender false)).current

theorem Indexed.pong (h : Indexed L p) {now sender : UInt64} {initial : Bool} {querytime : UInt64}
    {coord : Position} (hf : Fresh p (.message now sender (.pong initial querytime coord))) :
    Indexed L (p.handleMessage now sender (.pong initial querytime coord)) := by
  have hc := (h.handlePong now sender initial querytime coord).mpr hf
  have hd := h.directory.handleMessage now sender (.pong initial querytime coord)
  rw [handleMessage_pong] at hc hd ⊢
  split
  · exact h.shrink (h.directory.removeRelay sender).1 (p.shrinks_removeRelay sender)
  · rename_i hne
    rw [if_neg hne] at hc hd
    have hq : Shrinks (p.recordCoord sender coord)
        (if initial then (p.recordCoord sender coord).pong sender false else p.recordCoord sender coord) := by
      split
      · exact (Shrinks.refl _).pong sender false
      · exact .refl _
    exact ⟨hd, hq.metric ▸ h.order, h.sorted.sublist hq.list, hc⟩

theorem Indexed.joinRelay (h : Indexed L p) (now : UInt64) : Indexed L (p.joinRelay now) :=
  h.shrink (h.directory.joinRelay now) ((Shrinks.refl p).joinRelay now)

theorem Indexed.handleMessage (h : Indexed L p) (now sender : UInt64) (msg : RelayMessage)
    (hf : Fresh p (.message now sender msg)) : Indexed L (p.handleMessage now sender msg) := by
  have hd := h.directory.handleMessage now sender msg
  have hp := Shrinks.refl p
  cases msg with
  | pong initial querytime coord => exact h.pong hf
  | relay relays => exact h.addRelays now relays
  | queryR requester relay =>
    rw [VASTRelay.handleMessage]
    split
    · dsimp only
      split
      · exact ((h.addRelay now relay).addRelay now _).joinRelay now
      · exact (h.addRelay now relay).joinRelay now
    · split
      · exact h.shrink (h.directory.sendRelay _ _) (hp.sendRelay _ _)
      · exact h
  | ping => exact h.shrink hd ((hp.pong sender true).sendRelayList sender)
  | query joiner forwarder => exact h.shrink hd (hp.handleQuery joiner forwarder _)
  | join joiner isRelay =>
    refine h.shrink hd ?_
    rw [VASTRelay.handleMessage, handleJoin]
    apply Shrinks.sendRelayList
    split
    · exact hp.frame rfl rfl rfl rfl
    · exact hp.frame rfl rfl rfl rfl
  | joinR success =>
    refine h.shrink hd ?_
    rw [VASTRelay.handleMessage]
    split
    · exact hp
    · split
      · exact hp.joinRelay now
      · split
        · exact (hp.sendRelay _ _).setJoined 0
        · exact hp.setJoined sender
  | subscribeNotify subId clientHostId => exact h.shrink hd (hp.frame rfl rfl rfl rfl)
  | disconnect =>
    refine h.shrink hd ?_
    rw [VASTRelay.handleMessage]
    split
    · exact p.shrinks_removeRelay sender
    · exact hp.frame rfl rfl rfl rfl
  | other msg => exact h.shrink hd (hp.forward now _)

theorem Indexed.maintain (h : Indexed L p) (now : UInt64) : Indexed L (p.maintain now) := by
  have hq : Indexed L ({ p with timeoutPing := now + p.timing.keepalive }.useEntries now) := by
    have ht : Indexed L { p with timeoutPing := now + p.timing.keepalive } :=
      h.shrink (h.directory.frame rfl rfl rfl rfl rfl rfl rfl) ((Shrinks.refl p).frame rfl rfl rfl rfl)
    rw [useEntries]
    split
    · exact ht.addRelays now _
    · exact ht
  rw [VASTRelay.maintain]
  split
  · dsimp only
    split
    · exact hq
    · refine hq.shrink ?_ ?_
      · exact List.foldlRecOn _ _ (hq.directory.ping now _) fun s hs subId _ => hs.forwardMessage subId 0
      · exact List.foldlRecOn _ _ ((Shrinks.refl _).ping now _) fun s hs subId _ => hs.frame rfl rfl rfl rfl
  · exact h

theorem Indexed.advance (h : Indexed L p) (now : UInt64) : Indexed L (p.advance now) := by
  have hd := h.directory.advance now
  have hp := Shrinks.refl p
  rw [VASTRelay.advance] at hd ⊢
  cases hs : p.state with
  | absent =>
    rw [hs] at hd
    dsimp only at hd ⊢
    by_cases hr : p.relays.isEmpty = true
    · rw [if_pos hr] at hd ⊢
      -- the node's own coordinate changes only where no relay is known
      refine ⟨hd, h.order, h.sorted, fun e he => ?_⟩
      have hin := (h.directory.keys e.2).mpr (List.mem_map_of_mem he)
      rw [Std.ExtTreeMap.isEmpty_iff.mp hr] at hin
      exact absurd hin Std.ExtTreeMap.not_mem_empty
    · rw [if_neg hr] at hd ⊢
      refine h.shrink hd ?_
      split
      · exact hp.frame rfl rfl rfl rfl
      · exact hp
  | querying =>
    rw [hs] at hd
    refine h.shrink hd ?_
    dsimp only
    split
    · exact hp.frame rfl rfl rfl rfl
    · exact hp.queryRelay now
  | joining =>
    dsimp only
    split
    · exact h.joinRelay now
    · exact h
  | joining2 => exact h
  | joined => exact h

theorem Indexed.step (h : Indexed L p) (e : Event) (hf : Fresh p e) : Indexed L (p.step e) := by
  cases e with
  | message now sender msg => exact h.handleMessage now sender msg hf
  | postHandling now =>
    have ha := (h.maintain now).advance now
    exact ha.shrink ha.directory.cleanupRelays.1 ha.directory.shrinks_cleanupRelays

/-- What the order of the index is for, in one state. -/
structure IndexHolds (p : VASTRelay K) : Prop where
  current : p.Current
  cleanup : ∀ removed ∈ p.relays, removed ∉ p.cleanupRelays.relays → ∀ kept ∈ p.cleanupRelays.relays,
    p.currId ≠ some kept → p.distanceTo kept ≤ p.distanceTo removed
  first : p.contactRelay = none → ∀ id, p.nextRelay.2 = some id →
    ∀ relay ∈ p.relays, p.distanceTo id ≤ p.distanceTo relay

/-- In a state and in those that `postHandling` passes through on its way to `cleanupRelays`. -/
def IndexCurrent (p : VASTRelay K) : Prop :=
  IndexHolds p ∧ ∀ now, IndexHolds (p.maintain now) ∧ IndexHolds ((p.maintain now).advance now)

theorem Indexed.sorted_ids (h : Indexed L p) : p.ids.Pairwise (fun a b => p.distanceTo a ≤ p.distanceTo b) := by
  rw [ids, List.pairwise_map]
  refine h.sorted.imp_of_mem fun ha hb hle => ?_
  rwa [h.current _ ha, h.current _ hb] at hle

theorem Indexed.cleanup_far (h : Indexed L p) {removed kept : UInt64} (hr : removed ∈ p.relays)
    (hgone : removed ∉ p.cleanupRelays.relays) (hk : kept ∈ p.cleanupRelays.relays)
    (hcurr : p.currId ≠ some kept) : p.distanceTo kept ≤ p.distanceTo removed := by
  rcases h.directory.cleanupRelays_cases with ⟨heq, -⟩ | ⟨curr, r, hc, htake, -, heq⟩
  · rw [heq] at hgone
    exact absurd hr hgone
  · obtain ⟨hd, hids⟩ := h.directory.removeRelays r
    rw [heq, hd.keys, hids, h.directory.nodup.mem_sdiff_iff] at hgone hk
    have hremoved : removed ∈ r := by
      by_contra hno
      exact hgone ⟨(h.directory.keys removed).mp hr, hno⟩
    generalize hothers : p.ids.reverse.filter (fun id => id != curr) = others at htake
    have hkept : kept ∈ others.drop (p.dist2relay.length - L) := by
      have hin : kept ∈ others := by
        rw [← hothers, List.mem_filter, List.mem_reverse, bne_iff_ne]
        exact ⟨hk.1, fun he => hcurr (he ▸ hc)⟩
      rw [← List.take_append_drop (p.dist2relay.length - L) others, List.mem_append, ← htake] at hin
      exact hin.resolve_left hk.2
    have hsorted : others.Pairwise (fun a b => p.distanceTo b ≤ p.distanceTo a) := by
      rw [← hothers]
      exact (List.pairwise_reverse.mpr h.sorted_ids).filter _
    rw [← List.take_append_drop (p.dist2relay.length - L) others, List.pairwise_append] at hsorted
    exact hsorted.2.2 removed (htake ▸ hremoved) kept hkept

theorem Indexed.next_near (h : Indexed L p) (hc : p.contactRelay = none) (hid : p.nextRelay.2 = some id)
    {relay : UInt64} (hr : relay ∈ p.relays) : p.distanceTo id ≤ p.distanceTo relay := by
  have hin := (h.directory.keys relay).mp hr
  have hsorted := h.sorted_ids
  rw [nextRelay, hc] at hid
  dsimp only at hid
  split at hid
  · cases hid
  · change p.dist2relay.head?.map Prod.snd = some id at hid
    rw [← List.head?_map, ← ids] at hid
    obtain ⟨rest, hids⟩ := List.head?_eq_some_iff.mp hid
    rw [hids] at hin hsorted
    rcases List.mem_cons.mp hin with rfl | hin
    · exact le_rfl
    · exact (List.pairwise_cons.mp hsorted).1 relay hin

theorem Indexed.holds (h : Indexed L p) : IndexHolds p where
  current := h.current
  cleanup _ hr hgone _ hk hcurr := h.cleanup_far hr hgone hk hcurr
  first hc _ hid _ hr := h.next_near hc hid hr

theorem Indexed.indexCurrent (h : Indexed L p) : IndexCurrent p :=
  ⟨h.holds, fun now => ⟨(h.maintain now).holds, ((h.maintain now).advance now).holds⟩⟩

theorem Indexed.constructed (c : VASTRelay K) : Indexed c.relayLimit c.ordered.constructed where
  directory := Directory.constructed c.ordered
  order _ _ := rfl
  sorted := .nil
  current _ he := absurd he List.not_mem_nil

theorem Indexed.step_iff (h : Indexed L p) (e : Event) : IndexCurrent (p.step e) ↔ Fresh p e := by
  refine ⟨fun hc => ?_, fun hf => (h.step e hf).indexCurrent⟩
  cases e with
  | message now sender msg =>
    cases msg with
    | pong initial querytime coord => exact (h.handlePong now sender initial querytime coord).mp hc.1.current
    | _ => trivial
  | postHandling now => trivial

/-- The index is current in every state of a run exactly when no `PONG` of the run brings a
coordinate at another distance. -/
theorem relay_index_iff (c : VASTRelay K) (es : List Event) :
    StepRun.Always step IndexCurrent c.ordered.constructed es ↔
      StepRun.Along step Fresh c.ordered.constructed es := by
  have hstart := Indexed.constructed c
  rw [StepRun.always_iff_along (P := fun p e => IndexCurrent (p.step e)) fun _ _ _ => .rfl]
  rw [StepRun.along_iff_along (fun _ e h hf => h.step e hf) (fun _ e h => h.step_iff e) hstart]
  exact and_iff_right hstart.indexCurrent

end Order

def pinging : VASTRelay ℚ where
  metric := exactMetric axisDistance
  self := { id := 1 }
  asRelay := true
  isPublic := true
  clientLimit := 0
  relayLimit := 0
  timing := ⟨10, 10, 10, 10⟩
  entries := []
  fails _ _ := false
  selected _ _ := true
  tempCoord := {}

def pongBehind : List Event :=
  [.message 5 2 (.relay [{ id := 2, aoi := { center := { x := ⟨0x3F800000⟩ } } },
      { id := 3, aoi := { center := { x := ⟨0x40000000⟩ } } }]),
    .message 6 2 (.pong false 5 { x := ⟨0x40400000⟩ })]

/-- Relay 2 was at distance 1 and is at 3; relay 3 is at 2, and relay 2 is still the first choice. -/
theorem relay_index_drifts :
    ¬ (pongBehind.foldl step pinging.ordered.constructed).Current ∧
      (pongBehind.foldl step pinging.ordered.constructed).contactRelay = none ∧
      (pongBehind.foldl step pinging.ordered.constructed).nextRelay.2 = some 2 ∧
      (pongBehind.foldl step pinging.ordered.constructed).distanceTo 3 <
        (pongBehind.foldl step pinging.ordered.constructed).distanceTo 2 := by
  refine ⟨fun h => ?_, by decide +kernel⟩
  have hkey := h (1, 2) (by decide +kernel)
  exact absurd hkey (by decide +kernel)

end VASTRelay

end VastNC
