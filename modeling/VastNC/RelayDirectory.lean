import VastNC.Relay
import VastNC.Lib.StepRun
import VastNC.Lib.Tables

/-! The tables of relays of a `VASTRelay` and the two pointers into them. -/

namespace VastNC

namespace VASTRelay

open Tables (mem_insert_iff mem_erase_iff)

variable {K : Type} {p q : VASTRelay K} {L : Nat} {id : UInt64}

def ids (p : VASTRelay K) : List UInt64 := p.dist2relay.map Prod.snd

/-- The invariant of a relay with the limit `L`. -/
structure Directory (L : Nat) (p : VASTRelay K) : Prop where
  limit : p.relayLimit = L
  nodup : p.ids.Nodup
  keys : ∀ id, id ∈ p.relays ↔ id ∈ p.ids
  keyed : ∀ (id : UInt64) (x : Node), p.relays[id]? = some x → x.id = id
  contact : ∀ id, p.contactRelay = some id → id ∈ p.relays
  curr : ∀ id, p.currRelay = some (.entry id) → id ∈ p.relays
  joined : p.state = .joined → p.currRelay ≠ none
  tame : p.wild = false

/-- What the directory does not depend on may change. -/
theorem Directory.frame (h : Directory L p) (hl : q.relayLimit = p.relayLimit) (hd : q.dist2relay = p.dist2relay)
    (hr : q.relays = p.relays) (hc : q.contactRelay = p.contactRelay) (hp : q.currRelay = p.currRelay)
    (hs : q.state = p.state) (hw : q.wild = p.wild) : Directory L q where
  limit := hl.trans h.limit
  nodup := by
    rw [ids, hd]
    exact h.nodup
  keys := by
    rw [ids, hd, hr]
    exact h.keys
  keyed := hr ▸ h.keyed
  contact := hr ▸ hc ▸ h.contact
  curr := hr ▸ hp ▸ h.curr
  joined := hs ▸ hp ▸ h.joined
  tame := hw.trans h.tame

theorem insertByDist_perm (m : RelayMetric K) (e : K × UInt64) (l : List (K × UInt64)) :
    (insertByDist m e l).Perm (e :: l) := by
  rw [insertByDist]
  refine List.perm_middle.trans (List.Perm.cons e ?_)
  rw [List.takeWhile_append_dropWhile]

theorem map_eraseP (l : List (K × UInt64)) (id : UInt64) :
    (l.eraseP (fun e => e.2 == id)).map Prod.snd = (l.map Prod.snd).erase id := by
  rw [List.erase_eq_eraseP', List.eraseP_map]
  rfl

theorem Directory.addRelay (h : Directory L p) (now : UInt64) (relay : Node) :
    Directory L (p.addRelay now relay) := by
  rw [VASTRelay.addRelay]
  split
  · exact h
  · dsimp only
    generalize hrest : (if relay.id ∈ p.relays then p.dist2relay.eraseP (fun e => e.2 == relay.id)
      else p.dist2relay) = rest
    have hids : rest.map Prod.snd = p.ids.erase relay.id := by
      rw [← hrest]
      split
      · exact map_eraseP p.dist2relay relay.id
      · rename_i hnew
        rw [List.erase_of_not_mem (fun hm => hnew ((h.keys relay.id).mpr hm)), ids]
    have hperm := (insertByDist_perm p.metric (p.metric.distance relay.aoi.center p.self.aoi.center, relay.id)
      rest).map Prod.snd
    rw [List.map_cons, hids] at hperm
    have hin {id : UInt64} (hm : id ∈ p.relays) : id ∈ p.relays.insert relay.id { relay with time := now } :=
      mem_insert_iff.mpr (.inr hm)
    refine ⟨h.limit, ?_, fun id => ?_, fun id x hx => ?_, fun id hc => hin (h.contact id hc),
      fun id hc => hin (h.curr id hc), h.joined, h.tame⟩
    · exact hperm.nodup_iff.mpr (List.nodup_cons.mpr ⟨h.nodup.not_mem_erase, h.nodup.erase _⟩)
    · rw [mem_insert_iff, ids, hperm.mem_iff, List.mem_cons, h.keys]
      by_cases he : id = relay.id
      · exact iff_of_true (.inl he) (.inl he)
      · rw [List.mem_erase_of_ne he]
    · rw [Std.ExtTreeMap.getElem?_insert] at hx
      split at hx
      · rename_i hk
        rw [← Option.some.inj hx]
        exact Std.compare_eq_iff_eq.mp hk
      · exact h.keyed id x hx

theorem Directory.addRelays (h : Directory L p) (now : UInt64) (l : List Node) :
    Directory L (l.foldl (VASTRelay.addRelay now) p) :=
  List.foldlRecOn l _ h fun _ hq relay _ => hq.addRelay now relay

/-- No pointer is left that names the relay. -/
structure Forgotten (id : UInt64) (p : VASTRelay K) : Prop where
  contact : p.contactRelay ≠ some id
  curr : p.currRelay ≠ some (.entry id)

theorem Directory.forget (h : Directory L p) (id : UInt64) : Directory L (p.forget id) ∧
    Forgotten id (p.forget id) ∧ (p.forget id).dist2relay = p.dist2relay := by
  rw [VASTRelay.forget]
  split
  · exact ⟨⟨h.limit, h.nodup, h.keys, h.keyed, nofun, nofun, nofun, h.tame⟩, ⟨nofun, nofun⟩, rfl⟩
  · rename_i hcurr
    have hc : p.currRelay ≠ some (.entry id) := fun he => hcurr (by rw [currId, he]; rfl)
    split
    · exact ⟨⟨h.limit, h.nodup, h.keys, h.keyed, nofun, h.curr, h.joined, h.tame⟩, ⟨nofun, hc⟩, rfl⟩
    · rename_i hcontact
      exact ⟨h, ⟨hcontact, hc⟩, rfl⟩

theorem Directory.erase (h : Directory L p) (hf : Forgotten id p) :
    Directory L
      { p with dist2relay := p.dist2relay.eraseP (fun e => e.2 == id), relays := p.relays.erase id } := by
  have hids : (p.dist2relay.eraseP (fun e => e.2 == id)).map Prod.snd = p.ids.erase id := map_eraseP p.dist2relay id
  refine ⟨h.limit, ?_, fun j => ?_, fun j x hx => ?_, fun j hj => ?_, fun j hj => ?_, h.joined, h.tame⟩
  · rw [ids, hids]
    exact h.nodup.erase id
  · rw [ids, hids, mem_erase_iff, h.nodup.mem_erase_iff, h.keys]
  · rw [Std.ExtTreeMap.getElem?_erase] at hx
    split at hx
    · cases hx
    · exact h.keyed j x hx
  · exact mem_erase_iff.mpr ⟨fun he => hf.contact (he ▸ hj), h.contact j hj⟩
  · exact mem_erase_iff.mpr ⟨fun he => hf.curr (he ▸ hj), h.curr j hj⟩

theorem Directory.removeRelay (h : Directory L p) (id : UInt64) :
    Directory L (p.removeRelay id) ∧ (p.removeRelay id).ids = p.ids.erase id := by
  rw [VASTRelay.removeRelay]
  split
  · rename_i hid
    obtain ⟨hd, hf, hdist⟩ := h.forget id
    have hmem : (p.forget id).dist2relay.any (fun e => e.2 == id) = true := by
      obtain ⟨e, he, hs⟩ := List.mem_map.mp ((h.keys id).mp hid)
      rw [hdist]
      exact List.any_eq_true.mpr ⟨e, he, beq_iff_eq.mpr hs⟩
    have he := hd.erase hf
    have hids : ((p.forget id).dist2relay.eraseP (fun e => e.2 == id)).map Prod.snd = p.ids.erase id := by
      rw [hdist]
      exact map_eraseP p.dist2relay id
    dsimp only
    rw [if_pos hmem]
    split
    · exact ⟨he.frame rfl rfl rfl rfl rfl rfl rfl, hids⟩
    · exact ⟨he.frame rfl rfl rfl rfl rfl rfl rfl, hids⟩
  · rename_i hid
    rw [List.erase_of_not_mem (fun hm => hid ((h.keys id).mpr hm))]
    exact ⟨h, rfl⟩

theorem Directory.removeRelay_gone (h : Directory L p) (id : UInt64) : id ∉ (p.removeRelay id).relays := by
  obtain ⟨hd, hids⟩ := h.removeRelay id
  rw [hd.keys, hids]
  exact h.nodup.not_mem_erase

theorem Directory.removeRelays (h : Directory L p) (l : List UInt64) :
    Directory L (l.foldl VASTRelay.removeRelay p) ∧ (l.foldl VASTRelay.removeRelay p).ids = p.ids.diff l := by
  induction l generalizing p with
  | nil => exact ⟨h, rfl⟩
  | cons id l ih =>
    obtain ⟨hd, hids⟩ := h.removeRelay id
    rw [List.foldl_cons, List.diff_cons, ← hids]
    exact ih hd

theorem Directory.send (h : Directory L p) (call : RelayCall) : Directory L (p.send call) :=
  h.frame rfl rfl rfl rfl rfl rfl rfl

theorem Directory.sendRelay (h : Directory L p) (targets : List UInt64) (call : RelayCall) :
    Directory L (p.sendRelay targets call).1 := by
  rw [VASTRelay.sendRelay]
  split
  · exact h
  · exact ((h.send call).removeRelays _).1

/-- A relay that could not be reached is gone. -/
theorem Directory.sendRelay_failed (h : Directory L p) (hid : id ∈ p.ids) (call : RelayCall)
    (hf : (p.sendRelay [id] call).2 = 0) : (p.sendRelay [id] call).1.ids.length < p.ids.length := by
  rw [VASTRelay.sendRelay, if_neg (List.cons_ne_nil id [])] at hf ⊢
  dsimp only at hf ⊢
  rw [((h.send call).removeRelays _).2]
  by_cases hfail : p.fails p.net.length id = true
  · rw [List.filter_cons_of_pos hfail, List.filter_nil, List.diff_cons, List.diff_nil]
    have hlen := List.length_erase_of_mem hid
    have hpos := List.length_pos_of_mem hid
    exact hlen.trans_lt (Nat.sub_lt hpos Nat.one_pos)
  · rw [List.filter_cons_of_neg hfail, List.filter_nil] at hf
    cases hf

theorem Directory.ne_nil (h : Directory L p) (hid : id ∈ p.relays) : p.dist2relay ≠ [] := by
  intro he
  have hm := (h.keys id).mp hid
  rw [ids, he] at hm
  cases hm

theorem Directory.ne_nil_of_relays (h : Directory L p) (hr : ¬ p.relays.isEmpty = true) : p.dist2relay ≠ [] := by
  rw [Std.ExtTreeMap.isEmpty_iff, Std.ExtTreeMap.eq_empty_iff_forall_not_mem] at hr
  push Not at hr
  obtain ⟨id, hid⟩ := hr
  exact h.ne_nil hid

/-- A new contact that is in the list. -/
theorem Directory.pick (h : Directory L p) (hne : p.dist2relay ≠ []) {o : Option (K × UInt64)}
    (ho : ∀ e ∈ o, e ∈ p.dist2relay) : Directory L
      { p with contactRelay := o.map Prod.snd, wild := p.wild || p.dist2relay.isEmpty } := by
  refine ⟨h.limit, h.nodup, h.keys, h.keyed, fun id hid => ?_, h.curr, h.joined, ?_⟩
  · obtain ⟨e, he, rfl⟩ := Option.map_eq_some_iff.mp hid
    exact (h.keys e.2).mpr (List.mem_map_of_mem (ho e he))
  · dsimp only
    rw [h.tame, List.isEmpty_eq_false_iff.mpr hne]
    rfl

theorem Directory.nextRelay (h : Directory L p) : Directory L p.nextRelay.1 := by
  rw [VASTRelay.nextRelay]
  split
  · split
    · exact h
    · rename_i hr
      exact h.pick (h.ne_nil_of_relays hr) fun e he => List.mem_of_mem_head? he
  · rename_i id hc
    refine h.pick (h.ne_nil (h.contact id hc)) fun e he => ?_
    rcases hn : (p.dist2relay.dropWhile (fun e => e.2 != id)).tail.head? with _ | x
    · rw [hn] at he
      exact List.mem_of_mem_head? he
    · rw [hn] at he
      obtain rfl : x = e := Option.some.inj he
      exact (List.dropWhile_sublist _).subset (List.mem_of_mem_tail (List.mem_of_mem_head? hn))

theorem Directory.joinRelay (h : Directory L p) (now : UInt64) : Directory L (p.joinRelay now) := by
  rw [VASTRelay.joinRelay]
  split
  · exact h
  · dsimp only
    split
    · exact h.nextRelay
    · exact (h.nextRelay.sendRelay _ _).frame rfl rfl rfl rfl rfl rfl rfl

theorem Directory.setJoined (h : Directory L p) (relayId : UInt64) : Directory L (p.setJoined relayId) := by
  rw [VASTRelay.setJoined]
  split
  · exact ⟨h.limit, h.nodup, h.keys, h.keyed, nofun, nofun, nofun, h.tame⟩
  · split
    · rename_i hid
      refine ⟨h.limit, h.nodup, h.keys, h.keyed, nofun, fun id hc => ?_, nofun, h.tame⟩
      rw [Option.some.injEq, RelayPointer.entry.injEq] at hc
      exact hc ▸ hid
    · exact h

theorem Directory.notifyPhysicalCoordinate (h : Directory L p) : Directory L p.notifyPhysicalCoordinate :=
  h.sendRelay _ _

theorem Directory.pong (h : Directory L p) (target : UInt64) (first : Bool) : Directory L (p.pong target first) := by
  rw [VASTRelay.pong]
  apply Directory.sendRelay
  split
  · exact h
  · exact h.frame rfl rfl rfl rfl rfl rfl rfl

theorem Directory.ping (h : Directory L p) (now : UInt64) (currRelayOnly : Bool) :
    Directory L (p.ping now currRelayOnly) := by
  rw [VASTRelay.ping]
  apply Directory.sendRelay
  exact h.frame rfl rfl rfl rfl rfl rfl rfl

theorem Directory.sendRelayList (h : Directory L p) (target : UInt64) : Directory L (p.sendRelayList target) := by
  rw [VASTRelay.sendRelayList]
  split
  · exact h
  · exact h.send _

theorem closestRelay_mem (m : RelayMetric K) (self : Node) (known : List Node) (pos : Position) :
    closestRelay m self known pos = self ∨ closestRelay m self known pos ∈ known := by
  refine List.foldlRecOn (motive := fun c => c = self ∨ c ∈ known) known _ (.inl rfl) fun c hc x hx => ?_
  dsimp only
  split
  · exact .inr hx
  · exact hc

theorem Directory.nodeOf_id (h : Directory L p) (hid : id ∈ p.relays) : (p.nodeOf id).id = id := by
  obtain ⟨x, hx⟩ := Option.isSome_iff_exists.mp (Std.ExtTreeMap.mem_iff_isSome_getElem?.mp hid)
  rw [nodeOf, hx, Option.getD_some, h.keyed id x hx]

theorem Directory.handleQuery (h : Directory L p) (joiner : Node) (forwarder : Addr) {fuel : Nat}
    (hf : p.ids.length < fuel) : Directory L (handleQuery joiner forwarder fuel p) := by
  induction fuel generalizing p with
  | zero => exact absurd hf (Nat.not_lt_zero _)
  | succ fuel ih =>
    rw [VASTRelay.handleQuery]
    dsimp only
    split
    · exact h.sendRelay _ _
    · rename_i hne
      have hmem := (closestRelay_mem p.metric p.self (p.dist2relay.map fun e => p.nodeOf e.2)
        joiner.aoi.center).resolve_left fun he => hne (congrArg Node.id he)
      generalize closestRelay p.metric p.self (p.dist2relay.map fun e => p.nodeOf e.2) joiner.aoi.center = closest at *
      obtain ⟨e, he, rfl⟩ := List.mem_map.mp hmem
      have hid : e.2 ∈ p.ids := List.mem_map_of_mem he
      rw [h.nodeOf_id ((h.keys e.2).mpr hid)]
      split
      · exact h.sendRelay _ _
      · rename_i hfail
        have hlt := h.sendRelay_failed hid _ (Nat.eq_zero_of_not_pos hfail)
        exact ih (h.sendRelay _ _) (hlt.trans_le (Nat.le_of_lt_succ hf))

theorem Directory.forwardMessage (h : Directory L p) (subId hostId : UInt64) :
    Directory L (p.forwardMessage subId hostId) :=
  h.frame rfl rfl rfl rfl rfl rfl rfl

theorem Directory.forward (h : Directory L p) (now : UInt64) (msg : Message) : Directory L (p.forward now msg) := by
  rw [VASTRelay.forward]
  have hq : ∀ l : List UInt64, Directory L (l.foldl (enqueue now msg) p) := fun l =>
    List.foldlRecOn l _ h fun q hq target _ => hq.frame rfl rfl rfl rfl rfl rfl rfl
  split
  · exact hq _
  · exact (hq _).send _

theorem Directory.handlePong (h : Directory L p) (coord : Position) (sender : UInt64) :
    Directory L { p with
      tempCoord := p.self.aoi.center
      relays := if sender ∈ p.relays then
          let relay := p.nodeOf sender
          p.relays.insert sender { relay with aoi := { relay.aoi with center := coord } }
        else p.relays } := by
  split
  · rename_i hs
    have hin (id : UInt64) (x : Node) : id ∈ p.relays.insert sender x ↔ id ∈ p.relays := by
      rw [mem_insert_iff]
      exact or_iff_right_of_imp fun he => he ▸ hs
    refine ⟨h.limit, h.nodup, fun id => ?_, fun id x hx => ?_, fun id hc => (hin id _).mpr (h.contact id hc),
      fun id hc => (hin id _).mpr (h.curr id hc), h.joined, h.tame⟩
    · exact (hin id _).trans (h.keys id)
    · rw [Std.ExtTreeMap.getElem?_insert] at hx
      split at hx
      · rename_i hk
        rw [← Option.some.inj hx, ← Std.compare_eq_iff_eq.mp hk]
        exact h.nodeOf_id hs
      · exact h.keyed id x hx
  · exact h.frame rfl rfl rfl rfl rfl rfl rfl

theorem Directory.handleMessage (h : Directory L p) (now sender : UInt64) (msg : RelayMessage) :
    Directory L (p.handleMessage now sender msg) := by
  cases msg with
  | ping => exact (h.pong sender true).sendRelayList sender
  | pong initial querytime coord =>
    rw [VASTRelay.handleMessage]
    split
    · exact (h.removeRelay sender).1
    · dsimp only
      split
      · exact (h.handlePong coord sender).pong sender false
      · exact h.handlePong coord sender
  | relay relays => exact h.addRelays now relays
  | query joiner forwarder =>
    refine h.handleQuery joiner forwarder ?_
    rw [ids, List.length_map]
    exact Nat.lt_succ_self _
  | queryR requester relay =>
    rw [VASTRelay.handleMessage]
    split
    · dsimp only
      split
      · exact ((h.addRelay now relay).addRelay now _).joinRelay now
      · exact (h.addRelay now relay).joinRelay now
    · split
      · exact h.sendRelay _ _
      · exact h
  | join joiner isRelay =>
    rw [VASTRelay.handleMessage, handleJoin]
    split
    · refine (Directory.send ?_ _).sendRelayList _
      exact h.frame rfl rfl rfl rfl rfl rfl rfl
    · exact (h.send _).sendRelayList _
  | joinR success =>
    rw [VASTRelay.handleMessage]
    split
    · exact h
    · split
      · exact h.joinRelay now
      · split
        · exact h.notifyPhysicalCoordinate.setJoined 0
        · exact h.setJoined sender
  | subscribeNotify subId clientHostId =>
    refine Directory.forwardMessage ?_ subId clientHostId
    exact h.frame rfl rfl rfl rfl rfl rfl rfl
  | disconnect =>
    rw [VASTRelay.handleMessage]
    split
    · exact (h.removeRelay sender).1
    · exact h.frame rfl rfl rfl rfl rfl rfl rfl
  | other msg => exact h.forward now _

theorem Directory.useEntries (h : Directory L p) (now : UInt64) : Directory L (p.useEntries now) := by
  rw [VASTRelay.useEntries]
  split
  · exact h.addRelays now p.entries
  · exact h

theorem Directory.maintain (h : Directory L p) (now : UInt64) : Directory L (p.maintain now) := by
  have hq : Directory L { p with timeoutPing := now + p.timing.keepalive } := h.frame rfl rfl rfl rfl rfl rfl rfl
  rw [VASTRelay.maintain]
  split
  · dsimp only
    split
    · exact hq.useEntries now
    · exact List.foldlRecOn _ _ ((hq.useEntries now).ping now _) fun s hs subId _ => hs.forwardMessage subId 0
  · exact h

theorem Directory.queryRelay (h : Directory L p) (now : UInt64) : Directory L (p.queryRelay now) := by
  have hq : Directory L { p with timeoutQuery := now + p.timing.query } := h.frame rfl rfl rfl rfl rfl rfl rfl
  rw [VASTRelay.queryRelay]
  split
  · dsimp only
    split
    · exact hq.nextRelay.frame rfl rfl rfl rfl rfl rfl rfl
    · split
      · exact (hq.nextRelay.sendRelay _ _).frame rfl rfl rfl rfl rfl rfl rfl
      · exact hq.nextRelay.sendRelay _ _
  · exact h

theorem Directory.advance (h : Directory L p) (now : UInt64) : Directory L (p.advance now) := by
  rw [VASTRelay.advance]
  split
  · split
    · refine Directory.setJoined ?_ 0
      exact h.frame rfl rfl rfl rfl rfl rfl rfl
    · split
      · exact ⟨h.limit, h.nodup, h.keys, h.keyed, h.contact, h.curr, nofun, h.tame⟩
      · exact h
  · split
    · exact ⟨h.limit, h.nodup, h.keys, h.keyed, h.contact, h.curr, nofun, h.tame⟩
    · exact h.queryRelay now
  · split
    · exact h.joinRelay now
    · exact h
  · exact h

/-- The loop of `cleanupRelays` stays within the list as long as enough other ids are in it, and
takes the first of these. -/
theorem farthest_spec {curr : UInt64} {n : Nat} {l : List UInt64}
    (hn : n ≤ (l.filter (fun id => id != curr)).length) :
    farthest curr n l = some ((l.filter (fun id => id != curr)).take n) := by
  induction l generalizing n with
  | nil =>
    obtain rfl : n = 0 := Nat.le_zero.mp hn
    rfl
  | cons id l ih =>
    cases n with
    | zero => rfl
    | succ n =>
      rw [farthest]
      by_cases he : id = curr
      · have hskip : ¬ (id != curr) = true := by
          rw [bne_iff_ne]
          exact not_not.mpr he
        rw [List.filter_cons_of_neg (p := fun id => id != curr) hskip] at hn ⊢
        rw [if_pos he]
        exact ih hn
      · have htake : (id != curr) = true := bne_iff_ne.mpr he
        rw [List.filter_cons_of_pos (p := fun id => id != curr) htake] at hn ⊢
        rw [if_neg he, ih (Nat.le_of_succ_le_succ hn), List.take_succ_cons]
        rfl

/-- What stays where another relay than the current one is removed. -/
structure SameRelay (p q : VASTRelay K) : Prop where
  self : q.self = p.self
  curr : q.currRelay = p.currRelay
  state : q.state = p.state

theorem SameRelay.currId (h : SameRelay p q) : q.currId = p.currId := by
  rw [VASTRelay.currId, VASTRelay.currId, h.curr, h.self]

theorem sameRelay_forget (hid : p.currId ≠ some id) : SameRelay p (p.forget id) := by
  rw [forget, if_neg hid]
  split
  · exact ⟨rfl, rfl, rfl⟩
  · exact ⟨rfl, rfl, rfl⟩

theorem sameRelay_removeRelay (hid : p.currId ≠ some id) : SameRelay p (p.removeRelay id) := by
  have h := sameRelay_forget hid
  rw [removeRelay]
  split
  · dsimp only
    split
    · split
      · exact ⟨h.self, h.curr, h.state⟩
      · exact ⟨h.self, h.curr, h.state⟩
    · split
      · exact ⟨h.self, h.curr, h.state⟩
      · exact ⟨h.self, h.curr, h.state⟩
  · exact ⟨rfl, rfl, rfl⟩

theorem sameRelay_removeRelays {l : List UInt64} (hl : ∀ id ∈ l, p.currId ≠ some id) :
    SameRelay p (l.foldl removeRelay p) := by
  induction l generalizing p with
  | nil => exact ⟨rfl, rfl, rfl⟩
  | cons id l ih =>
    have hid := sameRelay_removeRelay (hl id List.mem_cons_self)
    have hrest := ih fun j hj => hid.currId ▸ hl j (List.mem_cons_of_mem id hj)
    exact ⟨hrest.self.trans hid.self, hrest.curr.trans hid.curr, hrest.state.trans hid.state⟩

theorem length_ids (p : VASTRelay K) : p.ids.length = p.dist2relay.length := List.length_map _

theorem Directory.size (h : Directory L p) : p.relays.size = p.ids.length := by
  rw [← Std.ExtTreeMap.length_keys]
  refine ((List.perm_ext_iff_of_nodup ?_ h.nodup).mpr fun id => ?_).length_eq
  · exact Std.ExtTreeMap.nodup_keys
  · rw [Std.ExtTreeMap.mem_keys, h.keys]

/-- Enough relays other than the current one are there to be removed. -/
theorem Directory.le_others (h : Directory L p) (hL : L ≠ 0) (curr : UInt64) :
    p.dist2relay.length - L ≤ (p.ids.reverse.filter (fun id => id != curr)).length := by
  have hrev : p.ids.reverse.Nodup := List.nodup_reverse.mpr h.nodup
  have hle := List.le_length_erase (a := curr) (l := p.ids.reverse)
  rw [← hrev.erase_eq_filter]
  rw [List.length_reverse, length_ids] at hle
  omega

theorem Directory.cleanupRelays_cases (h : Directory L p) :
    (p.cleanupRelays = p ∧ (0 < L → p.state = .joined → p.dist2relay.length ≤ L)) ∨
      ∃ curr r, p.currId = some curr ∧
        r = (p.ids.reverse.filter (fun id => id != curr)).take (p.dist2relay.length - L) ∧
        r.length = p.dist2relay.length - L ∧ p.cleanupRelays = r.foldl VASTRelay.removeRelay p := by
  rw [VASTRelay.cleanupRelays]
  split
  · rename_i hnone
    exact .inl ⟨rfl, fun _ hj => absurd (Option.map_eq_none_iff.mp hnone) (h.joined hj)⟩
  · rename_i curr hcurr
    rw [h.limit]
    split
    · rename_i hc
      have hn := h.le_others hc.1 curr
      rw [← ids, farthest_spec hn]
      exact .inr ⟨curr, _, hcurr, rfl, List.length_take_of_le hn, rfl⟩
    · rename_i hc
      refine .inl ⟨rfl, fun hL hj => ?_⟩
      by_contra hgt
      exact hc ⟨Nat.pos_iff_ne_zero.mp hL, hj, not_le.mp hgt⟩

theorem Directory.cleanupRelays (h : Directory L p) : Directory L p.cleanupRelays ∧ SameRelay p p.cleanupRelays ∧
    (0 < L → p.state = .joined → p.cleanupRelays.relays.size ≤ L) := by
  rcases h.cleanupRelays_cases with ⟨heq, hle⟩ | ⟨curr, r, hcurr, hr, hlen, heq⟩
  · rw [heq, h.size, length_ids]
    exact ⟨h, ⟨rfl, rfl, rfl⟩, hle⟩
  · have hsub : r.Sublist (p.ids.reverse.filter (fun id => id != curr)) := hr ▸ List.take_sublist _ _
    have hcurr : ∀ id ∈ r, p.currId ≠ some id := fun id hid he => by
      have hne := (List.mem_filter.mp (hsub.subset hid)).2
      rw [hcurr, Option.some.injEq] at he
      exact bne_iff_ne.mp hne he.symm
    have hperm : r.Subperm p.ids :=
      (hsub.trans List.filter_sublist).subperm.trans (List.reverse_perm p.ids).subperm
    have hdiff := (List.subperm_append_diff_self_of_count_le (List.subperm_ext_iff.mp hperm)).length_eq
    obtain ⟨hd, hids⟩ := h.removeRelays r
    rw [heq]
    refine ⟨hd, sameRelay_removeRelays hcurr, fun _ _ => ?_⟩
    rw [hd.size, hids]
    rw [List.length_append, length_ids] at hdiff
    omega

theorem Directory.step (h : Directory L p) (e : Event) : Directory L (p.step e) := by
  cases e with
  | message now sender msg => exact h.handleMessage now sender msg
  | postHandling now => exact ((h.maintain now).advance now).cleanupRelays.1

theorem Directory.run (h : Directory L p) (es : List Event) : Directory L (es.foldl VASTRelay.step p) := by
  induction es generalizing p with
  | nil => exact h
  | cons e es ih => exact ih (h.step e)

theorem Directory.constructed (p : VASTRelay K) : Directory p.relayLimit p.constructed where
  limit := rfl
  nodup := List.nodup_nil
  keys _ := iff_of_false Std.ExtTreeMap.not_mem_empty List.not_mem_nil
  keyed _ _ hx := by
    rw [VASTRelay.constructed, Std.ExtTreeMap.getElem?_empty] at hx
    cases hx
  contact := nofun
  curr := nofun
  joined := nofun
  tame := rfl

theorem relay_directory (c : VASTRelay K) (es : List Event) (now : UInt64) :
    Directory c.relayLimit (es.foldl VASTRelay.step c.constructed) ∧
      SameRelay (((es.foldl VASTRelay.step c.constructed).maintain now).advance now)
        ((es.foldl VASTRelay.step c.constructed).postHandling now) ∧
      (0 < c.relayLimit → ((es.foldl VASTRelay.step c.constructed).postHandling now).state = .joined →
        ((es.foldl VASTRelay.step c.constructed).postHandling now).relays.size ≤ c.relayLimit) := by
  have h := (Directory.constructed c).run es
  obtain ⟨-, hsame, hsize⟩ := ((h.maintain now).advance now).cleanupRelays
  exact ⟨h, hsame, fun hL hj => hsize hL (hsame.state ▸ hj)⟩

end VASTRelay

end VastNC
