import VastNC.RelayDirectory

/-! The loop of a relay that handles a `RELAY_QUERY`: each turn that fails has removed the relay
it tried. -/

namespace VastNC

namespace VASTRelay

variable {K : Type} {p q : VASTRelay K} {L n : Nat} {joiner : Node} {forwarder : Addr}

/-- The relay that `closestRelay` chooses among those that are known. -/
def chosen (p : VASTRelay K) (pos : Position) : Node :=
  closestRelay p.metric p.self (p.dist2relay.map fun e => p.nodeOf e.2) pos

def queryChosen (p : VASTRelay K) (joiner : Node) (forwarder : Addr) : VASTRelay K × Nat :=
  p.sendRelay [(p.chosen joiner.aoi.center).id] (.query (p.chosen joiner.aoi.center).id joiner forwarder)

def replyQuery (p : VASTRelay K) (joiner : Node) (forwarder : Addr) : VASTRelay K :=
  (p.sendRelay [forwarder.hostId] (.queryR forwarder.hostId joiner (p.chosen joiner.aoi.center))).1

/-- The `while` loop that leads from `p` to `q` in `n` turns. -/
inductive QueryLoop (joiner : Node) (forwarder : Addr) : VASTRelay K → Nat → VASTRelay K → Prop
  | reply {p : VASTRelay K} : (p.chosen joiner.aoi.center).id = p.self.id →
      QueryLoop joiner forwarder p 1 (p.replyQuery joiner forwarder)
  | sent {p : VASTRelay K} : (p.chosen joiner.aoi.center).id ≠ p.self.id →
      0 < (p.queryChosen joiner forwarder).2 →
      QueryLoop joiner forwarder p 1 (p.queryChosen joiner forwarder).1
  | retry {p q : VASTRelay K} {n : Nat} : (p.chosen joiner.aoi.center).id ≠ p.self.id →
      (p.queryChosen joiner forwarder).2 = 0 →
      QueryLoop joiner forwarder (p.queryChosen joiner forwarder).1 n q →
      QueryLoop joiner forwarder p (n + 1) q

/-- The query has gone to the relay that is the closest of those known at the end, and the
network has accepted it. -/
structure Forwarded (joiner : Node) (forwarder : Addr) (q : VASTRelay K) : Prop where
  known : (q.chosen joiner.aoi.center).id ∈ q.relays
  other : (q.chosen joiner.aoi.center).id ≠ q.self.id
  accepted : ∃ calls, q.net = calls ++ [.query (q.chosen joiner.aoi.center).id joiner forwarder] ∧
    q.fails calls.length (q.chosen joiner.aoi.center).id = false

def Replied (joiner : Node) (forwarder : Addr) (q : VASTRelay K) : Prop :=
  ∃ calls closest, q.net = calls ++ [.queryR forwarder.hostId joiner closest] ∧ closest.id = q.self.id

theorem Directory.chosen_mem (h : Directory L p) {pos : Position} (hne : (p.chosen pos).id ≠ p.self.id) :
    (p.chosen pos).id ∈ p.ids := by
  have hmem : p.chosen pos ∈ p.dist2relay.map fun e => p.nodeOf e.2 :=
    (closestRelay_mem p.metric p.self _ pos).resolve_left fun he => hne (congrArg Node.id he)
  obtain ⟨e, he, hnode⟩ := List.mem_map.mp hmem
  have hid : e.2 ∈ p.ids := List.mem_map_of_mem he
  rw [← hnode, h.nodeOf_id ((h.keys e.2).mpr hid)]
  exact hid

/-- A call to one target either reaches it and changes nothing else, or counts no success. -/
theorem sendRelay_single (p : VASTRelay K) (id : UInt64) (call : RelayCall) :
    (p.fails p.net.length id = false ∧ p.sendRelay [id] call = (p.send call, 1)) ∨
      (p.fails p.net.length id = true ∧ p.sendRelay [id] call = ((p.send call).removeRelay id, 0)) := by
  rw [sendRelay, if_neg (List.cons_ne_nil id [])]
  cases hf : p.fails p.net.length id with
  | false =>
    rw [List.filter_cons_of_neg (by simp [hf]), List.filter_nil]
    exact .inl ⟨rfl, rfl⟩
  | true =>
    rw [List.filter_cons_of_pos hf, List.filter_nil]
    exact .inr ⟨rfl, rfl⟩

theorem Directory.queryChosen (h : Directory L p) (joiner : Node) (forwarder : Addr) :
    Directory L (p.queryChosen joiner forwarder).1 :=
  h.sendRelay _ _

theorem Directory.queryChosen_failed (h : Directory L p) (hne : (p.chosen joiner.aoi.center).id ≠ p.self.id)
    (hf : (p.queryChosen joiner forwarder).2 = 0) :
    (p.queryChosen joiner forwarder).1.ids.length < p.ids.length :=
  h.sendRelay_failed (h.chosen_mem hne) _ hf

theorem handleQuery_succ (fuel : Nat) : handleQuery joiner forwarder (fuel + 1) p =
    if (p.chosen joiner.aoi.center).id = p.self.id then p.replyQuery joiner forwarder
    else if (p.queryChosen joiner forwarder).2 > 0 then (p.queryChosen joiner forwarder).1
    else handleQuery joiner forwarder fuel (p.queryChosen joiner forwarder).1 := rfl

theorem Directory.exists_loop (h : Directory L p) : ∃ n q, QueryLoop joiner forwarder p n q := by
  induction hn : p.ids.length using Nat.strong_induction_on generalizing p with
  | _ k ih =>
    by_cases hself : (p.chosen joiner.aoi.center).id = p.self.id
    · exact ⟨1, _, .reply hself⟩
    · by_cases hsent : (p.queryChosen joiner forwarder).2 = 0
      · have hlt := h.queryChosen_failed hself hsent
        obtain ⟨n, q, hl⟩ := ih _ (hn ▸ hlt) (h.queryChosen joiner forwarder) rfl
        exact ⟨n + 1, q, .retry hself hsent hl⟩
      · exact ⟨1, _, .sent hself (Nat.pos_of_ne_zero hsent)⟩

/-- The turns are bounded by the relays, since each but the last removes one. -/
theorem QueryLoop.turns (hl : QueryLoop joiner forwarder p n q) (h : Directory L p) :
    n ≤ p.ids.length + 1 := by
  induction hl with
  | reply _ => exact Nat.le_add_left _ _
  | sent _ _ => exact Nat.le_add_left _ _
  | retry hne hf _ ih =>
    have hlt := h.queryChosen_failed hne hf
    have hle := ih (h.queryChosen _ _)
    omega

theorem QueryLoop.handleQuery_eq (hl : QueryLoop joiner forwarder p n q) {fuel : Nat} (hn : n ≤ fuel) :
    handleQuery joiner forwarder fuel p = q := by
  induction hl generalizing fuel with
  | reply hself =>
    obtain ⟨fuel, rfl⟩ := Nat.exists_eq_add_of_le' hn
    rw [handleQuery_succ, if_pos hself]
  | sent hne hs =>
    obtain ⟨fuel, rfl⟩ := Nat.exists_eq_add_of_le' hn
    rw [handleQuery_succ, if_neg hne, if_pos hs]
  | retry hne hf _ ih =>
    obtain ⟨fuel, rfl⟩ := Nat.exists_eq_add_of_le' (Nat.le_of_add_left_le hn)
    rw [handleQuery_succ, if_neg hne, if_neg (by omega)]
    exact ih (by omega)

/-- What the removal of relays leaves as it is. -/
structure SameNode (p q : VASTRelay K) : Prop where
  metric : q.metric = p.metric
  self : q.self = p.self
  net : q.net = p.net

theorem sameNode_removeRelay (p : VASTRelay K) (id : UInt64) : SameNode p (p.removeRelay id) := by
  have hforget : SameNode p (p.forget id) := by
    rw [forget]
    split
    · exact ⟨rfl, rfl, rfl⟩
    · split
      · exact ⟨rfl, rfl, rfl⟩
      · exact ⟨rfl, rfl, rfl⟩
  rw [removeRelay]
  split
  · dsimp only
    split
    · split
      · exact ⟨hforget.metric, hforget.self, hforget.net⟩
      · exact ⟨hforget.metric, hforget.self, hforget.net⟩
    · split
      · exact ⟨hforget.metric, hforget.self, hforget.net⟩
      · exact ⟨hforget.metric, hforget.self, hforget.net⟩
  · exact ⟨rfl, rfl, rfl⟩

theorem QueryLoop.outcome (hl : QueryLoop joiner forwarder p n q) (h : Directory L p) :
    Replied joiner forwarder q ∨ Forwarded joiner forwarder q := by
  induction hl with
  | @reply p hself =>
    left
    rcases sendRelay_single p forwarder.hostId
      (.queryR forwarder.hostId joiner (p.chosen joiner.aoi.center)) with ⟨-, hsend⟩ | ⟨-, hsend⟩
    · rw [replyQuery, hsend]
      exact ⟨p.net, _, rfl, hself⟩
    · have hr := sameNode_removeRelay
        (p.send (.queryR forwarder.hostId joiner (p.chosen joiner.aoi.center))) forwarder.hostId
      rw [replyQuery, hsend]
      exact ⟨p.net, _, hr.net, hself.trans (congrArg Node.id hr.self).symm⟩
  | @sent p hne hs =>
    rcases sendRelay_single p (p.chosen joiner.aoi.center).id
      (.query (p.chosen joiner.aoi.center).id joiner forwarder) with ⟨hacc, hsend⟩ | ⟨-, hsend⟩
    · have hq : (p.queryChosen joiner forwarder).1 =
          p.send (.query (p.chosen joiner.aoi.center).id joiner forwarder) := congrArg Prod.fst hsend
      rw [hq]
      exact .inr ⟨(h.keys _).mpr (h.chosen_mem hne), hne, p.net, rfl, hacc⟩
    · rw [queryChosen, hsend] at hs
      cases hs
  | retry _ _ _ ih => exact ih (h.queryChosen _ _)

/-- The loop ends, after at most one turn for each relay and one more; then this relay has
replied itself, or the network has accepted the query for the closest relay still known. -/
theorem query_forwarding_terminates (c : VASTRelay K) (es : List Event) (joiner : Node) (forwarder : Addr) :
    (∃ n q, QueryLoop joiner forwarder (es.foldl VASTRelay.step c.constructed) n q) ∧
      ∀ n q, QueryLoop joiner forwarder (es.foldl VASTRelay.step c.constructed) n q →
        n ≤ (es.foldl VASTRelay.step c.constructed).relays.size + 1 ∧
          (∀ now sender, (es.foldl VASTRelay.step c.constructed).handleMessage now sender
            (.query joiner forwarder) = q) ∧
          (Replied joiner forwarder q ∨ Forwarded joiner forwarder q) := by
  have h := (Directory.constructed c).run es
  refine ⟨h.exists_loop, fun n q hl => ?_⟩
  have hn := hl.turns h
  refine ⟨by rwa [h.size], fun now sender => hl.handleQuery_eq ?_, hl.outcome h⟩
  rwa [length_ids] at hn

end VASTRelay

end VastNC
