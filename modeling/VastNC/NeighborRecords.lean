import VastNC.Lib.Latest
import VastNC.NeighborTables

/-! What a `VONPeer` records of a neighbour while it knows it: among all updates about the neighbour, direct
ones and those that come second-hand in batches, the latest of those with the greatest time. -/

namespace VastNC

open Std (ExtTreeMap)
open Latest (newer ofBatch ofBatch_append foldl_ofBatch isLatest_foldl IsLatest)

def Node.stamp (node : Node) : ℕ := node.time.toNat

namespace VONPeer

variable {p q r : VONPeer} {k id : UInt64} {node known : Node}

/-- A record of `k` stays as it is, and so do the notices that wait for the next tick. -/
structure Leaves (k : UInt64) (p q : VONPeer) : Prop where
  record : ∀ known, p.id2node[k]? = some known → q.id2node[k]? = some known
  notices : q.newNeighbors = p.newNeighbors
  self : q.self.id = p.self.id

namespace Leaves

theorem refl (k : UInt64) (p : VONPeer) : Leaves k p p := ⟨fun _ h => h, rfl, rfl⟩

theorem trans (h : Leaves k p q) (h' : Leaves k q r) : Leaves k p r :=
  ⟨fun known hk => h'.record known (h.record known hk), h'.notices.trans h.notices, h'.self.trans h.self⟩

theorem of_eq (hi : q.id2node = p.id2node) (hn : q.newNeighbors = p.newNeighbors) (hs : q.self.id = p.self.id) :
    Leaves k p q := ⟨fun _ h => by rw [hi]; exact h, hn, hs⟩

theorem foldl {α : Type} {f : VONPeer → α → VONPeer} (hf : ∀ q x, Leaves k q (f q x)) (l : List α) (p : VONPeer) :
    Leaves k p (l.foldl f p) :=
  List.foldlRecOn l f (refl k p) fun q hq x _ => hq.trans (hf q x)

theorem foldl_fst {α β : Type} {f : VONPeer × β → α → VONPeer × β} (hf : ∀ r x, Leaves k r.1 (f r x).1)
    (l : List α) (r : VONPeer × β) : Leaves k r.1 (l.foldl f r).1 :=
  List.foldlRecOn (motive := fun q => Leaves k r.1 q.1) l f (refl k r.1) fun q hq x _ => hq.trans (hf q x)

theorem send (p : VONPeer) (call : VONCall) : Leaves k p (p.send call) := of_eq rfl rfl rfl

theorem insert_new (h : p.isNeighbor id = false) (known node : Node) (hk : p.id2node[k]? = some known) :
    (p.id2node.insert id node)[k]? = some known := by
  rw [ExtTreeMap.getElem?_insert, if_neg, hk]
  intro he
  obtain rfl := Std.compare_eq_iff_eq.mp he
  have hmem : p.isNeighbor id = true := isNeighbor_iff.mpr (ExtTreeMap.mem_iff_isSome_getElem?.mpr (by rw [hk]; rfl))
  rw [hmem] at h
  cases h

theorem touch (p : VONPeer) (id : UInt64) : Leaves k p (p.touch id) := by
  rw [VONPeer.touch]
  split
  · exact refl k p
  · rename_i h
    exact ⟨fun known hk => insert_new (Bool.eq_false_iff.mpr h) known _ hk, rfl, rfl⟩

theorem insertNode (now : UInt64) (p : VONPeer) (node : Node) : Leaves k p (p.insertNode now node) := by
  rw [VONPeer.insertNode]
  split
  · exact refl k p
  · rename_i h
    exact ⟨fun known hk => insert_new (Bool.eq_false_iff.mpr h) known _ hk, rfl, rfl⟩

theorem sendNodes (p : VONPeer) (target : UInt64) (list : List UInt64) (reliable : Bool) :
    Leaves k p (p.sendNodes target list reliable) := by
  rw [VONPeer.sendNodes]
  dsimp only
  split
  · exact refl k p
  · exact (foldl touch _ p).trans (send _ _)

theorem sendHello (p : VONPeer) (target : UInt64) (idList : List UInt64) : Leaves k p (p.sendHello target idList) := by
  rw [VONPeer.sendHello]
  split
  · exact refl k p
  · exact send p _

theorem checkConsistency (p : VONPeer) (skipId : UInt64) : Leaves k p (p.checkConsistency skipId) :=
  foldl (fun q _ => send q _) _ p

theorem isJoined (p : VONPeer) : Leaves k p p.isJoined.1 := by
  rw [VONPeer.isJoined]
  dsimp only
  split
  · exact of_eq rfl rfl rfl
  · exact refl k p

theorem join (now : UInt64) (p : VONPeer) (aoi : Area) (gateway : Node) : Leaves k p (p.join now aoi gateway) := by
  refine (isJoined p).trans ?_
  rw [VONPeer.join]
  split
  · exact refl k _
  · have hinsert := insertNode (k := k) now p.isJoined.1 { p.isJoined.1.self with aoi }
    have hjoin : ∀ self : Node, self.id = p.isJoined.1.self.id → Leaves k p.isJoined.1
        (let v := { p.isJoined.1.insertNode now { p.isJoined.1.self with aoi } with self }
        if v.self.id = gateway.id then { v with state := .joined }
        else { v.send (.query gateway.id v.self) with state := .joining }) := by
      intro self hself
      dsimp only
      split <;> exact ⟨hinsert.record, hinsert.notices, hself⟩
    exact hjoin _ (by split <;> rfl)

theorem handleQuery (now : UInt64) (p : VONPeer) (sender : UInt64) (joiner : Node) :
    Leaves k p (p.handleQuery now sender joiner) := by
  rw [VONPeer.handleQuery]
  split
  · exact send p _
  · exact (insertNode now p joiner).trans (sendNodes _ _ _ _)

theorem handleEN (p : VONPeer) (sender : UInt64) (ids : List UInt64) : Leaves k p (p.handleEN sender ids) := by
  rw [VONPeer.handleEN]
  dsimp only
  generalize ids.foldl (fun m id => m.insertIfNew id ⟨true, false⟩) (∅ : ExtTreeMap UInt64 NeighborKnowledge) = list
  have hlist : Leaves k p { p with neighborStates := p.neighborStates.insert sender list } := of_eq rfl rfl rfl
  have htouch (asked : List UInt64) (q : VONPeer) :
      Leaves k q (asked.foldl (fun q id => (q.touch id).touch sender) q) :=
    foldl (fun q id => (touch q id).trans (touch _ sender)) asked q
  exact hlist.trans ((htouch _ _).trans (sendNodes _ _ _ _))

theorem handleHelloR (now : UInt64) (p : VONPeer) (sender : UInt64) (center : Position) :
    Leaves k p (p.handleHelloR now sender center) := by
  rw [VONPeer.handleHelloR]
  split
  · exact (insertNode now p _).trans (of_eq rfl rfl rfl)
  · exact refl k p

theorem greetNewNeighbor (p : VONPeer) (node : Node) : Leaves k p (p.greetNewNeighbor node) := by
  rw [VONPeer.greetNewNeighbor]
  split
  · have hnew : Leaves k p { p with potentialNeighbors := p.potentialNeighbors.insert node.id node } :=
      of_eq rfl rfl rfl
    exact hnew.trans (sendHello _ _ _)
  · exact refl k p

theorem discover (p : VONPeer) (fromId : UInt64) : Leaves k p (p.discover fromId) := by
  rw [VONPeer.discover]
  generalize hq : (if p.neighborIds.filter (fun id => id != p.self.id && id != fromId) = [] then p
    else p.touch fromId) = q
  have htouch : Leaves k p q := by
    rw [← hq]
    split
    · exact refl k p
    · exact touch p fromId
  have hstates (list : ExtTreeMap UInt64 NeighborKnowledge) :
      Leaves k q { q with neighborStates := q.neighborStates.insert fromId list } := of_eq rfl rfl rfl
  refine htouch.trans ?_
  split
  · exact (hstates _).trans (sendNodes _ _ _ _)
  · exact hstates _

theorem checkNeighborDiscovery (p : VONPeer) : Leaves k p p.checkNeighborDiscovery :=
  (foldl discover (p.neighborIds.filter (fun id => id != p.self.id)) p).trans (of_eq rfl rfl rfl)

theorem checkOverlap (now gracePeriod : UInt64) (r : VONPeer × List UInt64) (id : UInt64) :
    Leaves k r.1 (checkOverlap now gracePeriod r id).1 := by
  rw [VONPeer.checkOverlap]
  split
  · exact of_eq rfl rfl rfl
  · split
    · exact of_eq rfl rfl rfl
    · exact refl k r.1

end Leaves

/-- A record of `k` stays as it is or goes. -/
structure Drops (k : UInt64) (p q : VONPeer) : Prop where
  record : q.id2node[k]? = none ∨ q.id2node[k]? = p.id2node[k]?
  notices : q.newNeighbors = p.newNeighbors
  self : q.self.id = p.self.id

namespace Drops

theorem refl (k : UInt64) (p : VONPeer) : Drops k p p := ⟨.inr rfl, rfl, rfl⟩

theorem trans (h : Drops k p q) (h' : Drops k q r) : Drops k p r := by
  refine ⟨?_, h'.notices.trans h.notices, h'.self.trans h.self⟩
  rcases h'.record with he | he
  · exact .inl he
  · rw [he]
    exact h.record

theorem foldl {α : Type} {f : VONPeer → α → VONPeer} (hf : ∀ q x, Drops k q (f q x)) (l : List α) (p : VONPeer) :
    Drops k p (l.foldl f p) :=
  List.foldlRecOn l f (refl k p) fun q hq x _ => hq.trans (hf q x)

theorem send (p : VONPeer) (call : VONCall) : Drops k p (p.send call) := ⟨.inr rfl, rfl, rfl⟩

theorem deleteNode (p : VONPeer) (id : UInt64) : Drops k p (p.deleteNode id) := by
  rw [VONPeer.deleteNode]
  split
  · refine ⟨?_, rfl, rfl⟩
    change (p.id2node.erase id)[k]? = none ∨ (p.id2node.erase id)[k]? = _
    rw [ExtTreeMap.getElem?_erase]
    split
    · exact .inl rfl
    · exact .inr rfl
  · exact refl k p

theorem sendMove (fails : UInt64 → Bool) (p : VONPeer) (targets : List UInt64) (call : VONCall) :
    Drops k p (p.sendMove fails targets call) := by
  rw [VONPeer.sendMove]
  split
  · exact refl k p
  · exact (send p call).trans (foldl deleteNode _ _)

theorem checkConsistency (p : VONPeer) (skipId : UInt64) : Drops k p (p.checkConsistency skipId) :=
  foldl (fun q _ => send q _) _ p

theorem handleBye (p : VONPeer) (sender : UInt64) : Drops k p (p.handleBye sender) := by
  rw [VONPeer.handleBye]
  split
  · exact (checkConsistency p sender).trans (deleteNode _ sender)
  · exact refl k p

theorem leave (p : VONPeer) (notifyNeighbors : Bool) : Drops k p (p.leave notifyNeighbors) := by
  refine ⟨.inl ExtTreeMap.getElem?_empty, ?_, ?_⟩
  · rw [VONPeer.leave]
    dsimp only
    split <;> rfl
  · rw [VONPeer.leave]
    dsimp only
    split <;> rfl

theorem move (hk : k ≠ p.self.id) (now : UInt64) (fails : UInt64 → Bool) (aoi : Area) (sendtime : UInt64) :
    Drops k p (p.move now fails aoi sendtime) := by
  have hself (self : Node) (hid : self.id = p.self.id) (access : Bool → Node)
      (haccess : ∀ b, (access b).id = self.id) : Drops k p
        { ({ p with self } : VONPeer).updateNode self |>.1 with
          self := access (({ p with self } : VONPeer).updateNode self).2 } := by
    rcases updateNode_cases { p with self } self with he | ⟨-, status, he⟩
    · rw [he]
      exact ⟨.inr rfl, rfl, (haccess _).trans hid⟩
    · rw [he]
      refine ⟨.inr ?_, rfl, (haccess _).trans hid⟩
      show (p.id2node.insert self.id self)[k]? = _
      rw [ExtTreeMap.getElem?_insert, if_neg]
      intro hc
      exact hk ((Std.compare_eq_iff_eq.mp hc).symm.trans hid)
  rw [VONPeer.move]
  dsimp only
  refine Drops.trans (Drops.trans (hself _ ?id (fun b => if b = true then accessed now _ else _) ?access)
    (sendMove fails _ _ _)) (sendMove fails _ _ _)
  · rfl
  · intro b
    cases b <;> rfl

end Drops

/-- Every record of `k` is replaced by the later of the two, update by update. -/
structure Takes (k : UInt64) (updates : List Node) (p q : VONPeer) : Prop where
  record : ∀ known, p.id2node[k]? = some known → q.id2node[k]? = some (updates.foldl (newer Node.stamp) known)
  notices : q.newNeighbors = p.newNeighbors
  self : q.self.id = p.self.id

def about (k : UInt64) (nodes : List Node) : List Node := nodes.filter (fun node => node.id == k)

namespace Takes

variable {us vs : List Node}

theorem trans (h : Takes k us p q) (h' : Takes k vs q r) : Takes k (us ++ vs) p r := by
  refine ⟨fun known hk => ?_, h'.notices.trans h.notices, h'.self.trans h.self⟩
  rw [h'.record _ (h.record known hk), List.foldl_append]

theorem trans_leaves (h : Takes k us p q) (h' : Leaves k q r) : Takes k us p r :=
  ⟨fun known hk => h'.record _ (h.record known hk), h'.notices.trans h.notices, h'.self.trans h.self⟩

end Takes

theorem Leaves.takes (h : Leaves k p q) : Takes k [] p q := ⟨h.record, h.notices, h.self⟩

theorem Takes.updateNode (p : VONPeer) (node : Node) : Takes k (about k [node]) p (p.updateNode node).1 := by
  rcases eq_or_ne node.id k with rfl | hne
  · have habout : about node.id [node] = [node] := by simp [about]
    rw [habout, VONPeer.updateNode]
    split
    · rename_i hold
      refine ⟨fun known hk => ?_, rfl, rfl⟩
      have hmem : p.isNeighbor node.id = true :=
        isNeighbor_iff.mpr (ExtTreeMap.mem_iff_isSome_getElem?.mpr (by rw [hk]; rfl))
      have hlt : node.time < (p.nodeOf node.id).time := hold.resolve_left (by rw [hmem]; exact Bool.noConfusion)
      rw [nodeOf, hk] at hlt
      have hstamp : node.stamp < known.stamp := UInt64.lt_iff_toNat_lt.mp hlt
      rw [hk, List.foldl_cons, List.foldl_nil, newer, if_pos hstamp]
    · rename_i hnew
      refine ⟨fun known hk => ?_, rfl, rfl⟩
      have hle : ¬ node.stamp < known.stamp := by
        intro hlt
        refine hnew (.inr ?_)
        rw [nodeOf, hk]
        exact UInt64.lt_iff_toNat_lt.mpr hlt
      show (p.id2node.insert node.id node)[node.id]? = _
      rw [ExtTreeMap.getElem?_insert_self, List.foldl_cons, List.foldl_nil, newer, if_neg hle]
  · have habout : about k [node] = [] := by simp [about, hne]
    rw [habout]
    rcases updateNode_cases p node with he | ⟨-, status, he⟩
    · rw [he]
      exact (Leaves.refl k p).takes
    · rw [he]
      refine ⟨fun known hk => ?_, rfl, rfl⟩
      show (p.id2node.insert node.id node)[k]? = _
      rw [ExtTreeMap.getElem?_insert, if_neg (fun hc => hne (Std.compare_eq_iff_eq.mp hc)), hk]
      rfl

theorem Takes.tryNewNeighbor (r : VONPeer × List Node) (node : Node) :
    Takes k (about k [node]) r.1 (tryNewNeighbor r node).1 := by
  rw [VONPeer.tryNewNeighbor]
  split
  · exact Takes.updateNode r.1 node
  · rename_i hnew
    refine ⟨fun known hk => ?_, rfl, rfl⟩
    have hne : node.id ≠ k := by
      rintro rfl
      exact hnew (isNeighbor_iff.mpr (ExtTreeMap.mem_iff_isSome_getElem?.mpr (by rw [hk]; rfl)))
    have habout : about k [node] = [] := by simp [about, hne]
    rw [habout]
    exact hk

theorem Takes.tryNewNeighbors (l : List Node) (r : VONPeer × List Node) :
    Takes k (about k l) r.1 (l.foldl VONPeer.tryNewNeighbor r).1 := by
  induction l generalizing r with
  | nil => exact (Leaves.refl k r.1).takes
  | cons node l ih =>
    have happend : about k (node :: l) = about k [node] ++ about k l := List.filter_append [node] _
    rw [happend]
    exact (Takes.tryNewNeighbor r node).trans (ih _)

/-- `pending` are the notices about `k` since the last tick, of which the latest is kept. -/
structure Noticed (k : UInt64) (pending : List Node) (p : VONPeer) : Prop where
  keyed : ∀ (j : UInt64) (x : Node), p.newNeighbors[j]? = some x → x.id = j
  latest : p.newNeighbors[k]? = ofBatch Node.stamp pending

variable {pending : List Node}

theorem Noticed.of_eq (h : Noticed k pending p) (hn : q.newNeighbors = p.newNeighbors) : Noticed k pending q :=
  ⟨fun j x hx => h.keyed j x (hn ▸ hx), hn ▸ h.latest⟩

theorem storeNewNeighbor_latest (p : VONPeer) (node : Node) : (p.storeNewNeighbor node).newNeighbors[k]? =
    ofBatch Node.stamp (p.newNeighbors[k]?.toList ++ about k [node]) := by
  rw [VONPeer.storeNewNeighbor]
  rcases eq_or_ne node.id k with rfl | hne
  · have habout : about node.id [node] = [node] := by simp [about]
    have hinsert : (p.newNeighbors.insert node.id node)[node.id]? = some node := ExtTreeMap.getElem?_insert_self
    rw [habout]
    cases hk : p.newNeighbors[node.id]? with
    | none => exact hinsert
    | some known =>
      by_cases hle : known.time ≤ node.time
      · have hstamp : ¬ node.stamp < known.stamp := not_lt.mpr (UInt64.le_iff_toNat_le.mp hle)
        simp [hle, hstamp, ofBatch, newer]
      · have hstamp : node.stamp < known.stamp := UInt64.lt_iff_toNat_lt.mp (UInt64.not_le.mp hle)
        simp [hle, hstamp, hk, ofBatch, newer]
  · have habout : about k [node] = [] := by simp [about, hne]
    have hsame : (if (p.newNeighbors[node.id]?.all fun known => known.time ≤ node.time) = true then
        { p with newNeighbors := p.newNeighbors.insert node.id node } else p).newNeighbors[k]? =
          p.newNeighbors[k]? := by
      split
      · show (p.newNeighbors.insert node.id node)[k]? = _
        rw [ExtTreeMap.getElem?_insert, if_neg (fun hc => hne (Std.compare_eq_iff_eq.mp hc))]
      · rfl
    rw [habout, hsame]
    cases p.newNeighbors[k]? <;> rfl

theorem Noticed.storeNewNeighbor (h : Noticed k pending p) (node : Node) :
    Noticed k (pending ++ about k [node]) (p.storeNewNeighbor node) := by
  refine ⟨fun j x hx => ?_, ?_⟩
  · rw [VONPeer.storeNewNeighbor] at hx
    split at hx
    · change (p.newNeighbors.insert node.id node)[j]? = some x at hx
      rw [ExtTreeMap.getElem?_insert] at hx
      split at hx
      · rename_i hj
        rw [← Option.some.inj hx]
        exact Std.compare_eq_iff_eq.mp hj
      · exact h.keyed j x hx
    · exact h.keyed j x hx
  · rw [storeNewNeighbor_latest, h.latest, ofBatch_append]

theorem Noticed.storeNewNeighbors (h : Noticed k pending p) (nodes : List Node) :
    Noticed k (pending ++ about k nodes) (nodes.foldl VONPeer.storeNewNeighbor p) := by
  induction nodes generalizing p pending with
  | nil =>
    have habout : pending ++ about k [] = pending := List.append_nil pending
    rw [habout]
    exact h
  | cons node nodes ih =>
    have happend : about k (node :: nodes) = about k [node] ++ about k nodes := List.filter_append [node] _
    rw [happend, ← List.append_assoc]
    exact ih (h.storeNewNeighbor node)

theorem Noticed.about_newNeighbors (h : Noticed k pending p) :
    about k (p.newNeighbors.toList.map Prod.snd) = (ofBatch Node.stamp pending).toList := by
  have hkey : (p.newNeighbors.toList.filter (fun e => e.2.id == k)) =
      p.newNeighbors.toList.filter (fun e => e.1 == k) :=
    List.filter_congr fun e he => by rw [h.keyed e.1 e.2 (ExtTreeMap.mem_toList_iff_getElem?_eq_some.mp he)]
  rw [about, List.filter_map]
  show (p.newNeighbors.toList.filter (fun e => e.2.id == k)).map Prod.snd = _
  rw [hkey, Tables.toList_filter_key, h.latest, List.map_map]
  exact List.map_id _

/-- At a tick a known neighbour takes the latest of the notices about it, which comes to taking all of them. -/
theorem Noticed.contactNewNeighbors (h : Noticed k pending p) (hk : p.id2node[k]? = some known) :
    p.contactNewNeighbors.id2node[k]? = some (pending.foldl (newer Node.stamp) known) := by
  have htry := Takes.tryNewNeighbors (k := k) (p.newNeighbors.toList.map Prod.snd) (p, [])
  rw [h.about_newNeighbors] at htry
  rw [VONPeer.contactNewNeighbors]
  generalize (p.newNeighbors.toList.map Prod.snd).foldl VONPeer.tryNewNeighbor (p, []) = r at *
  have hgreet : Takes k _ p (r.2.foldl greetNewNeighbor r.1) :=
    htry.trans_leaves (Leaves.foldl Leaves.greetNewNeighbor r.2 r.1)
  rw [← foldl_ofBatch]
  exact hgreet.record known hk

theorem contactNewNeighbors_self (p : VONPeer) : p.contactNewNeighbors.self.id = p.self.id := by
  rw [VONPeer.contactNewNeighbors]
  have htry := (Takes.tryNewNeighbors (k := 0) (p.newNeighbors.toList.map Prod.snd) (p, [])).self
  generalize (p.newNeighbors.toList.map Prod.snd).foldl VONPeer.tryNewNeighbor (p, []) = r at *
  exact ((Leaves.foldl (k := 0) Leaves.greetNewNeighbor r.2 r.1).self).trans htry

theorem Drops.removeNonOverlapped (now gracePeriod : UInt64) (p : VONPeer) :
    ∃ q, Leaves k p q ∧ Drops k q (p.removeNonOverlapped now gracePeriod) := by
  have hoverlap : Leaves k p _ := Leaves.foldl_fst (Leaves.checkOverlap now gracePeriod) p.id2node.keys (p, [])
  rw [VONPeer.removeNonOverlapped]
  refine ⟨_, hoverlap, ?_⟩
  split
  · exact Drops.refl k _
  · exact (Drops.send _ _).trans (Drops.foldl Drops.deleteNode _ _)

/-- Greetings and moves count only from a neighbour. -/
def fromNeighbor (p : VONPeer) (sender : UInt64) (node : Node) : List Node :=
  if p.isNeighbor sender then [node] else []

theorem Takes.handleHello (now : UInt64) (p : VONPeer) (sender : UInt64) (node : Node) (ids : List UInt64) :
    Takes k (about k (p.fromNeighbor sender node)) p (p.handleHello now sender node ids) := by
  have hanswer (q : VONPeer) : Leaves k q (((q.send (.helloR sender q.self.aoi.center)).checkConsistency
      sender).handleEN sender ids) :=
    ((Leaves.send q _).trans (Leaves.checkConsistency _ sender)).trans (Leaves.handleEN _ sender ids)
  rw [VONPeer.handleHello, fromNeighbor]
  split
  · exact (Takes.updateNode p node).trans_leaves (hanswer _)
  · exact ((Leaves.insertNode now p node).trans (hanswer _)).takes

theorem Takes.handleMove (p : VONPeer) (sender : UInt64) (boundary : Bool) (node : Node) :
    Takes k (about k (p.fromNeighbor sender node)) p (p.handleMove sender boundary node) := by
  rw [VONPeer.handleMove, fromNeighbor]
  dsimp only
  split
  · have hupdate := Takes.updateNode (k := k) p node
    split
    · exact hupdate.trans_leaves (Leaves.of_eq rfl rfl rfl)
    · exact hupdate
  · exact (Leaves.refl k p).takes

/-- The update that a message brings to a record at once. -/
def carried (p : VONPeer) (sender : UInt64) : VONMessage → List Node
  | .hello node _ => p.fromNeighbor sender node
  | .move _ x y time =>
    let known := p.nodeOf sender
    p.fromNeighbor sender { known with aoi := { known.aoi with center := { known.aoi.center with x, y } }, time }
  | .moveF _ node => p.fromNeighbor sender node
  | _ => []

/-- The notices that a message brings for the next tick. -/
def notified : VONMessage → List Node
  | .node nodes => nodes
  | _ => []

/-- What any step does to a record: it goes, or it takes the updates it is handed. -/
structure Follows (k : UInt64) (updates pending : List Node) (p q : VONPeer) : Prop where
  record : ∀ known, p.id2node[k]? = some known →
    q.id2node[k]? = none ∨ q.id2node[k]? = some (updates.foldl (newer Node.stamp) known)
  notices : Noticed k pending q
  self : q.self.id = p.self.id

variable {us : List Node}

theorem Takes.follows (h : Takes k us p q) (hp : Noticed k pending p) : Follows k us pending p q :=
  ⟨fun known hk => .inr (h.record known hk), hp.of_eq h.notices, h.self⟩

theorem Drops.follows (h : Drops k p q) (hp : Noticed k pending p) : Follows k [] pending p q :=
  ⟨fun _ hk => h.record.imp_right fun he => he.trans hk, hp.of_eq h.notices, h.self⟩

theorem storeNewNeighbor_frame (p : VONPeer) (node : Node) :
    (p.storeNewNeighbor node).id2node = p.id2node ∧ (p.storeNewNeighbor node).self = p.self := by
  rw [storeNewNeighbor]
  split <;> exact ⟨rfl, rfl⟩

theorem Noticed.handleMessage (h : Noticed k pending p) (hp : p.state ≠ .absent) (now sender : UInt64)
    (msg : VONMessage) : Follows k (about k (p.carried sender msg)) (pending ++ about k (notified msg)) p
      (p.handleMessage now sender msg) := by
  have hsame : Noticed k (pending ++ about k []) p := by
    rw [show about k [] = [] from rfl, List.append_nil]
    exact h
  unfold VONPeer.handleMessage
  rw [if_neg hp]
  cases msg with
  | hello node ids => exact (Takes.handleHello now p sender node ids).follows hsame
  | move boundary x y time => exact (Takes.handleMove p sender boundary _).follows hsame
  | moveF boundary node => exact (Takes.handleMove p sender boundary node).follows hsame
  | query joiner => exact (Leaves.handleQuery now p sender joiner).takes.follows hsame
  | helloR center => exact (Leaves.handleHelloR now p sender center).takes.follows hsame
  | en ids => exact (Leaves.handleEN p sender ids).takes.follows hsame
  | node nodes =>
    have hframe := List.foldlRecOn (motive := fun q : VONPeer => q.id2node = p.id2node ∧ q.self = p.self) nodes
      VONPeer.storeNewNeighbor ⟨rfl, rfl⟩ fun q hq node _ =>
        ⟨(storeNewNeighbor_frame q node).1.trans hq.1, (storeNewNeighbor_frame q node).2.trans hq.2⟩
    exact ⟨fun known hk => .inr (by rw [hframe.1, hk]; rfl), h.storeNewNeighbors nodes, by rw [hframe.2]⟩
  | bye => exact (Drops.handleBye p sender).follows hsame
  | disconnect => exact (Drops.handleBye p sender).follows hsame

theorem Noticed.tick (h : Noticed k pending p) (now gracePeriod : UInt64) :
    Follows k pending [] p (p.tick now gracePeriod) := by
  have hjoined := Leaves.isJoined (k := k) p
  have hdiscovered := Leaves.checkNeighborDiscovery (k := k) p.isJoined.1.contactNewNeighbors
  obtain ⟨q, hq, hdropped⟩ := Drops.removeNonOverlapped (k := k) now gracePeriod
    p.isJoined.1.contactNewNeighbors.checkNeighborDiscovery
  have hleaves := hdiscovered.trans hq
  have hempty : (p.tick now gracePeriod).newNeighbors = ∅ := hdropped.notices.trans hleaves.notices
  refine ⟨fun known hk => ?_, ⟨fun j x hx => ?_, ?_⟩, ?_⟩
  · have hrecord := (h.of_eq hjoined.notices).contactNewNeighbors (hjoined.record known hk)
    exact hdropped.record.imp_right fun he => he.trans (hleaves.record _ hrecord)
  · rw [hempty, ExtTreeMap.getElem?_empty] at hx
    cases hx
  · rw [hempty]
    exact ExtTreeMap.getElem?_empty
  · exact (hdropped.self.trans hleaves.self).trans ((contactNewNeighbors_self _).trans hjoined.self)

/-- A peer, the notices about one node that wait for the next tick, and the updates about that node that
the peer's record of it has been handed. -/
structure Observed where
  peer : VONPeer
  pending : List Node := []
  updates : List Node := []

def handed (k : UInt64) (o : Observed) : Event → List Node
  | .message _ sender msg => if o.peer.state = .absent then [] else about k (o.peer.carried sender msg)
  | .tick _ _ => o.pending
  | _ => []

def waiting (k : UInt64) (o : Observed) : Event → List Node
  | .message _ _ msg => if o.peer.state = .absent then o.pending else o.pending ++ about k (notified msg)
  | .tick _ _ => []
  | _ => o.pending

def observe (k : UInt64) (o : Observed) (e : Event) : Observed where
  peer := o.peer.step e
  pending := waiting k o e
  updates := o.updates ++ handed k o e

theorem Noticed.step {o : Observed} (h : Noticed k o.pending o.peer) (hk : k ≠ o.peer.self.id) (e : Event) :
    Follows k (handed k o e) (waiting k o e) o.peer (o.peer.step e) := by
  cases e with
  | message now sender msg =>
    rw [handed, waiting]
    split
    · rename_i hp
      have hstays : o.peer.handleMessage now sender msg = o.peer := if_pos hp
      rw [VONPeer.step, hstays]
      exact (Leaves.refl k o.peer).takes.follows h
    · rename_i hp
      exact h.handleMessage hp now sender msg
  | tick now gracePeriod => exact h.tick now gracePeriod
  | move now fails aoi sendtime => exact (Drops.move hk now fails aoi sendtime).follows h
  | join now aoi gateway => exact (Leaves.join now o.peer aoi gateway).takes.follows h
  | leave notifyNeighbors => exact (Drops.leave o.peer notifyNeighbors).follows h

/-- What the invariant of a run says of the peer `i`. -/
structure Observed.Kept (k i : UInt64) (o : Observed) : Prop where
  notices : Noticed k o.pending o.peer
  self : o.peer.self.id = i

theorem Observed.Kept.observe {o : Observed} {i : UInt64} (h : o.Kept k i) (hk : k ≠ i) (e : Event) :
    (observe k o e).Kept k i := by
  have hstep := h.notices.step (h.self ▸ hk) e
  exact ⟨hstep.notices, hstep.self.trans h.self⟩

theorem Observed.Kept.record {o : Observed} {i : UInt64} (h : o.Kept k i) (hk : k ≠ i) {es : List Event}
    (hrecord : o.peer.id2node[k]? = some (o.updates.foldl (newer Node.stamp) known))
    (hstays : StepRun.Always step (fun p => k ∈ p.id2node) o.peer es) :
    (es.foldl step o.peer).id2node[k]? =
      some ((es.foldl (VONPeer.observe k) o).updates.foldl (newer Node.stamp) known) := by
  induction es generalizing o with
  | nil => exact hrecord
  | cons e es ih =>
    obtain ⟨-, hstays⟩ := StepRun.always_cons.mp hstays
    have hmem : k ∈ (o.peer.step e).id2node := hstays [] List.nil_prefix
    refine ih (h.observe hk e) ?_ hstays
    show (o.peer.step e).id2node[k]? = some ((o.updates ++ handed k o e).foldl (newer Node.stamp) known)
    rw [List.foldl_append]
    refine ((h.notices.step (h.self ▸ hk) e).record _ hrecord).resolve_left fun hnone => ?_
    rw [ExtTreeMap.mem_iff_isSome_getElem?, hnone] at hmem
    cases hmem

/-- A run of a new peer, observed for `k`. -/
def watch (k : UInt64) (geometry : Geometry) (self : Node) (aoiBuffer : UInt16) (strictAoi : Bool)
    (es : List Event) : Observed :=
  es.foldl (observe k) { peer := { geometry, self, aoiBuffer, strictAoi } }

theorem watch_kept (geometry : Geometry) {self : Node} (aoiBuffer : UInt16) (strictAoi : Bool)
    (hk : k ≠ self.id) (es : List Event) : (watch k geometry self aoiBuffer strictAoi es).Kept k self.id := by
  refine List.foldlRecOn es (observe k) ⟨⟨fun j x hx => ?_, ExtTreeMap.getElem?_empty⟩, rfl⟩
    fun o ho e _ => ho.observe hk e
  rw [show _ = none from ExtTreeMap.getElem?_empty] at hx
  cases hx

/-- As long as a neighbour is known, its record is the latest of those with the greatest time, among the
record it began with and the updates handed to it since. -/
theorem neighbor_record_latest (geometry : Geometry) {self : Node} (aoiBuffer : UInt16) (strictAoi : Bool)
    (hk : k ≠ self.id) (pre es : List Event)
    (hknown : (watch k geometry self aoiBuffer strictAoi pre).peer.id2node[k]? = some known)
    (hstays : StepRun.Always step (fun p => k ∈ p.id2node) (watch k geometry self aoiBuffer strictAoi pre).peer es) :
    ∃ record, (es.foldl step (watch k geometry self aoiBuffer strictAoi pre).peer).id2node[k]? = some record ∧
      known.time ≤ record.time ∧ IsLatest Node.stamp (known ::
        (es.foldl (observe k)
          { watch k geometry self aoiBuffer strictAoi pre with updates := [] }).updates) record := by
  obtain ⟨hnotices, hself⟩ := watch_kept geometry aoiBuffer strictAoi hk pre
  generalize watch k geometry self aoiBuffer strictAoi pre = o at *
  have hrecord := Observed.Kept.record (o := { o with updates := [] }) ⟨hnotices, hself⟩ hk hknown hstays
  have hlatest : IsLatest Node.stamp _ _ :=
    isLatest_foldl known (es.foldl (observe k) { o with updates := [] }).updates
  exact ⟨_, hrecord, UInt64.le_iff_toNat_le.mpr (hlatest.key_le known List.mem_cons_self), hlatest⟩

def nearGeometry : Geometry := { lonePeer.geometry with within := fun _ _ _ => true }

def metRun : List Event := [.join 0 {} { id := 1 }, .message 0 2 (.hello { id := 2, time := 5 } [])]

def movingRun : List Event :=
  [.message 0 3 (.node [{ id := 2, time := 8 }]), .message 0 2 (.move false ⟨7⟩ ⟨7⟩ 9), .tick 0 1,
    .message 0 2 (.move true ⟨6⟩ ⟨6⟩ 4)]

/-- The older position that comes second-hand and the oldest one that comes late are both passed over. -/
theorem neighbor_record_latest_at_nine :
    ∃ record, (movingRun.foldl step (watch 2 nearGeometry { id := 1 } 0 true metRun).peer).id2node[(2 : UInt64)]? =
        some record ∧ (5 : UInt64) ≤ record.time ∧
      IsLatest Node.stamp ({ id := 2, time := 5 } :: (movingRun.foldl (observe 2)
        { watch 2 nearGeometry { id := 1 } 0 true metRun with updates := [] }).updates) record :=
  have hne : (2 : UInt64) ≠ Node.id { id := 1 } := by decide
  have hmet : (watch 2 nearGeometry { id := 1 } 0 true metRun).peer.id2node[(2 : UInt64)]? =
      some { id := 2, time := 5 } := by decide
  have hstays : StepRun.Always step (fun p => 2 ∈ p.id2node)
      (watch 2 nearGeometry { id := 1 } 0 true metRun).peer movingRun :=
    StepRun.always_cons.mpr ⟨by decide, StepRun.always_cons.mpr ⟨by decide, StepRun.always_cons.mpr
      ⟨by decide, StepRun.always_cons.mpr ⟨by decide, StepRun.always_nil.mpr (by decide)⟩⟩⟩⟩
  neighbor_record_latest nearGeometry 0 true hne metRun movingRun hmet hstays

end VONPeer

end VastNC
