import VastNC.VonPeer
import VastNC.Lib.StepRun
import VastNC.Lib.Tables

/-! The tables of a `VONPeer`, which are updated by hand in many places: which messages, and
which orders of leaving and joining, keep them in agreement. -/

namespace VastNC

open Std (ExtTreeMap)
open Tables (mem_insert_iff mem_erase_iff)

theorem eraseP_congr {α : Type} {f g : α → Bool} {l : List α} (h : ∀ x ∈ l, f x = g x) :
    l.eraseP f = l.eraseP g := by
  induction l with
  | nil => rfl
  | cons x l ih =>
    rw [List.eraseP_cons, List.eraseP_cons, h x List.mem_cons_self,
      ih fun y hy => h y (List.mem_cons_of_mem _ hy)]

theorem foldl_eq_self {σ α : Type} {f : σ → α → σ} {s : σ} {l : List α} (h : ∀ x ∈ l, f s x = s) :
    l.foldl f s = s := by
  induction l with
  | nil => rfl
  | cons x l ih =>
    rw [List.foldl_cons, h x List.mem_cons_self, ih fun y hy => h y (List.mem_cons_of_mem _ hy)]

namespace VoronoiSF

variable {v : VoronoiSF} {id k : UInt64} {pt : Position}

theorem mem_insert : k ∈ (v.insert id pt).ids ↔ k = id ∨ k ∈ v.ids := by
  rw [insert, ids, ids]
  split
  · rename_i h
    exact ⟨.inr, fun hk => hk.elim (fun he => he ▸ h) fun hk => hk⟩
  · simp [or_comm]

theorem mem_remove : k ∈ (v.remove id).ids ↔ k ≠ id ∧ k ∈ v.ids := by
  simp only [remove, ids, List.mem_map, List.mem_filter, bne_iff_ne]
  constructor
  · rintro ⟨s, ⟨hs, hne⟩, rfl⟩
    exact ⟨hne, s, hs, rfl⟩
  · rintro ⟨hne, s, hs, rfl⟩
    exact ⟨s, ⟨hs, hne⟩, rfl⟩

theorem ids_update : (v.update id pt).ids = v.ids := map_fst_update v.sites id pt

theorem getEn_subset (g : Geometry) : v.getEn g id ⊆ v.ids := by
  intro j hj
  obtain ⟨i, -, hi⟩ := List.mem_filterMap.mp hj
  exact List.mem_of_getElem? hi

end VoronoiSF

namespace VONPeer

/-- The four tables name the same nodes, the peer itself first. -/
structure Agree (p : VONPeer) : Prop where
  nodup : p.neighborIds.Nodup
  first : p.neighborIds.head? = some p.self.id
  keyed : ∀ (k : UInt64) (x : Node), p.id2node[k]? = some x → x.id = k
  bound : ∀ k ∈ p.neighbors, k ∈ p.id2node
  nodes : ∀ k, k ∈ p.id2node ↔ k ∈ p.neighborIds
  states : ∀ k, k ∈ p.neighborStates ↔ k ∈ p.neighborIds
  sites : ∀ k, k ∈ p.voronoi.ids ↔ k ∈ p.neighborIds

structure Cleared (p : VONPeer) : Prop where
  neighbors : p.neighbors = []
  nodes : p.id2node = ∅
  states : p.neighborStates = ∅

/-- An absent peer has cleared its tables; those of any other peer agree. -/
def Consistent (p : VONPeer) : Prop :=
  (p.state = .absent → p.Cleared) ∧ (p.state ≠ .absent → p.Agree)

/-- The same invariant of a peer `i` in the state `s`, over the entries that `_neighbors` holds. -/
structure Tables (s : NodeState) (i : UInt64) (p : VONPeer) : Prop where
  state : p.state = s
  self : p.self.id = i
  nodup : p.neighbors.Nodup
  keyed : ∀ (k : UInt64) (x : Node), p.id2node[k]? = some x → x.id = k
  nodes : ∀ k, k ∈ p.id2node ↔ k ∈ p.neighbors
  states : ∀ k, k ∈ p.neighborStates ↔ k ∈ p.neighbors
  first : s ≠ .absent → p.neighbors.head? = some i
  sites : s ≠ .absent → ∀ k, k ∈ p.voronoi.ids ↔ k ∈ p.neighbors
  empty : s = .absent → p.neighbors = []

variable {p : VONPeer} {s : NodeState} {i : UInt64} {id : UInt64} {node : Node}

theorem nodeOf_id (hk : ∀ (k : UInt64) (x : Node), p.id2node[k]? = some x → x.id = k) (h : id ∈ p.id2node) :
    (p.nodeOf id).id = id := by
  obtain ⟨x, hx⟩ := Option.isSome_iff_exists.mp (ExtTreeMap.mem_iff_isSome_getElem?.mp h)
  rw [nodeOf, hx, Option.getD_some, hk id x hx]

theorem neighborIds_eq (hk : ∀ (k : UInt64) (x : Node), p.id2node[k]? = some x → x.id = k)
    (hb : ∀ k ∈ p.neighbors, k ∈ p.id2node) : p.neighborIds = p.neighbors :=
  (List.map_congr_left fun k h => nodeOf_id hk (hb k h)).trans (List.map_id _)

theorem Tables.neighborIds (h : Tables s i p) : p.neighborIds = p.neighbors :=
  neighborIds_eq h.keyed fun k hk => (h.nodes k).mpr hk

theorem consistent_iff : p.Consistent ↔ Tables p.state p.self.id p := by
  constructor
  · rintro ⟨hc, ha⟩
    by_cases hs : p.state = .absent
    · obtain ⟨hn, hm, hk⟩ := hc hs
      exact ⟨rfl, rfl, by simp [hn], by simp [hm], by simp [hn, hm], by simp [hn, hk],
        fun h => absurd hs h, fun h => absurd hs h, fun _ => hn⟩
    · obtain ⟨hd, hf, hk, hb, hn, ht, hv⟩ := ha hs
      rw [neighborIds_eq hk hb] at *
      exact ⟨rfl, rfl, hd, hk, hn, ht, fun _ => hf, fun _ => hv, fun h => absurd h hs⟩
  · intro h
    refine ⟨fun hs => ?_, fun hs => ?_⟩
    · have hn := h.empty hs
      refine ⟨hn, ?_, ?_⟩
      · exact ExtTreeMap.eq_empty_iff_forall_not_mem.mpr fun k hk => by simpa [hn] using (h.nodes k).mp hk
      · exact ExtTreeMap.eq_empty_iff_forall_not_mem.mpr fun k hk => by simpa [hn] using (h.states k).mp hk
    · have he := h.neighborIds
      exact ⟨he ▸ h.nodup, he ▸ h.first hs, h.keyed, fun k hk => (h.nodes k).mpr hk, he ▸ h.nodes,
        he ▸ h.states, he ▸ h.sites hs⟩

theorem isNeighbor_iff : p.isNeighbor id = true ↔ id ∈ p.id2node := ExtTreeMap.contains_iff_mem

theorem Tables.isNeighbor_iff (h : Tables s i p) : p.isNeighbor id = true ↔ id ∈ p.neighbors :=
  VONPeer.isNeighbor_iff.trans (h.nodes id)

theorem Tables.frame {q : VONPeer} (h : Tables s i p) (hs : q.state = p.state) (hi : q.self.id = p.self.id)
    (hn : q.neighbors = p.neighbors) (hm : q.id2node = p.id2node) (hk : q.neighborStates = p.neighborStates)
    (hv : q.voronoi.ids = p.voronoi.ids) : Tables s i q where
  state := hs.trans h.state
  self := hi.trans h.self
  nodup := hn ▸ h.nodup
  keyed := hm ▸ h.keyed
  nodes := hm ▸ hn ▸ h.nodes
  states := hk ▸ hn ▸ h.states
  first := hn ▸ h.first
  sites := hv ▸ hn ▸ h.sites
  empty := hn ▸ h.empty

theorem Tables.withSelf (h : Tables s i p) (self : Node) (hi : self.id = p.self.id) :
    Tables s i { p with self } :=
  h.frame rfl hi rfl rfl rfl rfl

theorem Tables.insertNode (h : Tables s i p) (hs : s ≠ .absent) (now : UInt64) (node : Node) :
    Tables s i (p.insertNode now node) := by
  rw [VONPeer.insertNode]
  split
  · exact h
  · rename_i hnew
    have hid : node.id ∉ p.neighbors := fun hc => hnew (h.isNeighbor_iff.mpr hc)
    refine ⟨h.state, h.self, ?_, fun k x hx => ?_, fun k => ?_, fun k => ?_, fun _ => ?_, fun _ k => ?_,
      fun ha => absurd ha hs⟩
    · rw [← List.concat_eq_append]
      exact h.nodup.concat hid
    · rw [ExtTreeMap.getElem?_insert] at hx
      split at hx
      · rename_i hk
        rw [← Option.some.inj hx, accessed]
        exact Std.compare_eq_iff_eq.mp hk
      · exact h.keyed k x hx
    · rw [mem_insert_iff, h.nodes, List.mem_append, List.mem_singleton, or_comm]
    · rw [mem_insert_iff, h.states, List.mem_append, List.mem_singleton, or_comm]
    · rw [List.head?_append, h.first hs, Option.some_or]
    · rw [VoronoiSF.mem_insert, h.sites hs, List.mem_append, List.mem_singleton, or_comm]

theorem Tables.deleteNode (h : Tables s i p) (hid : id ≠ i) : Tables s i (p.deleteNode id) := by
  rw [VONPeer.deleteNode]
  split
  · have he : p.neighbors.eraseP (fun k => (p.nodeOf k).id == id) = p.neighbors.filter (fun k => k != id) := by
      rw [← h.nodup.erase_eq_filter, List.erase_eq_eraseP']
      exact eraseP_congr fun k hk => by rw [nodeOf_id h.keyed ((h.nodes k).mpr hk)]
    have hmem (k : UInt64) : k ∈ p.neighbors.filter (fun k => k != id) ↔ k ≠ id ∧ k ∈ p.neighbors := by
      rw [List.mem_filter, bne_iff_ne, and_comm]
    refine ⟨h.state, h.self, ?_, fun k x hx => ?_, fun k => ?_, fun k => ?_, fun ha => ?_, fun ha k => ?_,
      fun ha => ?_⟩
    · rw [he]
      exact h.nodup.filter _
    · rw [ExtTreeMap.getElem?_erase] at hx
      split at hx
      · cases hx
      · exact h.keyed k x hx
    · rw [he, hmem, mem_erase_iff, h.nodes]
    · rw [he, hmem, mem_erase_iff, h.states]
    · obtain ⟨rest, hrest⟩ := List.head?_eq_some_iff.mp (h.first ha)
      have hi : (i != id) = true := bne_iff_ne.mpr hid.symm
      rw [he, hrest, List.filter_cons_of_pos (p := fun k => k != id) hi, List.head?_cons]
    · rw [he, hmem, VoronoiSF.mem_remove, h.sites ha]
    · rw [he, h.empty ha, List.filter_nil]
  · exact h

theorem Tables.store (h : Tables s i p) (hid : node.id ∈ p.neighbors) :
    Tables s i { p with id2node := p.id2node.insert node.id node } := by
  refine ⟨h.state, h.self, h.nodup, fun k x hx => ?_, fun k => ?_, h.states, h.first, h.sites, h.empty⟩
  · rw [ExtTreeMap.getElem?_insert] at hx
    split at hx
    · rename_i hk
      rw [← Option.some.inj hx]
      exact Std.compare_eq_iff_eq.mp hk
    · exact h.keyed k x hx
  · rw [mem_insert_iff, h.nodes, or_iff_right_of_imp (fun hk => hk ▸ hid)]

theorem updateNode_cases (p : VONPeer) (node : Node) : (p.updateNode node).1 = p ∨
    p.isNeighbor node.id = true ∧ ∃ updateStatus, (p.updateNode node).1 =
      { p with
        voronoi := p.voronoi.update node.id node.aoi.center
        id2node := p.id2node.insert node.id node
        updateStatus } := by
  rw [VONPeer.updateNode]
  split
  · exact .inl rfl
  · rename_i hc
    rw [not_or, Bool.not_eq_false] at hc
    exact .inr ⟨hc.1, _, rfl⟩

theorem Tables.updateNode (h : Tables s i p) (node : Node) : Tables s i (p.updateNode node).1 := by
  rcases updateNode_cases p node with he | ⟨hn, status, he⟩
  · rwa [he]
  · rw [he]
    exact (h.store (h.isNeighbor_iff.mp hn)).frame rfl rfl rfl rfl rfl VoronoiSF.ids_update

theorem updateNode_frame (node : Node) :
    (p.updateNode node).1.neighbors = p.neighbors ∧ (p.updateNode node).1.self = p.self := by
  rcases updateNode_cases p node with he | ⟨-, status, he⟩
  · rw [he]
    exact ⟨rfl, rfl⟩
  · rw [he]
    exact ⟨rfl, rfl⟩

theorem Tables.mem_insertNode (h : Tables s i p) (now : UInt64) (node : Node) :
    node.id ∈ (p.insertNode now node).neighbors := by
  rw [VONPeer.insertNode]
  split
  · rename_i hn
    exact h.isNeighbor_iff.mp hn
  · exact List.mem_append_right _ (List.mem_singleton_self _)

theorem Tables.know (h : Tables s i p) (hid : id ∈ p.neighbors) (l : ExtTreeMap UInt64 NeighborKnowledge) :
    Tables s i { p with neighborStates := p.neighborStates.insert id l } := by
  refine ⟨h.state, h.self, h.nodup, h.keyed, h.nodes, fun k => ?_, h.first, h.sites, h.empty⟩
  rw [mem_insert_iff, h.states, or_iff_right_of_imp (fun hk => hk ▸ hid)]

theorem Tables.touch (h : Tables s i p) (hid : id ∈ p.neighbors) : p.touch id = p :=
  if_pos (h.isNeighbor_iff.mpr hid)

theorem Tables.send (h : Tables s i p) (call : VONCall) : Tables s i (p.send call) :=
  h.frame rfl rfl rfl rfl rfl rfl

theorem Tables.sendNodes (h : Tables s i p) {list : List UInt64} (hl : ∀ k ∈ list, k ∈ p.neighbors)
    (target : UInt64) (reliable : Bool) :
    Tables s i (p.sendNodes target list reliable) ∧ (p.sendNodes target list reliable).neighbors = p.neighbors := by
  rw [VONPeer.sendNodes]
  dsimp only
  split
  · exact ⟨h, rfl⟩
  · rw [foldl_eq_self fun k hk => h.touch (hl k (List.mem_of_mem_take hk))]
    exact ⟨h.send _, rfl⟩

theorem Tables.checkConsistency (h : Tables s i p) (skipId : UInt64) :
    Tables s i (p.checkConsistency skipId) ∧ (p.checkConsistency skipId).neighbors = p.neighbors := by
  rw [VONPeer.checkConsistency]
  refine List.foldlRecOn (motive := fun q : VONPeer => Tables s i q ∧ q.neighbors = p.neighbors) _ _ ⟨h, rfl⟩ ?_
  exact fun q hq target _ => ⟨hq.1.frame rfl rfl rfl rfl rfl rfl, hq.2⟩

theorem Tables.handleQuery (h : Tables s i p) (hs : s ≠ .absent) (now sender : UInt64) (joiner : Node) :
    Tables s i (p.handleQuery now sender joiner) := by
  rw [VONPeer.handleQuery]
  dsimp only
  split
  · exact h.send _
  · have hq := h.insertNode hs now joiner
    refine (hq.sendNodes (fun k hk => ?_) _ _).1
    rw [hq.neighborIds] at hk
    exact List.mem_of_mem_filter hk

theorem Tables.handleEN (h : Tables s i p) (hs : s ≠ .absent) {sender : UInt64} (hk : sender ∈ p.neighbors)
    (ids : List UInt64) : Tables s i (p.handleEN sender ids) := by
  rw [VONPeer.handleEN]
  dsimp only
  generalize ids.foldl (fun m id => m.insertIfNew id ⟨true, false⟩) (∅ : ExtTreeMap UInt64 NeighborKnowledge) = list
  have hq := h.know hk list
  have hen {f : UInt64 → Bool} {k : UInt64} (hf : k ∈ (p.voronoi.getEn p.geometry p.self.id).filter f) :
      k ∈ p.neighbors :=
    (h.sites hs k).mp (VoronoiSF.getEn_subset p.geometry (List.mem_of_mem_filter hf))
  rw [foldl_eq_self fun k hm => by rw [hq.touch (hen hm), hq.touch hk]]
  exact (hq.sendNodes (fun k hm => hen (List.mem_of_mem_filter hm)) _ _).1

theorem Tables.handleHello (h : Tables s i p) (hs : s ≠ .absent) (now : UInt64) {sender : UInt64} {node : Node}
    (hk : p.isNeighbor sender = true ∨ node.id = sender) (ids : List UInt64) :
    Tables s i (p.handleHello now sender node ids) := by
  rw [VONPeer.handleHello]
  generalize hr : (if p.isNeighbor sender = true then (p.updateNode node).1 else p.insertNode now node) = r
  have hq : Tables s i r ∧ sender ∈ r.neighbors := by
    rw [← hr]
    split
    · rename_i hn
      refine ⟨h.updateNode node, ?_⟩
      rw [(updateNode_frame node).1]
      exact h.isNeighbor_iff.mp hn
    · rename_i hn
      obtain rfl := hk.resolve_left hn
      exact ⟨h.insertNode hs now node, h.mem_insertNode now node⟩
  obtain ⟨hc, hn⟩ := (hq.1.send (.helloR sender r.self.aoi.center)).checkConsistency sender
  exact hc.handleEN hs (hn ▸ hq.2) ids

theorem Tables.handleHelloR (h : Tables s i p) (hs : s ≠ .absent) (now sender : UInt64) (center : Position) :
    Tables s i (p.handleHelloR now sender center) := by
  rw [VONPeer.handleHelloR]
  split
  · exact (h.insertNode hs now _).frame rfl rfl rfl rfl rfl rfl
  · exact h

theorem Tables.handleMove (h : Tables s i p) (sender : UInt64) (boundary : Bool) (node : Node) :
    Tables s i (p.handleMove sender boundary node) := by
  rw [VONPeer.handleMove]
  dsimp only
  split
  · have hq := h.updateNode node
    split
    · exact hq.frame rfl rfl rfl rfl rfl rfl
    · exact hq
  · exact h

theorem Tables.storeNewNeighbor (h : Tables s i p) (node : Node) : Tables s i (p.storeNewNeighbor node) := by
  rw [VONPeer.storeNewNeighbor]
  split
  · exact h.frame rfl rfl rfl rfl rfl rfl
  · exact h

theorem Tables.handleBye (h : Tables s i p) {sender : UInt64} (hk : sender ≠ i) :
    Tables s i (p.handleBye sender) := by
  rw [VONPeer.handleBye]
  split
  · exact (h.checkConsistency sender).1.deleteNode hk
  · exact h

/-- The state within `contactNewNeighbors`: the unknown nodes are sites for the time being. -/
structure Trying (s : NodeState) (i : UInt64) (p : VONPeer) (r : VONPeer × List Node) : Prop where
  tables : Tables s i { r.1 with voronoi := p.voronoi }
  neighbors : r.1.neighbors = p.neighbors
  fresh : ∀ x ∈ r.2, x.id ∉ p.neighbors
  sites : ∀ k, k ∈ r.1.voronoi.ids ↔ k ∈ p.voronoi.ids ∨ ∃ x ∈ r.2, x.id = k

theorem Trying.updateNode {r : VONPeer × List Node} (h : Trying s i p r) (x : Node) :
    Trying s i p ((r.1.updateNode x).1, r.2) := by
  rcases updateNode_cases r.1 x with he | ⟨hn, status, he⟩
  · rw [he]
    exact h
  · have ht := h.tables.store (h.tables.isNeighbor_iff.mp hn)
    rw [he]
    refine ⟨ht.frame rfl rfl rfl rfl rfl rfl, h.neighbors, h.fresh, fun k => ?_⟩
    rw [VoronoiSF.ids_update, h.sites]

theorem Trying.tryNewNeighbor {r : VONPeer × List Node} (h : Trying s i p r) (x : Node) :
    Trying s i p (tryNewNeighbor r x) := by
  rw [VONPeer.tryNewNeighbor]
  split
  · exact h.updateNode x
  · rename_i hn
    have hx : x.id ∉ p.neighbors := fun hc => hn (h.tables.isNeighbor_iff.mpr (h.neighbors ▸ hc))
    refine ⟨h.tables, h.neighbors, fun y hy => ?_, fun k => ?_⟩
    · rcases List.mem_append.mp hy with hy | hy
      · exact h.fresh y hy
      · rwa [List.mem_singleton.mp hy]
    · rw [VoronoiSF.mem_insert, h.sites, eq_comm (a := k)]
      simp only [List.mem_append, List.mem_singleton, or_and_right, exists_or, exists_eq_left]
      exact or_comm.trans or_assoc

theorem Trying.greetNewNeighbor {r : VONPeer × List Node} (h : Trying s i p r) (x : Node) :
    Trying s i p (r.1.greetNewNeighbor x, r.2) := by
  rw [VONPeer.greetNewNeighbor, sendHello]
  split
  · split
    · exact ⟨h.tables.frame rfl rfl rfl rfl rfl rfl, h.neighbors, h.fresh, h.sites⟩
    · exact ⟨h.tables.frame rfl rfl rfl rfl rfl rfl, h.neighbors, h.fresh, h.sites⟩
  · exact h

theorem mem_foldl_remove {v : VoronoiSF} {l : List Node} {k : UInt64} :
    k ∈ (l.foldl (fun v x => v.remove x.id) v).ids ↔ (∀ x ∈ l, x.id ≠ k) ∧ k ∈ v.ids := by
  induction l generalizing v with
  | nil => simp
  | cons x l ih =>
    rw [List.foldl_cons, ih, VoronoiSF.mem_remove, List.forall_mem_cons, ne_comm]
    tauto

theorem Tables.contactNewNeighbors (h : Tables s i p) : Tables s i p.contactNewNeighbors := by
  have ht : Trying s i p ((p.newNeighbors.toList.map Prod.snd).foldl VONPeer.tryNewNeighbor (p, [])) :=
    List.foldlRecOn _ _ ⟨h, rfl, by simp, by simp⟩ fun r hr x _ => hr.tryNewNeighbor x
  rw [VONPeer.contactNewNeighbors]
  generalize (p.newNeighbors.toList.map Prod.snd).foldl VONPeer.tryNewNeighbor (p, []) = r at *
  have hq : Trying s i p (r.2.foldl VONPeer.greetNewNeighbor r.1, r.2) :=
    List.foldlRecOn (motive := fun q => Trying s i p (q, r.2)) r.2 _ ht fun q hq x _ => hq.greetNewNeighbor x
  obtain ⟨hn, hf, hv⟩ := And.intro hq.neighbors (And.intro hq.fresh hq.sites)
  have hq := hq.tables
  refine ⟨hq.state, hq.self, hq.nodup, hq.keyed, hq.nodes, hq.states, hq.first, fun ha k => ?_, hq.empty⟩
  rw [mem_foldl_remove, hv]
  constructor
  · rintro ⟨hne, hk | ⟨x, hx, he⟩⟩
    · exact (hq.sites ha k).mp hk
    · exact absurd he (hne x hx)
  · intro hk
    exact ⟨fun x hx he => hf x hx (he ▸ hn ▸ hk), .inl ((hq.sites ha k).mpr hk)⟩

theorem Tables.discover (h : Tables s i p) (hid : id ∈ p.neighbors) :
    Tables s i (p.discover id) ∧ (p.discover id).neighbors = p.neighbors := by
  rw [VONPeer.discover, h.touch hid, ite_self]
  dsimp only
  split
  · refine (h.know hid _).sendNodes (fun k hk => ?_) _ _
    have hk := List.mem_of_mem_filter (List.mem_of_mem_filter (List.mem_of_mem_filter hk))
    rwa [h.neighborIds] at hk
  · exact ⟨h.know hid _, rfl⟩

theorem Tables.checkNeighborDiscovery (h : Tables s i p) : Tables s i p.checkNeighborDiscovery := by
  rw [VONPeer.checkNeighborDiscovery, h.neighborIds]
  have hq := List.foldlRecOn (motive := fun q : VONPeer => Tables s i q ∧ q.neighbors = p.neighbors)
    (p.neighbors.filter fun id => id != p.self.id) VONPeer.discover ⟨h, rfl⟩ fun q hq k hk => by
      have hm : k ∈ q.neighbors := hq.2 ▸ List.mem_of_mem_filter hk
      obtain ⟨ht, hn⟩ := hq.1.discover hm
      exact ⟨ht, hn.trans hq.2⟩
  exact hq.1.frame rfl rfl rfl rfl rfl rfl

theorem Tables.deleteNodes (h : Tables s i p) {l : List UInt64} (hl : ∀ k ∈ l, k ≠ i) :
    Tables s i (l.foldl VONPeer.deleteNode p) :=
  List.foldlRecOn l _ h fun _ hq k hk => hq.deleteNode (hl k hk)

theorem Tables.checkOverlap {r : VONPeer × List UInt64} (h : Tables s i r.1) (hr : ∀ k ∈ r.2, k ≠ i)
    (now gracePeriod id : UInt64) : Tables s i (VONPeer.checkOverlap now gracePeriod r id).1 ∧
      ∀ k ∈ (VONPeer.checkOverlap now gracePeriod r id).2, k ≠ i := by
  rw [VONPeer.checkOverlap]
  split
  · exact ⟨h.frame rfl rfl rfl rfl rfl rfl, hr⟩
  · rename_i hid
    rw [not_or, h.self] at hid
    split
    · refine ⟨h.frame rfl rfl rfl rfl rfl rfl, fun k hk => ?_⟩
      rcases List.mem_append.mp hk with hk | hk
      · exact hr k hk
      · exact List.mem_singleton.mp hk ▸ hid.1
    · exact ⟨h, hr⟩

theorem Tables.removeNonOverlapped (h : Tables s i p) (now gracePeriod : UInt64) :
    Tables s i (p.removeNonOverlapped now gracePeriod) := by
  have hr : Tables s i (p.id2node.keys.foldl (VONPeer.checkOverlap now gracePeriod) (p, [])).1 ∧
      ∀ k ∈ (p.id2node.keys.foldl (VONPeer.checkOverlap now gracePeriod) (p, [])).2, k ≠ i :=
    List.foldlRecOn (motive := fun r : VONPeer × List UInt64 => Tables s i r.1 ∧ ∀ k ∈ r.2, k ≠ i) _ _
      ⟨h, fun k hk => absurd hk List.not_mem_nil⟩ fun r hr k _ => hr.1.checkOverlap hr.2 now gracePeriod k
  rw [VONPeer.removeNonOverlapped]
  split
  · exact hr.1
  · exact (hr.1.send _).deleteNodes hr.2

theorem Tables.sendMove (h : Tables s i p) (fails : UInt64 → Bool) {targets : List UInt64}
    (ht : ∀ k ∈ targets, k ≠ i) (call : VONCall) : Tables s i (p.sendMove fails targets call) := by
  rw [VONPeer.sendMove]
  split
  · exact h
  · exact (h.send call).deleteNodes fun k hk => ht k (List.mem_of_mem_filter hk)

theorem Tables.move (h : Tables s i p) (now : UInt64) (fails : UInt64 → Bool) (aoi : Area) (sendtime : UInt64) :
    Tables s i (p.move now fails aoi sendtime) := by
  have hothers {f : UInt64 → Bool} {k : UInt64}
      (hk : k ∈ ((p.id2node.toList.filter (fun e => e.1 != p.self.id)).map Prod.fst).filter f) : k ≠ i := by
    obtain ⟨e, he, rfl⟩ := List.mem_map.mp (List.mem_of_mem_filter hk)
    rw [← h.self]
    exact bne_iff_ne.mp (List.mem_filter.mp he).2
  rw [VONPeer.move]
  dsimp only
  refine Tables.sendMove (Tables.sendMove ?move fails (fun k hk => hothers hk) _) fails (fun k hk => hothers hk) _
  refine ((h.withSelf _ ?_).updateNode _).withSelf _ ?_
  · rfl
  · rw [(updateNode_frame _).2, apply_ite Node.id]
    exact ite_self _

inductive Event where
  | message (now sender : UInt64) (msg : VONMessage)
  | move (now : UInt64) (fails : UInt64 → Bool) (aoi : Area) (sendtime : UInt64)
  | tick (now gracePeriod : UInt64)
  | join (now : UInt64) (aoi : Area) (gateway : Node)
  | leave (notifyNeighbors : Bool)

def step (p : VONPeer) : Event → VONPeer
  | .message now sender msg => p.handleMessage now sender msg
  | .move now fails aoi sendtime => p.move now fails aoi sendtime
  | .tick now gracePeriod => p.tick now gracePeriod
  | .join now aoi gateway => p.join now aoi gateway
  | .leave notifyNeighbors => p.leave notifyNeighbors

/-- A message that speaks for a node that is not known as a neighbour, or for the peer itself,
splits the tables, and so does a join over a diagram that still has the sites of the last one. -/
def Keeps (p : VONPeer) : Event → Prop
  | .message _ sender msg => p.state = .absent ∨
    match msg with
    | .hello node _ => p.isNeighbor sender = true ∨ node.id = sender
    | .en _ => p.isNeighbor sender = true
    | .bye => sender ≠ p.self.id
    | .disconnect => sender ≠ p.self.id
    | _ => True
  | .join _ _ _ => p.state = .absent → ∀ k ∈ p.voronoi.ids, k = p.self.id
  | _ => True

theorem Tables.handleMessage (h : Tables s i p) {now sender : UInt64} {msg : VONMessage}
    (hk : p.Keeps (.message now sender msg)) : Tables s i (p.handleMessage now sender msg) := by
  unfold VONPeer.handleMessage
  split
  · exact h
  · rename_i hp
    have hs : s ≠ .absent := h.state ▸ hp
    have hk := hk.resolve_left hp
    cases msg with
    | query joiner => exact h.handleQuery hs now sender joiner
    | hello node ids => exact h.handleHello hs now hk ids
    | helloR center => exact h.handleHelloR hs now sender center
    | en ids => exact h.handleEN hs (h.isNeighbor_iff.mp hk) ids
    | move boundary x y time => exact h.handleMove sender boundary _
    | moveF boundary node => exact h.handleMove sender boundary node
    | node nodes => exact List.foldlRecOn nodes _ h fun q hq x _ => hq.storeNewNeighbor x
    | bye => exact h.handleBye (h.self ▸ hk)
    | disconnect => exact h.handleBye (h.self ▸ hk)

theorem Tables.consistent (h : Tables s i p) : p.Consistent := by
  obtain rfl := h.state
  obtain rfl := h.self
  exact consistent_iff.mpr h

theorem Tables.activate (h : Tables s i p) (hs : s ≠ .absent) {t : NodeState} (ht : t ≠ .absent) :
    Tables t i { p with state := t } :=
  ⟨rfl, h.self, h.nodup, h.keyed, h.nodes, h.states, fun _ => h.first hs, fun _ => h.sites hs,
    fun ha => absurd ha ht⟩

theorem Tables.isJoined (h : Tables s i p) : ∃ t, (t = .absent ↔ s = .absent) ∧ Tables t i p.isJoined.1 := by
  rw [VONPeer.isJoined]
  dsimp only
  split
  · rename_i hj
    have hs : s ≠ .absent := by
      rw [← h.state, hj.1]
      exact NodeState.noConfusion
    exact ⟨.joined, iff_of_false NodeState.noConfusion hs, h.activate hs NodeState.noConfusion⟩
  · exact ⟨s, .rfl, h⟩

theorem Tables.tick (h : Tables s i p) (now gracePeriod : UInt64) : (p.tick now gracePeriod).Consistent := by
  obtain ⟨t, -, ht⟩ := h.isJoined
  exact (ht.contactNewNeighbors.checkNeighborDiscovery.removeNonOverlapped now gracePeriod).consistent

theorem leave_consistent (p : VONPeer) (notifyNeighbors : Bool) : (p.leave notifyNeighbors).Consistent :=
  ⟨fun _ => ⟨rfl, rfl, rfl⟩, fun h => absurd rfl h⟩

theorem Cleared.insertNode_consistent (hc : p.Cleared) (now : UInt64) (self : Node) {t : NodeState}
    {net : List VONCall} (hid : self.id = p.self.id) (ht : t ≠ .absent) :
    ({ p.insertNode now self with self := accessed now self, state := t, net } : VONPeer).Consistent ↔
      ∀ k ∈ p.voronoi.ids, k = p.self.id := by
  have hnew : ¬ p.isNeighbor self.id = true := by
    rw [isNeighbor_iff, hc.nodes]
    exact ExtTreeMap.not_mem_empty
  have hsingle (k : UInt64) : k ∈ p.neighbors ++ [self.id] ↔ k = self.id := by
    rw [hc.neighbors, List.nil_append, List.mem_singleton]
  rw [VONPeer.insertNode, if_neg hnew]
  constructor
  · intro h k hk
    have hs := ((consistent_iff.mp h).sites ht k).mp (VoronoiSF.mem_insert.mpr (.inr hk))
    exact ((hsingle k).mp hs).trans hid
  · intro h
    refine Tables.consistent (s := t) (i := self.id) ⟨rfl, rfl, ?_, fun k x hx => ?_, fun k => ?_, fun k => ?_,
      fun _ => ?_, fun _ k => ?_, fun ha => absurd ha ht⟩
    · rw [hc.neighbors]
      exact List.nodup_singleton _
    · rw [hc.nodes, ExtTreeMap.getElem?_insert] at hx
      split at hx
      · rename_i hk
        rw [← Option.some.inj hx]
        exact Std.compare_eq_iff_eq.mp hk
      · rw [ExtTreeMap.getElem?_empty] at hx
        cases hx
    · rw [mem_insert_iff, hc.nodes, hsingle]
      exact or_iff_left ExtTreeMap.not_mem_empty
    · rw [mem_insert_iff, hc.states, hsingle]
      exact or_iff_left ExtTreeMap.not_mem_empty
    · rw [hc.neighbors]
      rfl
    · rw [VoronoiSF.mem_insert, hsingle]
      exact or_iff_left_of_imp fun hk => (h k hk).trans hid.symm

theorem join_consistent_iff (h : p.Consistent) (now : UInt64) (aoi : Area) (gateway : Node) :
    (p.join now aoi gateway).Consistent ↔ p.Keeps (.join now aoi gateway) := by
  have ht := consistent_iff.mp h
  rw [VONPeer.join, Keeps]
  dsimp only
  by_cases hs : p.state = .absent
  · have hj : p.isJoined = (p, false) := by
      have hn : ¬ (p.state = .joining ∧ 1 < p.neighbors.length) := fun hc =>
        NodeState.noConfusion (hs.symm.trans hc.1)
      rw [VONPeer.isJoined, if_neg hn, hs]
      rfl
    have hc := h.1 hs
    have hnew : ¬ p.isNeighbor p.self.id = true := by
      rw [isNeighbor_iff, hc.nodes]
      exact ExtTreeMap.not_mem_empty
    rw [hj]
    simp only [hs, forall_const, if_neg hnew, Bool.false_eq_true, if_false]
    split
    · exact hc.insertNode_consistent now { p.self with aoi } rfl NodeState.noConfusion
    · exact hc.insertNode_consistent now { p.self with aoi } rfl NodeState.noConfusion
  · refine iff_of_true ?_ fun ha => absurd ha hs
    obtain ⟨t, hta, ht⟩ := ht.isJoined
    have htn : t ≠ .absent := fun ha => hs (hta.mp ha)
    generalize p.isJoined = r at *
    have hmem : r.1.isNeighbor r.1.self.id = true :=
      ht.isNeighbor_iff.mpr (ht.self ▸ List.mem_of_mem_head? (ht.first htn))
    have hi : r.1.insertNode now { r.1.self with aoi } = r.1 := if_pos hmem
    rw [hi, if_pos hmem]
    split
    · exact ht.consistent
    · split
      · exact ((ht.withSelf { r.1.self with aoi } rfl).activate htn NodeState.noConfusion).consistent
      · exact (((ht.withSelf { r.1.self with aoi } rfl).send _).activate htn
          NodeState.noConfusion).consistent

structure Marked (sender : UInt64) (neighbors : List UInt64) (p : VONPeer) : Prop where
  mem : sender ∈ p.neighborStates
  eq : p.neighbors = neighbors

variable {sender : UInt64} {ns : List UInt64}

theorem Marked.touch (h : Marked sender ns p) (id : UInt64) : Marked sender ns (p.touch id) := by
  rw [VONPeer.touch]
  split
  · exact h
  · exact ⟨h.mem, h.eq⟩

theorem Marked.sendNodes (h : Marked sender ns p) (target : UInt64) (list : List UInt64) (reliable : Bool) :
    Marked sender ns (p.sendNodes target list reliable) := by
  rw [VONPeer.sendNodes]
  dsimp only
  split
  · exact h
  · have hq := List.foldlRecOn (motive := Marked sender ns) (list.take (listsize list)) VONPeer.touch h
      fun q hq k _ => hq.touch k
    exact ⟨hq.mem, hq.eq⟩

theorem handleEN_marked (p : VONPeer) (sender : UInt64) (ids : List UInt64) :
    Marked sender p.neighbors (p.handleEN sender ids) := by
  rw [handleEN]
  dsimp only
  apply Marked.sendNodes
  refine List.foldlRecOn (motive := Marked sender p.neighbors) _ _ ⟨?_, rfl⟩ fun q hq k _ => ?_
  · exact mem_insert_iff.mpr (.inl rfl)
  · exact (hq.touch k).touch sender

theorem Marked.inconsistent (h : Marked sender ns p) (hn : sender ∉ ns) : ¬ p.Consistent := by
  intro hc
  have hm := ((consistent_iff.mp hc).states sender).mp h.mem
  exact hn (h.eq ▸ hm)

theorem mem_neighbors_insertNode {now k : UInt64} (hk : k ∈ (p.insertNode now node).neighbors) :
    k ∈ p.neighbors ∨ k = node.id := by
  rw [VONPeer.insertNode] at hk
  split at hk
  · exact .inl hk
  · exact (List.mem_append.mp hk).imp_right List.mem_singleton.mp

theorem Tables.handleHello_inconsistent (h : Tables s i p) (hs : s ≠ .absent) (now : UInt64) (ids : List UInt64)
    (hn : ¬ p.isNeighbor sender = true) (hid : node.id ≠ sender) :
    ¬ (p.handleHello now sender node ids).Consistent := by
  rw [VONPeer.handleHello, if_neg hn]
  refine (handleEN_marked _ sender ids).inconsistent fun hm => ?_
  have hq := (h.insertNode hs now node).send (.helloR sender (p.insertNode now node).self.aoi.center)
  rw [(hq.checkConsistency sender).2] at hm
  rcases mem_neighbors_insertNode hm with hk | hk
  · exact hn (h.isNeighbor_iff.mpr hk)
  · exact hid hk.symm

theorem not_mem_deleteNode (p : VONPeer) (id : UInt64) : id ∉ (p.deleteNode id).id2node := by
  rw [VONPeer.deleteNode]
  split
  · exact fun hc => (mem_erase_iff.mp hc).1 rfl
  · rename_i hn
    exact fun hc => hn (isNeighbor_iff.mpr hc)

theorem deleteNode_frame (p : VONPeer) (id : UInt64) :
    (p.deleteNode id).state = p.state ∧ (p.deleteNode id).self = p.self := by
  rw [VONPeer.deleteNode]
  split
  · exact ⟨rfl, rfl⟩
  · exact ⟨rfl, rfl⟩

/-- A peer that is told that it has gone itself is no longer its own first neighbour. -/
theorem Tables.handleBye_inconsistent (h : Tables s i p) (hs : s ≠ .absent) : ¬ (p.handleBye i).Consistent := by
  have hself : i ∈ p.neighborIds := h.neighborIds ▸ List.mem_of_mem_head? (h.first hs)
  have hq := (h.checkConsistency i).1
  obtain ⟨hstate, hi⟩ := deleteNode_frame (p.checkConsistency i) i
  rw [VONPeer.handleBye, if_pos hself]
  intro hc
  have ht := consistent_iff.mp hc
  rw [hstate, hi, hq.state, hq.self] at ht
  exact not_mem_deleteNode _ i ((ht.nodes i).mpr (List.mem_of_mem_head? (ht.first hs)))

theorem handleMessage_consistent_iff (h : p.Consistent) (now sender : UInt64) (msg : VONMessage) :
    (p.handleMessage now sender msg).Consistent ↔ p.Keeps (.message now sender msg) := by
  have ht := consistent_iff.mp h
  refine ⟨fun hc => ?_, fun hk => (ht.handleMessage hk).consistent⟩
  by_contra hk
  obtain ⟨hs, hk⟩ := not_or.mp hk
  unfold handleMessage at hc
  rw [if_neg hs] at hc
  cases msg with
  | hello node ids =>
    obtain ⟨hn, hid⟩ := not_or.mp hk
    exact ht.handleHello_inconsistent hs now ids hn hid hc
  | en ids => exact (handleEN_marked p sender ids).inconsistent (fun hm => hk (ht.isNeighbor_iff.mpr hm)) hc
  | bye =>
    obtain rfl := not_not.mp hk
    exact ht.handleBye_inconsistent hs hc
  | disconnect =>
    obtain rfl := not_not.mp hk
    exact ht.handleBye_inconsistent hs hc
  | _ => exact hk trivial

theorem step_consistent_iff (h : p.Consistent) (e : Event) : (p.step e).Consistent ↔ p.Keeps e := by
  have ht := consistent_iff.mp h
  cases e with
  | message now sender msg => exact handleMessage_consistent_iff h now sender msg
  | move now fails aoi sendtime => exact iff_of_true (ht.move now fails aoi sendtime).consistent trivial
  | tick now gracePeriod => exact iff_of_true (ht.tick now gracePeriod) trivial
  | join now aoi gateway => exact join_consistent_iff h now aoi gateway
  | leave notifyNeighbors => exact iff_of_true (leave_consistent p notifyNeighbors) trivial

theorem neighbor_tables_agree_iff (geometry : Geometry) (self : Node) (aoiBuffer : UInt16) (strictAoi : Bool)
    (es : List Event) :
    StepRun.Always step Consistent { geometry, self, aoiBuffer, strictAoi } es ↔
      StepRun.Along step Keeps { geometry, self, aoiBuffer, strictAoi } es := by
  rw [StepRun.always_iff_along fun p e hp => step_consistent_iff hp e]
  exact and_iff_right ⟨fun _ => ⟨rfl, rfl, rfl⟩, fun h => absurd rfl h⟩

def lonePeer : VONPeer where
  geometry :=
    { isPointInsideSiteRegion := fun _ _ _ => true
      enclosed := fun _ _ _ _ => true
      collides := fun _ _ _ _ => false
      getNeighborSet := fun _ _ => []
      within := fun _ _ _ => false
      closestTo := fun _ _ => 1
      freePosition := fun _ pos => pos }
  self := { id := 1 }
  aoiBuffer := 0

def strangerRun : VONPeer := [.join 0 {} { id := 1 }, .message 0 5 (.en [])].foldl step lonePeer

def rejoinRun : VONPeer :=
  [.join 0 {} { id := 1 }, .message 0 2 (.hello { id := 2 } []), .leave true, .join 0 {} { id := 1 }].foldl step lonePeer

/-- The stranger is among the states only, the neighbour from before among the sites only. -/
theorem neighbor_tables_split : (strangerRun.state = .joined ∧ ¬ strangerRun.Agree) ∧
    rejoinRun.state = .joined ∧ ¬ rejoinRun.Agree := by
  refine ⟨⟨by decide, fun h => ?_⟩, by decide, fun h => ?_⟩
  · have hm := (h.states 5).mp (by decide)
    exact absurd hm (by decide)
  · have hm := (h.sites 2).mp (by decide)
    exact absurd hm (by decide)

end VONPeer

end VastNC
