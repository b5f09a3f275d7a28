import VastNC.VsoPeer

/-! Ownership that a `VSOPeer` gives up is announced in the same tick, one message for each peer
that is to have it; the count of a message is one byte. -/

namespace VastNC

open Message

namespace Custody

def leaves (v : VSOView) (self : UInt64) (now : Nat) (c : Custody) : Bool :=
  c.object.isOwner && !v.contains c.object.aoi.center && c.transferTimeout.any (fun due => due ≤ now) &&
    v.closestTo c.object.aoi.center != self

variable {t : VSOTiming} {v : VSOView} {self id : UInt64} {now : Nat} {c : Custody}

theorem checkOutside_leaves (h : c.leaves v self now = true) :
    c.checkOutside t v self id now = c.release t self id (v.closestTo c.object.aoi.center) now := by
  rw [leaves, Bool.and_eq_true, Bool.and_eq_true, Bool.and_eq_true, bne_iff_ne] at h
  obtain ⟨⟨⟨hown, -⟩, hdue⟩, hother⟩ := h
  obtain ⟨due, hd, hle⟩ := (Option.any_eq_true ..).mp hdue
  rw [checkOutside, if_pos hown, hd]
  exact if_pos ⟨of_decide_eq_true hle, hother⟩

theorem checkOutside_stays (hout : v.contains c.object.aoi.center = false) (h : c.leaves v self now = false) :
    (c.checkOutside t v self id now).1.object = c.object ∧ (c.checkOutside t v self id now).2 = [] := by
  rw [checkOutside]
  split
  · rename_i hown
    split
    · exact ⟨rfl, rfl⟩
    · rename_i due hd
      have hlate : ¬ (now ≥ due ∧ v.closestTo c.object.aoi.center ≠ self) := by
        rintro ⟨hle, hother⟩
        simp [leaves, hown, hout, hd, hle, hother] at h
      rw [if_neg hlate]
      exact ⟨rfl, rfl⟩
  · exact ⟨rfl, rfl⟩

theorem isOwner_transit (d : Custody) : (d.checkTransit id now).1.object.isOwner =
    (d.object.isOwner || d.object.inTransit != 0 && decide (d.object.inTransit ≤ now)) := by
  rw [checkTransit]
  by_cases h : d.object.inTransit ≠ 0 ∧ now ≥ d.object.inTransit
  · rw [if_pos h]
    simp [claim, claimOwnership, h.1, h.2]
  · rw [if_neg h]
    have hno : (d.object.inTransit != 0 && decide (d.object.inTransit ≤ now)) = false := by
      simpa [bne_iff_ne] using h
    rw [hno, Bool.or_false]

/-- An owner that is none behind its turn has left, also where the timeout of a transfer is 0. -/
theorem leaves_of_cleared (hown : c.object.isOwner = true)
    (h : (c.check t v self id now).1.object.isOwner = false) : c.leaves v self now = true := by
  rw [check] at h
  dsimp only at h
  rw [isOwner_transit, Bool.or_eq_false_iff] at h
  have hno := h.1
  by_contra hl
  rw [Bool.not_eq_true] at hl
  cases hin : v.contains c.object.aoi.center with
  | false =>
    rw [hin, if_pos rfl, (checkOutside_stays hin hl).1, hown] at hno
    cases hno
  | true =>
    rw [hin, if_neg Bool.true_eq_false.mp, checkInside, if_pos hown, hown] at hno
    cases hno

end Custody

namespace VSOPeer

/-- The objects of which a tick gives the ownership to `target`. -/
def leaving (v : VSOView) (now : Nat) (p : VSOPeer) (target : UInt64) : List UInt64 :=
  (p.objects.toList.map Prod.fst).filter (fun id => (p.custody id).any (fun c =>
    c.leaves v p.self now && v.closestTo c.object.aoi.center == target))

/-- The transfer is listed in a message that goes to the new owner too, and when the new owner
reads it, it owns the object, if it has it. -/
def Announced (outs : List VSOOutput) (tr : VSOOwnerTransfer) : Prop :=
  ∃ msg, .transfer msg ∈ outs ∧ tr.newOwner ∈ msg.targets ∧
    ∀ m : Message, m.data = msg.data → m.curr = 0 → tr ∈ transfersIn m ∧
      ∀ (q : VSOPeer) (now : Nat), q.joined = true → q.self = tr.newOwner → q.objects[tr.objId]? ≠ none →
        (q.processTransfer now m).1.isOwner tr.objId = true

/-- What `checkOwnershipTransfer` gives up it announces. -/
structure AnnouncesReleased (t : VSOTiming) (v : VSOView) (now : Nat) (p : VSOPeer) : Prop where
  released : ∀ (id : UInt64) (so : VSOSharedObject), p.objects[id]? = some so → so.isOwner = true →
    (p.checkOwnershipTransfer t v now).1.isOwner id = false →
      .released ⟨id, v.closestTo so.aoi.center, p.self⟩ ∈ (p.checkOwnershipTransfer t v now).2
  announced : ∀ tr, .released tr ∈ (p.checkOwnershipTransfer t v now).2 →
    Announced (p.checkOwnershipTransfer t v now).2 tr

section Write

variable {m : Message}

theorem foldl_putAs {α : Type} (c : FixedCodec α) (h : m.alloc = true) (l : List α) :
    (l.foldl (fun m a => m.putAs c a) m).data = m.data ++ l.flatMap c.encode := by
  induction l generalizing m with
  | nil => simp
  | cons a l ih =>
    have halloc : (m.putAs c a).alloc = true := alloc_put h (c.encode a)
    rw [List.foldl_cons, ih halloc, putAs, data_put h, List.append_assoc, List.flatMap_cons]

theorem data_transferMessage (v : VSOView) (target : UInt64) (l : List VSOOwnerTransfer) :
    (transferMessage v target l).data = FixedCodec.u8.encode (UInt8.ofNat l.length) ++
      (l.take (l.length % 256)).flatMap VSOOwnerTransfer.codec.encode := by
  have halloc : ({ msgtype := vsoTransferType, priority := 1 } : Message).alloc = true := rfl
  have hmod : (UInt8.ofNat l.length).toNat = l.length % 256 := UInt8.toNat_ofNat'
  rw [transferMessage, addTarget, hmod]
  dsimp only
  have hdata := foldl_putAs VSOOwnerTransfer.codec (alloc_put halloc (FixedCodec.u8.encode (UInt8.ofNat l.length)))
    (l.take (l.length % 256))
  rw [data_put halloc] at hdata
  split
  · exact hdata
  · exact hdata

theorem target_mem_transferMessage (v : VSOView) (target : UInt64) (l : List VSOOwnerTransfer) :
    target ∈ (transferMessage v target l).targets := by
  rw [transferMessage, addTarget]
  split
  · assumption
  · exact List.mem_append_right _ (List.mem_singleton_self target)

end Write

section Read

variable {m : Message}

theorem readTransfers_flatMap {pre post : List UInt8} (l : List VSOOwnerTransfer)
    (h : m.At pre (l.flatMap VSOOwnerTransfer.codec.encode ++ post)) : readTransfers l.length m = l := by
  induction l generalizing m pre with
  | nil => rfl
  | cons tr l ih =>
    rw [List.flatMap_cons, List.append_assoc] at h
    obtain ⟨m', hr, ha⟩ := h.extractAs
    rw [List.length_cons, readTransfers, hr, Option.getD_some]
    exact congrArg (tr :: ·) (ih ha)

theorem transfersIn_transferMessage {v : VSOView} {target : UInt64} {l : List VSOOwnerTransfer}
    (hd : m.data = (transferMessage v target l).data) (hc : m.curr = 0) :
    transfersIn m = l.take (l.length % 256) := by
  have hat : m.At [] (FixedCodec.u8.encode (UInt8.ofNat l.length) ++
      ((l.take (l.length % 256)).flatMap VSOOwnerTransfer.codec.encode ++ [])) :=
    ⟨by rw [hd, data_transferMessage, List.append_nil, List.nil_append], hc⟩
  obtain ⟨m', hr, ha⟩ := hat.extractAs
  have hlen : (UInt8.ofNat l.length).toNat = (l.take (l.length % 256)).length := by
    rw [List.length_take, Nat.min_eq_left (Nat.mod_le _ _)]
    exact UInt8.toNat_ofNat'
  rw [transfersIn, hr]
  dsimp only
  rw [hlen]
  exact readTransfers_flatMap _ ha

end Read

section Groups

variable {t : VSOTiming} {v : VSOView} {now : Nat} {p : VSOPeer}

theorem transfersOf_append (xs ys : List VSOOutput) :
    transfersOf (xs ++ ys) = transfersOf xs ++ transfersOf ys := List.filterMap_append

theorem mem_transfersOf {outs : List VSOOutput} {tr : VSOOwnerTransfer} :
    tr ∈ transfersOf outs ↔ .released tr ∈ outs := by
  rw [transfersOf, List.mem_filterMap]
  constructor
  · rintro ⟨out, hout, he⟩
    cases out with
    | released u =>
      rw [← Option.some.inj he]
      exact hout
    | transfer msg => cases he
    | ack target objId => cases he
    | request target objIds => cases he
    | claimed objId wasOwner => cases he
  · exact fun h => ⟨_, h, rfl⟩

theorem transfersOf_inside (c : Custody) (id : UInt64) : transfersOf (c.checkInside t id now).2 = [] := by
  rw [Custody.checkInside]
  split
  · rfl
  · dsimp only
    split <;> rfl

theorem transfersOf_check (c : Custody) (self id : UInt64) : transfersOf (c.check t v self id now).2 =
    if c.leaves v self now then [⟨id, v.closestTo c.object.aoi.center, self⟩] else [] := by
  have htransit (c : Custody) : transfersOf (c.checkTransit id now).2 = [] := by
    rw [Custody.checkTransit]
    split <;> rfl
  rw [Custody.check]
  dsimp only
  rw [transfersOf_append, htransit, List.append_nil]
  cases hin : v.contains c.object.aoi.center with
  | false =>
    rw [if_pos rfl]
    cases hl : c.leaves v self now with
    | true =>
      rw [Custody.checkOutside_leaves hl]
      rfl
    | false =>
      rw [(Custody.checkOutside_stays hin hl).2]
      rfl
  | true =>
    rw [if_neg Bool.true_eq_false.mp, transfersOf_inside]
    simp [Custody.leaves, hin]

theorem checkOutputs_custody (self id : UInt64) : checkOutputs t v self now id (p.slot id) =
    match p.custody id with
    | some c => (c.check t v self id now).2
    | none => [] := by
  rw [custody, slot]
  cases p.objects[id]? <;> rfl

theorem filter_transfersOf_outputs (target id : UInt64) :
    (transfersOf (checkOutputs t v p.self now id (p.slot id))).filter (fun tr => tr.newOwner == target) =
      if (p.custody id).any (fun c => c.leaves v p.self now && v.closestTo c.object.aoi.center == target) then
        [⟨id, target, p.self⟩] else [] := by
  rw [checkOutputs_custody]
  cases p.custody id with
  | none => rfl
  | some c =>
    dsimp only
    rw [transfersOf_check, Option.any_some]
    cases hl : c.leaves v p.self now with
    | false => simp
    | true =>
      by_cases ht : v.closestTo c.object.aoi.center = target
      · simp [ht]
      · simp [ht]

theorem filter_transfersOf_swept (t : VSOTiming) (v : VSOView) (now : Nat) (p : VSOPeer) (target : UInt64) :
    (transfersOf (swept t v now p)).filter (fun tr => tr.newOwner == target) =
      (p.leaving v now target).map (fun id => ⟨id, target, p.self⟩) := by
  rw [swept, leaving]
  induction p.objects.toList.map Prod.fst with
  | nil => rfl
  | cons id ids ih =>
    rw [List.flatMap_cons, transfersOf_append, List.filter_append, ih, filter_transfersOf_outputs,
      List.filter_cons]
    split <;> rfl

theorem nodup_leaving (v : VSOView) (now : Nat) (p : VSOPeer) (target : UInt64) :
    (p.leaving v now target).Nodup := (Tables.nodup_keys p.objects).filter _

theorem mem_leaving {id target : UInt64} : id ∈ p.leaving v now target ↔ ∃ c, p.custody id = some c ∧
    c.leaves v p.self now = true ∧ v.closestTo c.object.aoi.center = target := by
  rw [leaving, List.mem_filter, mem_ids, Option.any_eq_true]
  constructor
  · rintro ⟨-, c, hc, hl⟩
    rw [Bool.and_eq_true, beq_iff_eq] at hl
    exact ⟨c, hc, hl⟩
  · rintro ⟨c, hc, hl⟩
    refine ⟨fun hnone => ?_, c, hc, by rwa [Bool.and_eq_true, beq_iff_eq]⟩
    rw [custody, hnone] at hc
    cases hc

theorem released_iff (hj : p.joined = true) {tr : VSOOwnerTransfer} :
    .released tr ∈ (p.checkOwnershipTransfer t v now).2 ↔
      tr.objId ∈ p.leaving v now tr.newOwner ∧ tr.oldOwner = p.self := by
  have hsent : .released tr ∈ (p.checkOwnershipTransfer t v now).2 ↔
      tr ∈ (transfersOf (swept t v now p)).filter (fun u => u.newOwner == tr.newOwner) := by
    rw [outputs_checkOwnershipTransfer hj, List.mem_append, List.mem_filter, mem_transfersOf]
    refine ⟨fun h => ⟨h.resolve_right fun hm => ?_, beq_self_eq_true _⟩, fun h => .inl h.1⟩
    obtain ⟨g, -, he⟩ := List.mem_map.mp hm
    cases he
  rw [hsent, filter_transfersOf_swept, List.mem_map]
  constructor
  · rintro ⟨id, hid, he⟩
    rw [← he]
    exact ⟨hid, rfl⟩
  · rintro ⟨hid, ho⟩
    exact ⟨tr.objId, hid, by rw [← ho]⟩

def announcement (v : VSOView) (now : Nat) (p : VSOPeer) (target : UInt64) : List VSOOwnerTransfer :=
  (p.leaving v now target).map (fun id => ⟨id, target, p.self⟩)

theorem changes_swept {out : VSOOutput} (h : out ∈ swept t v now p) : out.changes ≠ none := by
  obtain ⟨id, -, hout⟩ := List.mem_flatMap.mp h
  rw [checkOutputs_custody] at hout
  cases hc : p.custody id with
  | none =>
    rw [hc] at hout
    cases hout
  | some c =>
    rw [hc] at hout
    rw [Custody.changes_check hout]
    exact Option.some_ne_none id

theorem sent_iff (hj : p.joined = true) {msg : Message} :
    .transfer msg ∈ (p.checkOwnershipTransfer t v now).2 ↔ ∃ target, p.leaving v now target ≠ [] ∧
      msg = transferMessage v target (p.announcement v now target) := by
  have hswept : .transfer msg ∉ swept t v now p := fun hm => changes_swept hm rfl
  rw [outputs_checkOwnershipTransfer hj, List.mem_append, or_iff_right hswept, List.mem_map]
  constructor
  · rintro ⟨⟨target, g⟩, hg, he⟩
    obtain ⟨hne, rfl⟩ := Tables.mem_toList_groupBy VSOOwnerTransfer.newOwner |>.mp hg
    rw [filter_transfersOf_swept] at hne he
    refine ⟨target, fun h0 => hne (by rw [h0, List.map_nil]), ?_⟩
    exact (VSOOutput.transfer.inj he).symm
  · rintro ⟨target, hne, rfl⟩
    refine ⟨(target, p.announcement v now target), ?_, rfl⟩
    rw [Tables.mem_toList_groupBy VSOOwnerTransfer.newOwner, filter_transfersOf_swept]
    exact ⟨fun h0 => hne (List.map_eq_nil_iff.mp h0), rfl⟩

end Groups

section Announced

variable {t : VSOTiming} {v : VSOView} {now : Nat} {p : VSOPeer}

theorem isOwner_processTransfer {q : VSOPeer} {m : Message} {tr : VSOOwnerTransfer} (hj : q.joined = true)
    (hs : q.self = tr.newOwner) (hobj : q.objects[tr.objId]? ≠ none) (hm : tr ∈ transfersIn m) :
    (q.processTransfer now m).1.isOwner tr.objId = true := by
  obtain ⟨so, hso⟩ := Option.ne_none_iff_exists'.mp hobj
  rw [isOwner, objects_eq_slot, slot_processTransfer, if_pos ⟨hj, tr, hm, rfl, hs.symm⟩, slot, hso]
  rfl

theorem announced_of_le (hj : p.joined = true) {tr : VSOOwnerTransfer}
    (hrel : .released tr ∈ (p.checkOwnershipTransfer t v now).2)
    (hle : (p.leaving v now tr.newOwner).length ≤ 255) :
    Announced (p.checkOwnershipTransfer t v now).2 tr := by
  obtain ⟨hid, hold⟩ := (released_iff hj).mp hrel
  have hsent : .transfer (transferMessage v tr.newOwner (p.announcement v now tr.newOwner)) ∈
      (p.checkOwnershipTransfer t v now).2 :=
    (sent_iff hj).mpr ⟨tr.newOwner, List.ne_nil_of_mem hid, rfl⟩
  refine ⟨_, hsent, target_mem_transferMessage v _ _, fun m hd hc => ?_⟩
  have hmem : tr ∈ p.announcement v now tr.newOwner :=
    List.mem_map.mpr ⟨tr.objId, hid, by rw [← hold]⟩
  have hlen : (p.announcement v now tr.newOwner).length % 256 = (p.announcement v now tr.newOwner).length := by
    rw [announcement, List.length_map]
    exact Nat.mod_eq_of_lt (Nat.lt_succ_of_le hle)
  have hin : tr ∈ transfersIn m := by
    rw [transfersIn_transferMessage hd hc, hlen, List.take_length]
    exact hmem
  exact ⟨hin, fun q now' hq hs hobj => isOwner_processTransfer hq hs hobj hin⟩

theorem le_of_announced (hj : p.joined = true) {target : UInt64}
    (h : ∀ tr, .released tr ∈ (p.checkOwnershipTransfer t v now).2 →
      Announced (p.checkOwnershipTransfer t v now).2 tr) : (p.leaving v now target).length ≤ 255 := by
  by_contra hgt
  have hne : p.leaving v now target ≠ [] := fun h0 => by simp [h0] at hgt
  obtain ⟨init, last, hl⟩ : ∃ init last, p.leaving v now target = init ++ [last] :=
    ⟨_, _, (List.dropLast_append_getLast hne).symm⟩
  have hlast : last ∈ p.leaving v now target := by simp [hl]
  obtain ⟨msg, hsent, -, hread⟩ := h ⟨last, target, p.self⟩ ((released_iff hj).mpr ⟨hlast, rfl⟩)
  obtain ⟨key, -, rfl⟩ := (sent_iff hj).mp hsent
  have hin := (hread (transferMessage v key (p.announcement v now key)).reset rfl rfl).1
  have hread' : transfersIn (transferMessage v key (p.announcement v now key)).reset =
      (p.announcement v now key).take ((p.announcement v now key).length % 256) :=
    transfersIn_transferMessage rfl rfl
  rw [hread'] at hin
  obtain ⟨id, -, he⟩ := List.mem_map.mp (List.mem_of_mem_take hin)
  obtain rfl : key = target := (VSOOwnerTransfer.mk.inj he).2.1
  have hnd := nodup_leaving v now p key
  rw [announcement, ← List.map_take, List.length_map] at hin
  obtain ⟨id, hid, he⟩ := List.mem_map.mp hin
  obtain rfl : id = last := (VSOOwnerTransfer.mk.inj he).1
  rw [hl] at hid hnd hgt
  rw [List.length_append, List.length_singleton] at hid hgt
  have hcut : (init.length + 1) % 256 ≤ init.length := by omega
  rw [List.take_append_of_le_length hcut] at hid
  exact (List.nodup_append.mp hnd).2.2 id (List.mem_of_mem_take hid) id (List.mem_singleton_self id) rfl

theorem released_of_cleared {id : UInt64} {so : VSOSharedObject} (hso : p.objects[id]? = some so)
    (hown : so.isOwner = true) (hno : (p.checkOwnershipTransfer t v now).1.isOwner id = false) :
    .released ⟨id, v.closestTo so.aoi.center, p.self⟩ ∈ (p.checkOwnershipTransfer t v now).2 := by
  rw [isOwner, objects_eq_slot, slot_checkOwnershipTransfer, slot, hso] at hno
  cases hj : p.joined with
  | false =>
    rw [hj, if_neg Bool.false_ne_true, Option.any_some, hown] at hno
    cases hno
  | true =>
    rw [hj, if_pos rfl] at hno
    have hl : Custody.leaves v p.self now ⟨so, p.transferTimeout[id]?, p.reclaimTimeout[id]?⟩ = true :=
      Custody.leaves_of_cleared hown hno
    refine (released_iff hj).mpr ⟨List.mem_filter.mpr ⟨mem_ids.mpr (by simp [hso]), ?_⟩, rfl⟩
    rw [custody, hso, Option.map_some, Option.any_some, hl]
    exact beq_self_eq_true (v.closestTo so.aoi.center)

/-- What a tick gives up is announced, and owned by the new owners once they have read it, exactly
when at most 255 objects go to each of them. -/
theorem announcesReleased_iff (t : VSOTiming) (v : VSOView) (now : Nat) (p : VSOPeer) :
    p.AnnouncesReleased t v now ↔ (p.joined = true → ∀ target, (p.leaving v now target).length ≤ 255) := by
  constructor
  · exact fun h hj target => le_of_announced hj h.announced
  · intro h
    refine ⟨fun id so => released_of_cleared, fun tr hrel => ?_⟩
    cases hj : p.joined with
    | true => exact announced_of_le hj hrel (h hj tr.newOwner)
    | false =>
      rw [checkOwnershipTransfer, if_pos hj] at hrel
      cases hrel

def departedIds : List UInt64 := (List.range 256).map fun i => UInt64.ofNat (i + 1)

def departed : VSOPeer where
  self := 1
  objects := Std.ExtTreeMap.ofList (departedIds.map (fun id =>
    (id, ({ aoi := beyond, isOwner := true } : VSOSharedObject))))
  transferTimeout := Std.ExtTreeMap.ofList (departedIds.map (fun id => (id, 10)))

theorem nodup_departedIds : departedIds.Nodup := nodup_ofNat_range 1 (by decide)

theorem getElem?_departed {ν : Type} (x : ν) {id : UInt64} (h : id ∈ departedIds) :
    (Std.ExtTreeMap.ofList (departedIds.map (fun id => (id, x))))[id]? = some x := by
  refine Std.ExtTreeMap.getElem?_ofList_of_mem Std.compare_self ?_ (List.mem_map_of_mem h)
  have hnd := nodup_departedIds
  rw [List.Nodup] at hnd
  rw [List.pairwise_map]
  exact hnd.imp fun hne he => hne (Std.compare_eq_iff_eq.mp he)

theorem leaving_departed : 256 ≤ (departed.leaving (.ofPartition halfPlane 1 2) 10 2).length := by
  have hsub : departedIds ⊆ departed.leaving (.ofPartition halfPlane 1 2) 10 2 := by
    intro id hid
    have hobj : departed.objects[id]? = some { aoi := beyond, isOwner := true } := getElem?_departed _ hid
    have hdue : departed.transferTimeout[id]? = some 10 := getElem?_departed _ hid
    refine List.mem_filter.mpr ⟨mem_ids.mpr (by simp [hobj]), ?_⟩
    rw [custody, hobj, hdue]
    rfl
  have hlen := (nodup_departedIds.subperm hsub).length_le
  rwa [departedIds, List.length_map, List.length_range] at hlen

/-- The count of 256 transfers is 0, and the message announces none of them. -/
theorem departed_not_announced :
    ¬ departed.AnnouncesReleased tens (.ofPartition halfPlane 1 2) 10 := by
  intro h
  have hle : (departed.leaving (.ofPartition halfPlane 1 2) 10 2).length ≤ 255 :=
    le_of_announced rfl h.announced
  exact absurd (Nat.le_trans leaving_departed hle) (by decide)

end Announced

end VSOPeer

end VastNC
