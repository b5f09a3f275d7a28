import VastNC.Extract
import VastNC.Lib.StepRun
import VastNC.Lib.Tables

/-! `VSOPeer`: the objects that matchers share, who owns them, and the countdowns after which
ownership is passed on or claimed. Timestamps are natural numbers; only the age of an object is
computed as the source does, modulo 2^64. -/

namespace VastNC

open Message

def vsoTransferType : UInt16 := 16

structure VSOSharedObject where
  aoi : Area := {}
  isOwner : Bool := false
  inTransit : Nat := 0
  lastUpdate : Nat := 0
  closest : UInt64 := 0
  deriving DecidableEq, Inhabited

structure VSOOwnerTransfer where
  objId : UInt64 := 0
  newOwner : UInt64 := 0
  oldOwner : UInt64 := 0
  deriving DecidableEq, Inhabited

def VSOOwnerTransfer.codec : FixedCodec VSOOwnerTransfer :=
  (FixedCodec.u64.prod (FixedCodec.u64.prod FixedCodec.u64)).via
    (fun t => (t.objId, t.newOwner, t.oldOwner)) (fun t => ⟨t.1, t.2.1, t.2.2⟩) (fun _ => rfl)

/-- `VSO_TIMEOUT_TRANSFER`, `VSO_TIMEOUT_AUTO_REMOVE` and one second in timestamps. -/
structure VSOTiming where
  transfer : Nat
  remove : Nat
  second : Nat

/-- What a peer's Voronoi diagram and list of neighbours answer. -/
structure VSOView where
  contains : Position → Bool
  closestTo : Position → UInt64
  enclosing : List UInt64
  closestEnclosing : Position → UInt64

/-- The view of one of two peers that share the plane. -/
def VSOView.ofPartition (part : Position → UInt64) (self other : UInt64) : VSOView :=
  ⟨fun p => part p == self, part, [other], fun _ => other⟩

def tens : VSOTiming := { transfer := 10, remove := 1000, second := 100 }

/-- Peer 1 has the positions with `x = 0`, peer 2 the others. -/
def halfPlane (p : Position) : UInt64 := if p.x == 0 then 1 else 2

def beyond : Area := { center := { x := ⟨0x3F800000⟩ } }

/-- What a peer sends, and what it tells its policy; `wasOwner` is the flag before the claim. -/
inductive VSOOutput where
  | transfer (msg : Message)
  | ack (target objId : UInt64)
  | request (target : UInt64) (objIds : List UInt64)
  | claimed (objId : UInt64) (wasOwner : Bool)
  | released (transfer : VSOOwnerTransfer)

def VSOOwnerTransfer.acks (tr : VSOOwnerTransfer) : List VSOOutput :=
  if tr.oldOwner ≠ 0 then [.ack tr.oldOwner tr.objId] else []

structure Custody where
  object : VSOSharedObject
  transferTimeout : Option Nat := none
  reclaimTimeout : Option Nat := none
  deriving DecidableEq

namespace Custody

def claimOwnership (now : Nat) (c : Custody) : Custody :=
  { c with
    object := { c.object with isOwner := true, inTransit := 0, lastUpdate := now }
    reclaimTimeout := none }

def claim (id : UInt64) (now : Nat) (c : Custody) : Custody × List VSOOutput :=
  (c.claimOwnership now, [.claimed id c.object.isOwner])

def release (t : VSOTiming) (self id closest : UInt64) (now : Nat) (c : Custody) :
    Custody × List VSOOutput :=
  ({ c with
     object := { c.object with isOwner := false, inTransit := now + t.transfer * 3 }
     transferTimeout := none },
    [.released ⟨id, closest, self⟩])

def checkOutside (t : VSOTiming) (v : VSOView) (self id : UInt64) (now : Nat) (c : Custody) :
    Custody × List VSOOutput :=
  if c.object.isOwner then
    match c.transferTimeout with
    | none => ({ c with transferTimeout := some (now + t.transfer) }, [])
    | some due =>
      if now ≥ due ∧ v.closestTo c.object.aoi.center ≠ self then
        c.release t self id (v.closestTo c.object.aoi.center) now
      else (c, [])
  else ({ c with reclaimTimeout := none }, [])

def checkInside (t : VSOTiming) (id : UInt64) (now : Nat) (c : Custody) : Custody × List VSOOutput :=
  if c.object.isOwner then ({ c with transferTimeout := none }, [])
  else
    let due := c.reclaimTimeout.getD (now + t.transfer * 5)
    let c := { c with reclaimTimeout := some due }
    if now ≥ due then c.claim id now else (c, [])

def checkTransit (id : UInt64) (now : Nat) (c : Custody) : Custody × List VSOOutput :=
  if c.object.inTransit ≠ 0 ∧ now ≥ c.object.inTransit then c.claim id now else (c, [])

/-- One turn of the loop of `checkOwnershipTransfer`. -/
def check (t : VSOTiming) (v : VSOView) (self id : UInt64) (now : Nat) (c : Custody) :
    Custody × List VSOOutput :=
  let r := if v.contains c.object.aoi.center = false then c.checkOutside t v self id now
    else c.checkInside t id now
  let r' := r.1.checkTransit id now
  (r'.1, r.2 ++ r'.2)

end Custody

/-- The entries of an id: its object, and its countdowns, which the code keeps in tables of
their own. -/
abbrev VSOSlot := Option VSOSharedObject × Option Nat × Option Nat

def Custody.slot (c : Custody) : VSOSlot := (some c.object, c.transferTimeout, c.reclaimTimeout)

def Keyed (m : Std.ExtTreeMap UInt64 VSOOwnerTransfer) : Prop :=
  ∀ (id : UInt64) (tr : VSOOwnerTransfer), m[id]? = some tr → tr.objId = id

namespace Keyed

variable {m : Std.ExtTreeMap UInt64 VSOOwnerTransfer}

theorem empty : Keyed ∅ := by simp [Keyed]

theorem insert (h : Keyed m) (tr : VSOOwnerTransfer) : Keyed (m.insert tr.objId tr) := by
  intro id u hu
  rw [Std.ExtTreeMap.getElem?_insert] at hu
  split at hu
  · rename_i he
    rw [← Option.some.inj hu]
    exact Std.compare_eq_iff_eq.mp he
  · exact h id u hu

theorem erase (h : Keyed m) (k : UInt64) : Keyed (m.erase k) := by
  intro id u hu
  rw [Std.ExtTreeMap.getElem?_erase] at hu
  split at hu
  · cases hu
  · exact h id u hu

end Keyed

structure VSOPeer where
  self : UInt64
  joined : Bool := true
  objects : Std.ExtTreeMap UInt64 VSOSharedObject := ∅
  transferTimeout : Std.ExtTreeMap UInt64 Nat := ∅
  reclaimTimeout : Std.ExtTreeMap UInt64 Nat := ∅
  transfer : Std.ExtTreeMap UInt64 VSOOwnerTransfer := ∅
  objRequested : Std.ExtTreeMap UInt64 UInt64 := ∅
  nextPeriodic : Nat := 0
  keyed : Keyed transfer := by exact Keyed.empty

namespace VSOPeer

def custody (p : VSOPeer) (id : UInt64) : Option Custody :=
  p.objects[id]?.map (fun object => ⟨object, p.transferTimeout[id]?, p.reclaimTimeout[id]?⟩)

def setCustody (p : VSOPeer) (id : UInt64) (c : Custody) : VSOPeer :=
  { p with
    objects := p.objects.insert id c.object
    transferTimeout := Tables.assign p.transferTimeout id c.transferTimeout
    reclaimTimeout := Tables.assign p.reclaimTimeout id c.reclaimTimeout }

def checkObject (t : VSOTiming) (v : VSOView) (self : UInt64) (now : Nat) (r : VSOPeer × List VSOOutput)
    (id : UInt64) : VSOPeer × List VSOOutput :=
  match r.1.custody id with
  | some c => (r.1.setCustody id (c.check t v self id now).1, r.2 ++ (c.check t v self id now).2)
  | none => r

def transfersOf (outs : List VSOOutput) : List VSOOwnerTransfer :=
  outs.filterMap (fun | .released transfer => some transfer | _ => none)

/-- The message to one target; `listsize_t` counts modulo 256. -/
def transferMessage (v : VSOView) (target : UInt64) (transfers : List VSOOwnerTransfer) : Message :=
  let n := UInt8.ofNat transfers.length
  let msg : Message := { msgtype := vsoTransferType, priority := 1 }
  let msg := (transfers.take n.toNat).foldl (fun m t => m.putAs VSOOwnerTransfer.codec t)
    (msg.putAs FixedCodec.u8 n)
  { msg with targets := v.enclosing }.addTarget target

def checkOwnershipTransfer (t : VSOTiming) (v : VSOView) (now : Nat) (p : VSOPeer) :
    VSOPeer × List VSOOutput :=
  if p.joined = false then (p, [])
  else
    let r := (p.objects.toList.map Prod.fst).foldl (checkObject t v p.self now) (p, [])
    (r.1, r.2 ++ (Tables.groupBy VSOOwnerTransfer.newOwner (transfersOf r.2)).toList.map
      (fun g => .transfer (transferMessage v g.1 g.2)))

def acceptTransfer (now : Nat) (p : VSOPeer) (transfer : VSOOwnerTransfer) : VSOPeer × List VSOOutput :=
  ({ p with
     objects := p.objects.modify transfer.objId (fun so => { so with isOwner := true, lastUpdate := now })
     reclaimTimeout := p.reclaimTimeout.erase transfer.objId },
    transfer.acks)

def requestObjects (p : VSOPeer) (target : UInt64) (objIds : List UInt64) : VSOPeer × List VSOOutput :=
  let new := objIds.filter (fun id => p.objRequested[id]? == none)
  if new = [] then (p, [])
  else ({ p with objRequested := new.foldl (fun m id => m.insert id target) p.objRequested },
    [.request target new])

/-- One transfer of a message. The ids to be requested are collected. -/
def processOne (now : Nat) (r : VSOPeer × List VSOOutput × List UInt64) (transfer : VSOOwnerTransfer) :
    VSOPeer × List VSOOutput × List UInt64 :=
  if transfer.newOwner ≠ r.1.self then r
  else if r.1.objects[transfer.objId]? = none then
    ({ r.1 with
       transfer := r.1.transfer.insert transfer.objId transfer, keyed := r.1.keyed.insert transfer },
      r.2.1, r.2.2 ++ [transfer.objId])
  else
    let a := r.1.acceptTransfer now transfer
    (a.1, r.2.1 ++ a.2, r.2.2)

def readTransfers : Nat → Message → List VSOOwnerTransfer
  | 0, _ => []
  | n + 1, m =>
    let (transfer, m) := (m.extractAs VSOOwnerTransfer.codec).getD ({}, m)
    transfer :: readTransfers n m

/-- `VSO_TRANSFER`. -/
def processTransfer (now : Nat) (p : VSOPeer) (msg : Message) : VSOPeer × List VSOOutput :=
  if p.joined = false then (p, [])
  else
    match msg.extractAs FixedCodec.u8 with
    | none => (p, [])
    | some (n, m) =>
      let r := (readTransfers n.toNat m).foldl (processOne now) (p, [], [])
      if r.2.2 = [] then (r.1, r.2.1)
      else
        let q := r.1.requestObjects msg.fromId r.2.2
        (q.1, r.2.1 ++ q.2)

/-- `VSO_TRANSFER_ACK`. -/
def handleAck (p : VSOPeer) (id : UInt64) : VSOPeer :=
  { p with objects := p.objects.modify id (fun so => { so with inTransit := 0 }) }

/-- `VSO_DISCONNECT`, up to what `VONPeer` does. -/
def handleDisconnect (p : VSOPeer) (peer : UInt64) : VSOPeer :=
  { p with
    reclaimTimeout := ((p.objects.toList.filter (fun e => e.2.closest == peer)).map Prod.fst).foldl
      (fun m id => m.insert id 0) p.reclaimTimeout }

def insertSharedObject (now : Nat) (p : VSOPeer) (id : UInt64) (aoi : Area) (isOwner : Bool) :
    VSOPeer × List VSOOutput :=
  if p.objects[id]? ≠ none then (p, [])
  else
    let p := { p with objects := p.objects.insert id { aoi, isOwner, lastUpdate := now } }
    let r := match p.transfer[id]? with
      | some transfer =>
        let a := p.acceptTransfer now transfer
        ({ a.1 with transfer := a.1.transfer.erase id, keyed := a.1.keyed.erase id }, a.2)
      | none => (p, [])
    ({ r.1 with objRequested := r.1.objRequested.erase id }, r.2)

def updateSharedObject (now : Nat) (p : VSOPeer) (id : UInt64) (aoi : Area) (isOwner : Option Bool) :
    VSOPeer :=
  { p with
    objects := p.objects.modify id
      (fun so => { so with aoi, lastUpdate := now, isOwner := isOwner.getD so.isOwner }) }

def deleteSharedObject (p : VSOPeer) (id : UInt64) : VSOPeer := { p with objects := p.objects.erase id }

def isOwner (p : VSOPeer) (id : UInt64) : Bool := p.objects[id]?.any VSOSharedObject.isOwner

def knows (p : VSOPeer) (id : UInt64) : Bool := p.objects[id]?.isSome

def isObsolete (t : VSOTiming) (now : Nat) (so : VSOSharedObject) : Bool :=
  !so.isOwner && t.remove ≤ (now + 2 ^ 64 - so.lastUpdate) % 2 ^ 64

/-- The objects that `refreshObjects` tells its policy to remove. -/
def obsolete (t : VSOTiming) (now : Nat) (p : VSOPeer) : List UInt64 :=
  (p.objects.toList.filter (fun e => isObsolete t now e.2)).map Prod.fst

def refreshObjects (t : VSOTiming) (now : Nat) (known : UInt64 → Bool) (p : VSOPeer) : VSOPeer :=
  ((p.obsolete t now).filter known).foldl deleteSharedObject p

def checkUpdateToNeighbors (v : VSOView) (p : VSOPeer) : VSOPeer :=
  { p with objects := p.objects.map (fun _ so => { so with closest := v.closestEnclosing so.aoi.center }) }

def periodic (t : VSOTiming) (now : Nat) (known : UInt64 → Bool) (p : VSOPeer) : VSOPeer :=
  if now ≥ p.nextPeriodic then { p with nextPeriodic := now + t.second }.refreshObjects t now known else p

/-- `tick`, after `VONPeer::tick`; moving the peer changes the view of later ticks. -/
def tick (t : VSOTiming) (v : VSOView) (now : Nat) (known : UInt64 → Bool) (p : VSOPeer) :
    VSOPeer × List VSOOutput :=
  let r := (p.periodic t now known).checkOwnershipTransfer t v now
  (r.1.checkUpdateToNeighbors v, r.2)

def slot (p : VSOPeer) (id : UInt64) : VSOSlot :=
  (p.objects[id]?, p.transferTimeout[id]?, p.reclaimTimeout[id]?)

section Sweep

variable (t : VSOTiming) (v : VSOView) (self : UInt64) (now : Nat)

def checkSlot (id : UInt64) (s : VSOSlot) : VSOSlot :=
  match s with
  | (some o, tt, rt) =>
    (Custody.check t v self id now ⟨o, tt, rt⟩).1.slot
  | s => s

def checkOutputs (id : UInt64) (s : VSOSlot) : List VSOOutput :=
  match s with
  | (some o, tt, rt) => (Custody.check t v self id now ⟨o, tt, rt⟩).2
  | _ => []

theorem slot_setCustody (p : VSOPeer) (id j : UInt64) (c : Custody) : (p.setCustody id c).slot j =
    if id = j then c.slot else p.slot j := by
  by_cases h : id = j
  · subst h
    simp [slot, setCustody, Custody.slot]
  · simp [slot, setCustody, h, Std.ExtTreeMap.getElem?_insert]

theorem turnwise_checkObject : Tables.Turnwise (fun (r : VSOPeer × List VSOOutput) id => r.1.slot id)
    (fun r => r.2) (checkObject t v self now) (checkSlot t v self now) (checkOutputs t v self now) where
  self r id := by
    cases h : r.1.objects[id]? with
    | none => simp [checkObject, custody, checkSlot, slot, h]
    | some o => simp [checkObject, custody, h, setCustody, checkSlot, slot, Custody.slot]
  frame r id j hne := by
    cases h : r.1.objects[id]? with
    | none => simp [checkObject, custody, h]
    | some o => simp [checkObject, custody, h, slot_setCustody, hne]
  out r id := by
    cases h : r.1.objects[id]? with
    | none => simp [checkObject, custody, checkOutputs, slot, h]
    | some o => simp [checkObject, custody, h, checkOutputs, slot]

theorem foldl_checkObject_frame (ids : List UInt64) (r : VSOPeer × List VSOOutput) :
    ((ids.foldl (checkObject t v self now) r).1).self = r.1.self ∧
      ((ids.foldl (checkObject t v self now) r).1).transfer = r.1.transfer ∧
      ((ids.foldl (checkObject t v self now) r).1).joined = r.1.joined := by
  induction ids generalizing r with
  | nil => exact ⟨rfl, rfl, rfl⟩
  | cons id ids ih =>
    have hstep : (checkObject t v self now r id).1.self = r.1.self ∧
        (checkObject t v self now r id).1.transfer = r.1.transfer ∧
        (checkObject t v self now r id).1.joined = r.1.joined := by
      rw [checkObject]
      split <;> exact ⟨rfl, rfl, rfl⟩
    obtain ⟨h₁, h₂, h₃⟩ := ih (checkObject t v self now r id)
    exact ⟨h₁.trans hstep.1, h₂.trans hstep.2.1, h₃.trans hstep.2.2⟩

variable {t v now} {p : VSOPeer}

def swept (t : VSOTiming) (v : VSOView) (now : Nat) (p : VSOPeer) : List VSOOutput :=
  (p.objects.toList.map Prod.fst).flatMap (fun id => checkOutputs t v p.self now id (p.slot id))

theorem mem_ids {id : UInt64} : id ∈ p.objects.toList.map Prod.fst ↔ p.objects[id]? ≠ none := by
  rw [Std.ExtTreeMap.map_fst_toList_eq_keys, Std.ExtTreeMap.mem_keys, Std.ExtTreeMap.mem_iff_isSome_getElem?,
    Option.isSome_iff_ne_none]

theorem slot_checkOwnershipTransfer (id : UInt64) : (p.checkOwnershipTransfer t v now).1.slot id =
    if p.joined = true then checkSlot t v p.self now id (p.slot id) else p.slot id := by
  have hview := (turnwise_checkObject t v p.self now).view_foldl (Tables.nodup_keys p.objects) (p, []) id
  rw [checkOwnershipTransfer]
  cases p.joined with
  | false => rfl
  | true =>
    dsimp only
    rw [if_neg Bool.true_eq_false.mp, if_pos rfl, hview]
    by_cases h : p.objects[id]? = none
    · rw [if_neg (fun hm => mem_ids.mp hm h)]
      simp [h, checkSlot, slot]
    · rw [if_pos (mem_ids.mpr h)]

theorem outputs_checkOwnershipTransfer (hj : p.joined = true) :
    (p.checkOwnershipTransfer t v now).2 = swept t v now p ++
      (Tables.groupBy VSOOwnerTransfer.newOwner (transfersOf (swept t v now p))).toList.map
        (fun g => .transfer (transferMessage v g.1 g.2)) := by
  have hn : ¬ p.joined = false := by simp [hj]
  have hout := (turnwise_checkObject t v p.self now).out_foldl (Tables.nodup_keys p.objects) (p, [])
  rw [List.nil_append] at hout
  rw [checkOwnershipTransfer, if_neg hn]
  dsimp only
  rw [hout]
  rfl

end Sweep

section Slots

variable {p : VSOPeer} {now : Nat}

theorem slot_acceptTransfer (p : VSOPeer) (now : Nat) (tr : VSOOwnerTransfer) (id : UInt64) :
    (p.acceptTransfer now tr).1.slot id = if tr.objId = id then
      (p.objects[id]?.map (fun so => { so with isOwner := true, lastUpdate := now }),
        p.transferTimeout[id]?, none)
    else p.slot id := by
  by_cases h : tr.objId = id
  · subst h
    simp [slot, acceptTransfer]
  · simp [slot, acceptTransfer, h, Std.ExtTreeMap.getElem?_modify, Std.ExtTreeMap.getElem?_erase]

theorem slot_modify (p : VSOPeer) (id : UInt64) (f : VSOSharedObject → VSOSharedObject) (j : UInt64) :
    slot { p with objects := p.objects.modify id f } j =
      if id = j then (p.objects[j]?.map f, (p.slot j).2) else p.slot j := by
  by_cases h : id = j
  · subst h
    simp [slot]
  · simp [slot, h, Std.ExtTreeMap.getElem?_modify]

theorem slot_handleAck (p : VSOPeer) (id j : UInt64) : (p.handleAck id).slot j =
    if id = j then (p.objects[j]?.map (fun so => { so with inTransit := 0 }), (p.slot j).2)
    else p.slot j := p.slot_modify id _ j

theorem slot_updateSharedObject (p : VSOPeer) (now : Nat) (id : UInt64) (aoi : Area)
    (isOwner : Option Bool) (j : UInt64) : (p.updateSharedObject now id aoi isOwner).slot j =
    if id = j then (p.objects[j]?.map (fun so =>
      { so with aoi, lastUpdate := now, isOwner := isOwner.getD so.isOwner }), (p.slot j).2)
    else p.slot j := p.slot_modify id _ j

theorem slot_deleteSharedObject (p : VSOPeer) (id j : UInt64) : (p.deleteSharedObject id).slot j =
    if id = j then (none, (p.slot j).2) else p.slot j := by
  by_cases h : id = j
  · subst h
    simp [slot, deleteSharedObject]
  · simp [slot, deleteSharedObject, h, Std.ExtTreeMap.getElem?_erase]

theorem getElem?_foldl_insert {ν : Type} (x : ν) (ids : List UInt64) (m : Std.ExtTreeMap UInt64 ν)
    (j : UInt64) : (ids.foldl (fun m id => m.insert id x) m)[j]? = if j ∈ ids then some x else m[j]? := by
  induction ids generalizing m with
  | nil => simp
  | cons id ids ih =>
    rw [List.foldl_cons, ih, Std.ExtTreeMap.getElem?_insert]
    by_cases h : id = j
    · subst h
      simp
    · simp [h, Ne.symm h]

theorem slot_handleDisconnect (p : VSOPeer) (peer j : UInt64) : (p.handleDisconnect peer).slot j =
    (p.objects[j]?, p.transferTimeout[j]?,
      if p.objects[j]?.any (fun so => so.closest == peer) then some 0 else p.reclaimTimeout[j]?) := by
  rw [slot, handleDisconnect]
  simp only [getElem?_foldl_insert, Tables.mem_filter_keys]

theorem slot_foldl_delete (ids : List UInt64) (p : VSOPeer) (j : UInt64) :
    (ids.foldl deleteSharedObject p).slot j =
      if j ∈ ids then (none, (p.slot j).2) else p.slot j := by
  induction ids generalizing p with
  | nil => simp
  | cons id ids ih =>
    rw [List.foldl_cons, ih, slot_deleteSharedObject]
    by_cases h : id = j
    · subst h
      simp
    · simp [h, Ne.symm h]

theorem mem_obsolete {t : VSOTiming} {id : UInt64} :
    id ∈ p.obsolete t now ↔ p.objects[id]?.any (isObsolete t now) = true := Tables.mem_filter_keys

theorem slot_refreshObjects (t : VSOTiming) (now : Nat) (known : UInt64 → Bool) (p : VSOPeer)
    (j : UInt64) : (p.refreshObjects t now known).slot j =
      if p.objects[j]?.any (fun so => isObsolete t now so && known j) then (none, (p.slot j).2)
      else p.slot j := by
  rw [refreshObjects, slot_foldl_delete]
  simp only [List.mem_filter, mem_obsolete, Option.any_eq_true, Bool.and_eq_true]
  have hiff : ((∃ so, p.objects[j]? = some so ∧ isObsolete t now so = true) ∧ known j = true) ↔
      ∃ so, p.objects[j]? = some so ∧ isObsolete t now so = true ∧ known j = true := by
    simp only [← and_assoc, exists_and_right]
  simp only [hiff]

theorem slot_checkUpdateToNeighbors (v : VSOView) (p : VSOPeer) (j : UInt64) :
    (p.checkUpdateToNeighbors v).slot j =
      (p.objects[j]?.map (fun so => { so with closest := v.closestEnclosing so.aoi.center }),
        (p.slot j).2) := by
  simp [slot, checkUpdateToNeighbors]

def acceptSlot (now : Nat) : VSOSlot → VSOSlot
  | (some so, tt, _) => (some { so with isOwner := true, lastUpdate := now }, tt, none)
  | s => s

theorem acceptSlot_acceptSlot (now : Nat) (s : VSOSlot) :
    acceptSlot now (acceptSlot now s) = acceptSlot now s := by
  obtain ⟨_ | so, tt, rt⟩ := s <;> rfl

theorem slot_requestObjects (p : VSOPeer) (target : UInt64) (ids : List UInt64) (j : UInt64) :
    (p.requestObjects target ids).1.slot j = p.slot j := by
  rw [requestObjects]
  split <;> rfl

theorem slot_processOne (r : VSOPeer × List VSOOutput × List UInt64) (tr : VSOOwnerTransfer) (j : UInt64) :
    (processOne now r tr).1.slot j =
      if tr.objId = j ∧ tr.newOwner = r.1.self then acceptSlot now (r.1.slot j) else r.1.slot j := by
  rw [processOne]
  by_cases hme : tr.newOwner = r.1.self
  · rw [if_neg (not_not.mpr hme)]
    by_cases hobj : r.1.objects[tr.objId]? = none
    · rw [if_pos hobj]
      by_cases hj : tr.objId = j
      · subst hj
        simp [slot, hobj, acceptSlot, hme]
      · simp [slot, hj]
    · rw [if_neg hobj]
      dsimp only
      rw [slot_acceptTransfer]
      by_cases hj : tr.objId = j
      · subst hj
        obtain ⟨so, hso⟩ := Option.ne_none_iff_exists'.mp hobj
        simp [slot, hso, acceptSlot, hme]
      · simp [hj]
  · rw [if_pos hme]
    simp [hme]

theorem requestObjects_frame (p : VSOPeer) (target : UInt64) (ids : List UInt64) :
    (p.requestObjects target ids).1.self = p.self ∧ (p.requestObjects target ids).1.joined = p.joined := by
  rw [requestObjects]
  split <;> exact ⟨rfl, rfl⟩

theorem processOne_frame (now : Nat) (r : VSOPeer × List VSOOutput × List UInt64) (tr : VSOOwnerTransfer) :
    (processOne now r tr).1.self = r.1.self ∧ (processOne now r tr).1.joined = r.1.joined := by
  rw [processOne]
  split
  · exact ⟨rfl, rfl⟩
  · split <;> exact ⟨rfl, rfl⟩

theorem foldl_processOne_frame (now : Nat) (l : List VSOOwnerTransfer)
    (r : VSOPeer × List VSOOutput × List UInt64) :
    (l.foldl (processOne now) r).1.self = r.1.self ∧ (l.foldl (processOne now) r).1.joined = r.1.joined := by
  induction l generalizing r with
  | nil => exact ⟨rfl, rfl⟩
  | cons tr l ih =>
    obtain ⟨hs, hj⟩ := ih (processOne now r tr)
    exact ⟨hs.trans (processOne_frame now r tr).1, hj.trans (processOne_frame now r tr).2⟩

theorem processTransfer_frame (p : VSOPeer) (now : Nat) (msg : Message) :
    (p.processTransfer now msg).1.self = p.self ∧ (p.processTransfer now msg).1.joined = p.joined := by
  rw [processTransfer]
  split
  · exact ⟨rfl, rfl⟩
  · split
    · exact ⟨rfl, rfl⟩
    · rename_i n m _
      have hfold := foldl_processOne_frame now (readTransfers n.toNat m) (p, [], [])
      dsimp only
      split
      · exact hfold
      · obtain ⟨hs, hj⟩ := requestObjects_frame
          ((readTransfers n.toNat m).foldl (processOne now) (p, [], [])).1 msg.fromId
          ((readTransfers n.toNat m).foldl (processOne now) (p, [], [])).2.2
        exact ⟨hs.trans hfold.1, hj.trans hfold.2⟩

theorem slot_foldl_processOne (now : Nat) (l : List VSOOwnerTransfer) (r : VSOPeer × List VSOOutput × List UInt64)
    (j : UInt64) : (l.foldl (processOne now) r).1.slot j =
      if ∃ tr ∈ l, tr.objId = j ∧ tr.newOwner = r.1.self then acceptSlot now (r.1.slot j)
      else r.1.slot j := by
  induction l generalizing r with
  | nil => simp
  | cons tr l ih =>
    rw [List.foldl_cons, ih, (processOne_frame now r tr).1, slot_processOne]
    by_cases hhead : tr.objId = j ∧ tr.newOwner = r.1.self
    · have hany : ∃ x ∈ tr :: l, x.objId = j ∧ x.newOwner = r.1.self :=
        ⟨tr, List.mem_cons_self, hhead⟩
      rw [if_pos hhead, if_pos hany, acceptSlot_acceptSlot, ite_self]
    · have hiff : (∃ x ∈ tr :: l, x.objId = j ∧ x.newOwner = r.1.self) ↔
          ∃ x ∈ l, x.objId = j ∧ x.newOwner = r.1.self := by
        simp [hhead]
      rw [if_neg hhead]
      simp only [hiff]

def transfersIn (msg : Message) : List VSOOwnerTransfer :=
  match msg.extractAs FixedCodec.u8 with
  | none => []
  | some (n, m) => readTransfers n.toNat m

theorem slot_processTransfer (p : VSOPeer) (now : Nat) (msg : Message) (j : UInt64) :
    (p.processTransfer now msg).1.slot j =
      if p.joined = true ∧ ∃ tr ∈ transfersIn msg, tr.objId = j ∧ tr.newOwner = p.self then
        acceptSlot now (p.slot j)
      else p.slot j := by
  rw [processTransfer]
  cases hj : p.joined with
  | false => simp
  | true =>
    cases hm : msg.extractAs FixedCodec.u8 with
    | none => simp [transfersIn, hm]
    | some e =>
      have hfold := slot_foldl_processOne now (readTransfers e.1.toNat e.2) (p, [], []) j
      have hin : transfersIn msg = readTransfers e.1.toNat e.2 := by rw [transfersIn, hm]
      rw [hin]
      simp only [Bool.true_eq_false, if_false, true_and]
      split
      · exact hfold
      · rw [slot_requestObjects]
        exact hfold

theorem slot_insertSharedObject (p : VSOPeer) (now : Nat) (id : UInt64) (aoi : Area) (isOwner : Bool)
    (j : UInt64) : (p.insertSharedObject now id aoi isOwner).1.slot j =
      if id = j ∧ p.objects[j]? = none then
        if p.transfer[j]? = none then
          (some { aoi, isOwner, lastUpdate := now }, (p.slot j).2)
        else acceptSlot now (some { aoi, isOwner, lastUpdate := now }, (p.slot j).2)
      else p.slot j := by
  rw [insertSharedObject]
  by_cases ho : p.objects[id]? = none
  · rw [if_neg (not_not.mpr ho)]
    dsimp only
    cases htr : p.transfer[id]? with
    | none =>
      by_cases hid : id = j
      · subst hid
        simp [slot, ho, htr]
      · simp [slot, hid, Std.ExtTreeMap.getElem?_insert]
    | some tr =>
      have hkey := p.keyed id tr htr
      subst hkey
      by_cases hid : tr.objId = j
      · subst hid
        simp [slot, ho, htr, acceptTransfer, acceptSlot]
      · simp [slot, hid, acceptTransfer, Std.ExtTreeMap.getElem?_insert, Std.ExtTreeMap.getElem?_modify,
          Std.ExtTreeMap.getElem?_erase]
  · rw [if_pos ho]
    have hn : ¬ (id = j ∧ p.objects[j]? = none) := by
      rintro ⟨rfl, h⟩
      exact ho h
    rw [if_neg hn]

def Removes (t : VSOTiming) (now : Nat) (known : UInt64 → Bool) (p : VSOPeer) (j : UInt64) : Prop :=
  now ≥ p.nextPeriodic ∧ ∃ so, p.objects[j]? = some so ∧ isObsolete t now so = true ∧ known j = true

theorem slot_periodic (t : VSOTiming) (now : Nat) (known : UInt64 → Bool) (p : VSOPeer) (j : UInt64) :
    p.Removes t now known j ∧ (p.periodic t now known).slot j = (none, (p.slot j).2) ∨
      ¬ p.Removes t now known j ∧ (p.periodic t now known).slot j = p.slot j := by
  have hany : p.objects[j]?.any (fun so => isObsolete t now so && known j) = true ↔
      ∃ so, p.objects[j]? = some so ∧ isObsolete t now so = true ∧ known j = true := by
    simp only [Option.any_eq_true, Bool.and_eq_true]
  rw [periodic]
  by_cases hdue : now ≥ p.nextPeriodic
  · rw [if_pos hdue, slot_refreshObjects]
    split
    · exact .inl ⟨⟨hdue, hany.mp ‹_›⟩, rfl⟩
    · exact .inr ⟨fun hrem => ‹¬ _› (hany.mpr hrem.2), rfl⟩
  · rw [if_neg hdue]
    exact .inr ⟨fun hrem => hdue hrem.1, rfl⟩

theorem refreshObjects_frame (t : VSOTiming) (now : Nat) (known : UInt64 → Bool) (p : VSOPeer) :
    (p.refreshObjects t now known).self = p.self ∧ (p.refreshObjects t now known).joined = p.joined ∧
      (p.refreshObjects t now known).transfer = p.transfer := by
  rw [refreshObjects]
  generalize (p.obsolete t now).filter known = ids
  induction ids generalizing p with
  | nil => exact ⟨rfl, rfl, rfl⟩
  | cons id ids ih => exact ih (p.deleteSharedObject id)

theorem periodic_frame (t : VSOTiming) (now : Nat) (known : UInt64 → Bool) (p : VSOPeer) :
    (p.periodic t now known).self = p.self ∧ (p.periodic t now known).joined = p.joined ∧
      (p.periodic t now known).transfer = p.transfer := by
  rw [periodic]
  split
  · exact refreshObjects_frame t now known _
  · exact ⟨rfl, rfl, rfl⟩

theorem objects_eq_slot (p : VSOPeer) (j : UInt64) : p.objects[j]? = (p.slot j).1 := rfl

/-- The entries of an id when `tick` looks for transfers, and after that. -/
def tickSlot (t : VSOTiming) (v : VSOView) (now : Nat) (known : UInt64 → Bool) (p : VSOPeer)
    (j : UInt64) : VSOSlot :=
  if p.joined = true then checkSlot t v p.self now j ((p.periodic t now known).slot j)
  else (p.periodic t now known).slot j

theorem slot_tick (t : VSOTiming) (v : VSOView) (now : Nat) (known : UInt64 → Bool) (p : VSOPeer)
    (j : UInt64) : (p.tick t v now known).1.slot j =
      ((p.tickSlot t v now known j).1.map (fun so => { so with closest := v.closestEnclosing so.aoi.center }),
        (p.tickSlot t v now known j).2) := by
  obtain ⟨hself, hjoined, -⟩ := periodic_frame t now known p
  rw [tick, tickSlot, ← hself, ← hjoined, ← slot_checkOwnershipTransfer]
  exact slot_checkUpdateToNeighbors v _ j

theorem tick_frame (t : VSOTiming) (v : VSOView) (now : Nat) (known : UInt64 → Bool) (p : VSOPeer) :
    (p.tick t v now known).1.self = p.self ∧ (p.tick t v now known).1.joined = p.joined := by
  obtain ⟨hself, hjoined, -⟩ := periodic_frame t now known p
  rw [tick, checkOwnershipTransfer]
  split
  · exact ⟨hself, hjoined⟩
  · obtain ⟨hs, -, hj⟩ := foldl_checkObject_frame t v (p.periodic t now known).self now
      ((p.periodic t now known).objects.toList.map Prod.fst) (p.periodic t now known, [])
    exact ⟨hs.trans hself, hj.trans hjoined⟩

theorem slot_periodic_some {t : VSOTiming} {known : UInt64 → Bool} {j : UInt64} {so : VSOSharedObject}
    {x : Option Nat × Option Nat} (h : (p.periodic t now known).slot j = (some so, x)) :
    p.slot j = (some so, x) := by
  rcases slot_periodic t now known p j with ⟨-, hp⟩ | ⟨-, hp⟩
  · rw [hp] at h
    cases h
  · rw [← hp]
    exact h

theorem slot_tick_some {t : VSOTiming} {v : VSOView} {known : UInt64 → Bool} {j : UInt64}
    {so : VSOSharedObject} {x : Option Nat × Option Nat}
    (h : (p.tick t v now known).1.slot j = (some so, x)) : ∃ c : Custody,
      p.slot j = c.slot ∧ ∃ c' : Custody,
        c' = (if p.joined = true then (c.check t v p.self j now).1 else c) ∧
        so = { c'.object with closest := v.closestEnclosing c'.object.aoi.center } ∧
        x = (c'.transferTimeout, c'.reclaimTimeout) := by
  rw [slot_tick, tickSlot] at h
  rcases hs : (p.periodic t now known).slot j with ⟨_ | o, tt, rt⟩
  · rw [hs] at h
    cases hj : p.joined <;> simp [hj, checkSlot] at h
  · refine ⟨⟨o, tt, rt⟩, slot_periodic_some hs, _, rfl, ?_⟩
    rw [hs] at h
    cases hj : p.joined with
    | false =>
      simp only [hj, Bool.false_eq_true, if_false, Option.map_some, Prod.mk.injEq, Option.some.injEq] at h
      exact ⟨h.1.symm, h.2.symm⟩
    | true =>
      simp only [hj, if_true, checkSlot, Custody.slot, Option.map_some, Prod.mk.injEq, Option.some.injEq] at h
      exact ⟨h.1.symm, h.2.symm⟩

theorem mem_tick {t : VSOTiming} {v : VSOView} {known : UInt64 → Bool} {out : VSOOutput}
    (h : out ∈ (p.tick t v now known).2) : (∃ msg, out = .transfer msg) ∨ ∃ (id : UInt64) (c : Custody),
      p.joined = true ∧ p.slot id = c.slot ∧ out ∈ (c.check t v p.self id now).2 := by
  obtain ⟨hself, hjoined, -⟩ := periodic_frame t now known p
  rw [tick] at h
  cases hj : p.joined with
  | false =>
    rw [checkOwnershipTransfer, if_pos (hjoined.trans hj)] at h
    cases h
  | true =>
    rw [outputs_checkOwnershipTransfer (hjoined.trans hj), List.mem_append] at h
    rcases h with h | h
    · obtain ⟨id, -, hout⟩ := List.mem_flatMap.mp h
      rcases hs : (p.periodic t now known).slot id with ⟨_ | o, tt, rt⟩
      · rw [hs] at hout
        cases hout
      · rw [hs, hself] at hout
        exact .inr ⟨id, ⟨o, tt, rt⟩, rfl, slot_periodic_some hs, hout⟩
    · obtain ⟨g, -, rfl⟩ := List.mem_map.mp h
      exact .inl ⟨_, rfl⟩

end Slots

end VSOPeer

inductive VSOEvent where
  | insert (id : UInt64) (aoi : Area) (isOwner : Bool)
  | update (id : UInt64) (aoi : Area) (isOwner : Option Bool)
  | delete (id : UInt64)
  | transfer (msg : Message)
  | ack (id : UInt64)
  | disconnect (peer : UInt64)
  | tick (v : VSOView) (known : UInt64 → Bool)
  | joined (joined : Bool)

namespace VSOPeer

def handle (t : VSOTiming) (now : Nat) (p : VSOPeer) : VSOEvent → VSOPeer × List VSOOutput
  | .insert id aoi isOwner => p.insertSharedObject now id aoi isOwner
  | .update id aoi isOwner => (p.updateSharedObject now id aoi isOwner, [])
  | .delete id => (p.deleteSharedObject id, [])
  | .transfer msg => p.processTransfer now msg
  | .ack id => (p.handleAck id, [])
  | .disconnect peer => (p.handleDisconnect peer, [])
  | .tick v known => p.tick t v now known
  | .joined joined => ({ p with joined }, [])

end VSOPeer

/-- The object of which the peer itself gives up or claims the ownership. -/
def VSOOutput.changes : VSOOutput → Option UInt64
  | .claimed id _ => some id
  | .released tr => some tr.objId
  | _ => none

def VSOOutput.reply : VSOOutput → Bool
  | .ack _ _ => true
  | .request _ _ => true
  | _ => false

theorem VSOOutput.changes_of_reply {out : VSOOutput} (h : out.reply = true) : out.changes = none := by
  cases out with
  | ack target objId => rfl
  | request target objIds => rfl
  | transfer msg => cases h
  | claimed objId wasOwner => cases h
  | released tr => cases h

namespace Custody

variable {t : VSOTiming} {v : VSOView} {self id : UInt64} {now : Nat} {c : Custody} {out : VSOOutput}

theorem changes_outside (h : out ∈ (c.checkOutside t v self id now).2) : out.changes = some id := by
  rw [checkOutside] at h
  split at h
  · split at h
    · cases h
    · split at h
      · rw [List.mem_singleton.mp h]
        rfl
      · cases h
  · cases h

theorem changes_inside (h : out ∈ (c.checkInside t id now).2) : out.changes = some id := by
  rw [checkInside] at h
  split at h
  · cases h
  · dsimp only at h
    split at h
    · rw [List.mem_singleton.mp h]
      rfl
    · cases h

theorem changes_transit (h : out ∈ (c.checkTransit id now).2) : out.changes = some id := by
  rw [checkTransit] at h
  split at h
  · rw [List.mem_singleton.mp h]
    rfl
  · cases h

theorem changes_check (h : out ∈ (c.check t v self id now).2) : out.changes = some id := by
  rcases List.mem_append.mp h with h | h
  · split at h
    · exact changes_outside h
    · exact changes_inside h
  · exact changes_transit h

end Custody

namespace VSOPeer

variable {p : VSOPeer} {now : Nat}

theorem reply_acks (tr : VSOOwnerTransfer) : ∀ out ∈ tr.acks, out.reply = true := by
  intro out h
  rw [VSOOwnerTransfer.acks] at h
  split at h
  · rw [List.mem_singleton.mp h]
    rfl
  · cases h

theorem reply_processOne (now : Nat) (l : List VSOOwnerTransfer) {r : VSOPeer × List VSOOutput × List UInt64}
    (hr : ∀ out ∈ r.2.1, out.reply = true) : ∀ out ∈ (l.foldl (processOne now) r).2.1, out.reply = true := by
  induction l generalizing r with
  | nil => exact hr
  | cons tr l ih =>
    refine ih (r := processOne now r tr) ?_
    rw [processOne]
    split
    · exact hr
    · split
      · exact hr
      · intro out hm
        rcases List.mem_append.mp hm with hm | hm
        · exact hr out hm
        · exact reply_acks tr out hm

/-- A transfer is only answered, by acknowledgements and requests. -/
theorem reply_processTransfer (msg : Message) : ∀ out ∈ (p.processTransfer now msg).2, out.reply = true := by
  intro out h
  rw [processTransfer] at h
  split at h
  · cases h
  · split at h
    · cases h
    · rename_i n m _
      have hfold := reply_processOne now (readTransfers n.toNat m) (r := (p, [], []))
        (fun _ hm => absurd hm List.not_mem_nil)
      dsimp only at h
      split at h
      · exact hfold out h
      · rcases List.mem_append.mp h with h | h
        · exact hfold out h
        · rw [requestObjects] at h
          split at h
          · cases h
          · rw [List.mem_singleton.mp h]
            rfl

theorem reply_insertSharedObject (id : UInt64) (aoi : Area) (isOwner : Bool) :
    ∀ out ∈ (p.insertSharedObject now id aoi isOwner).2, out.reply = true := by
  intro out h
  rw [insertSharedObject] at h
  split at h
  · cases h
  · dsimp only at h
    split at h
    · exact reply_acks _ out h
    · cases h

/-- Only a tick makes a peer change the ownership of an object by itself. -/
theorem changes_handle {t : VSOTiming} {e : VSOEvent} (he : ∀ v known, e ≠ .tick v known) :
    ∀ out ∈ (p.handle t now e).2, out.changes = none := by
  have hnil : ∀ out ∈ ([] : List VSOOutput), out.changes = none :=
    fun _ hm => absurd hm List.not_mem_nil
  cases e with
  | insert id aoi isOwner =>
    exact fun out hm => VSOOutput.changes_of_reply (reply_insertSharedObject id aoi isOwner out hm)
  | update id aoi isOwner => exact hnil
  | delete id => exact hnil
  | transfer msg => exact fun out hm => VSOOutput.changes_of_reply (reply_processTransfer msg out hm)
  | ack id => exact hnil
  | disconnect peer => exact hnil
  | tick v known => exact absurd rfl (he v known)
  | joined joined => exact hnil

end VSOPeer

structure VSOHistory where
  peer : VSOPeer
  outs : List VSOOutput := []

def VSOHistory.step (t : VSOTiming) (h : VSOHistory) (e : Nat × VSOEvent) : VSOHistory :=
  ⟨(h.peer.handle t e.1 e.2).1, h.outs ++ (h.peer.handle t e.1 e.2).2⟩

end VastNC
