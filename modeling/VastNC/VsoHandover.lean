import VastNC.Lib.Handover
import VastNC.TransferAnnouncement

/-! A `VSOPeer` as a party of a handover: what it keeps of one object, what a tick or a message makes of
that, and what it sends about the object. -/

namespace VastNC

open Message
open Handover (Side Letter Bounds Timing)

inductive OwnershipPacket where
  | transfer (target : UInt64) (msg : Message)
  | ack (target objId : UInt64)

namespace OwnershipPacket

def ofOutput (sender : UInt64) : VSOOutput → List OwnershipPacket
  | .transfer msg => msg.targets.map (fun target => .transfer target { msg.reset with fromId := sender })
  | .ack target objId => [.ack target objId]
  | _ => []

def ofOutputs (sender : UInt64) (outs : List VSOOutput) : List OwnershipPacket :=
  outs.flatMap (ofOutput sender)

def carries (id : UInt64) : OwnershipPacket → Bool
  | .transfer target msg =>
    (VSOPeer.transfersIn msg).any (fun tr => tr.objId == id && tr.newOwner == target)
  | .ack _ _ => false

theorem ofOutputs_append (sender : UInt64) (xs ys : List VSOOutput) :
    ofOutputs sender (xs ++ ys) = ofOutputs sender xs ++ ofOutputs sender ys := List.flatMap_append

def sideOf (ids : Side → UInt64) (target : UInt64) : Option Side :=
  if ids .a = target then some .a
  else if ids .b = target then some .b
  else none

/-- What a packet says about one object: that its target owns it now, or that a handover has arrived. -/
def letter (ids : Side → UInt64) (id : UInt64) : OwnershipPacket → Option Letter
  | .transfer target msg => if carries id (.transfer target msg) then (sideOf ids target).map .token else none
  | .ack target objId => if objId = id then (sideOf ids target).map .ack else none

def letters (ids : Side → UInt64) (id : UInt64) (packets : List (Nat × OwnershipPacket)) :
    Multiset (Nat × Letter) :=
  packets.filterMap fun m => (letter ids id m.2).map fun letter => (m.1, letter)

def stamp (now : Nat) (packets : List OwnershipPacket) : List (Nat × OwnershipPacket) :=
  packets.map fun packet => (now, packet)

/-- What the outputs of `sender` say about the object. -/
def lettersOf (ids : Side → UInt64) (id : UInt64) (now : Nat) (sender : UInt64) (outs : List VSOOutput) :
    Multiset (Nat × Letter) := letters ids id (stamp now (ofOutputs sender outs))

variable {ids : Side → UInt64} {id target : UInt64} {x : Side}

theorem letters_append (xs ys : List (Nat × OwnershipPacket)) :
    letters ids id (xs ++ ys) = letters ids id xs + letters ids id ys := by
  rw [letters, List.filterMap_append, ← Multiset.coe_add]
  rfl

theorem mem_letters {l : List (Nat × OwnershipPacket)} {m : Nat × Letter} (h : m ∈ letters ids id l) :
    ∃ sent ∈ l, sent.1 = m.1 := by
  obtain ⟨sent, hsent, he⟩ := List.mem_filterMap.mp (Multiset.mem_coe.mp h)
  obtain ⟨letter, -, rfl⟩ := Option.map_eq_some_iff.mp he
  exact ⟨sent, hsent, rfl⟩

theorem letters_perm {xs ys : List (Nat × OwnershipPacket)} (h : xs.Perm ys) :
    letters ids id xs = letters ids id ys := Multiset.coe_eq_coe.mpr (h.filterMap _)

theorem letters_cons (m : Nat × OwnershipPacket) (l : List (Nat × OwnershipPacket)) :
    letters ids id (m :: l) = (match letter ids id m.2 with
      | some letter => (m.1, letter) ::ₘ letters ids id l
      | none => letters ids id l) := by
  rw [letters, List.filterMap_cons]
  cases letter ids id m.2 with
  | none => rfl
  | some letter => rfl

def answer (ids : Side → UInt64) (id : UInt64) : OwnershipPacket → Option Side
  | .ack target objId => if objId = id then sideOf ids target else none
  | .transfer _ _ => none

theorem letters_acks {now : Nat} {l : List OwnershipPacket}
    (h : ∀ packet ∈ l, ∃ target k, packet = .ack target k) : letters ids id (stamp now l) =
      (l.filterMap (answer ids id) : Multiset Side).map fun y => (now, Letter.ack y) := by
  rw [letters, stamp, List.filterMap_map, Multiset.map_coe, List.map_filterMap]
  refine congrArg _ (List.filterMap_congr fun packet hp => ?_)
  obtain ⟨target, k, rfl⟩ := h packet hp
  rw [Function.comp_apply, letter, answer]
  split
  · rw [Option.map_map]
    rfl
  · rfl

theorem eq_of_sideOf (h : sideOf ids target = some x) : ids x = target := by
  rw [sideOf] at h
  split at h
  · rename_i ha
    rw [← Option.some.inj h]
    exact ha
  · split at h
    · rename_i hb
      rw [← Option.some.inj h]
      exact hb
    · cases h

theorem sideOf_ids (h : ids .a ≠ ids .b) (x : Side) : sideOf ids (ids x) = some x := by
  cases x with
  | a => exact if_pos rfl
  | b => exact (if_neg h).trans (if_pos rfl)

end OwnershipPacket

def VSOTiming.handover (t : VSOTiming) : Timing := ⟨t.transfer, t.transfer * 3, t.transfer * 5⟩

namespace Custody

def record (c : Custody) : Handover.Record where
  owner := c.object.isOwner
  leaving := c.transferTimeout
  pending := if c.object.inTransit = 0 then none else some c.object.inTransit
  claiming := c.reclaimTimeout

variable {t : VSOTiming} {v : VSOView} {self id : UInt64} {now : Nat} {c : Custody}

/-- What the last part of a turn does to an owner. -/
theorem keeps_transit (id : UInt64) (now : Nat) (d : Custody) (hown : d.object.isOwner = true) :
    (d.checkTransit id now).1.record.owner = true ∧
    (d.checkTransit id now).1.record.leaving = d.transferTimeout ∧
    ((d.checkTransit id now).1.record.pending = d.record.pending ∨
      (d.checkTransit id now).1.record.pending = none) ∧
    ((d.checkTransit id now).1.record.claiming = d.reclaimTimeout ∨
      (d.checkTransit id now).1.record.claiming = none) := by
  rw [checkTransit]
  split
  · exact ⟨rfl, rfl, .inr rfl, .inr rfl⟩
  · exact ⟨hown, rfl, .inl rfl, .inl rfl⟩

/-- What it does where the object is not owned: that is claimed where the transfer has taken too long. -/
theorem turn_transit {d : Custody} {other : Side} {inside : Bool} (hobject : d.object = c.object)
    (hown : c.object.isOwner = false) (hleaving : d.transferTimeout = c.transferTimeout)
    (hclaiming : d.reclaimTimeout =
      if inside then some (c.reclaimTimeout.getD (now + t.transfer * 5)) else none) :
    Handover.Turn t.handover now other inside (some c.record) (some (d.checkTransit id now).1.record) 0 := by
  rw [checkTransit, hobject]
  split
  · rename_i hdue
    exact .claim hown hdue.2 (.inr (if_neg hdue.1)) rfl hleaving rfl rfl
  · have hown' : d.object.isOwner = false := by rw [hobject, hown]
    exact .idle hown hown' hleaving (by rw [record, record, hobject]) hclaiming

/-- A turn of an object is one of the turns of a handover. -/
theorem turn_check (ht : 0 < t.transfer) (other : Side)
    (hout : v.contains c.object.aoi.center = false → v.closestTo c.object.aoi.center ≠ self) :
    Handover.Turn t.handover now other (v.contains c.object.aoi.center) (some c.record)
      (some (c.check t v self id now).1.record)
      (if c.leaves v self now then {(now, .token other)} else 0) := by
  rw [check]
  dsimp only
  cases hown : c.object.isOwner with
  | true =>
    cases hin : v.contains c.object.aoi.center with
    | true =>
      have hstay : c.leaves v self now = false := by simp [leaves, hin]
      rw [if_neg Bool.true_eq_false.mp, hstay, if_neg Bool.false_ne_true, checkInside, if_pos hown]
      obtain ⟨howner, hleaving, hpending, hclaiming⟩ :=
        keeps_transit id now { c with transferTimeout := none } hown
      exact .keep hown rfl howner hleaving hpending hclaiming
    | false =>
      rw [if_pos rfl, checkOutside, if_pos hown]
      cases hdue : c.transferTimeout with
      | none =>
        have hstay : c.leaves v self now = false := by simp [leaves, hdue]
        rw [hstay, if_neg Bool.false_ne_true]
        obtain ⟨howner, hleaving, hpending, hclaiming⟩ :=
          keeps_transit id now { c with transferTimeout := some (now + t.transfer) } hown
        exact .wait hown howner (.inl ⟨hdue, hleaving⟩) hpending hclaiming
      | some due =>
        dsimp only
        by_cases hle : now ≥ due
        · have hgo : c.leaves v self now = true := by simp [leaves, hown, hin, hdue, hle, hout hin]
          have hlate : ¬ (now + t.transfer * 3 ≠ 0 ∧ now ≥ now + t.transfer * 3) := by omega
          rw [if_pos ⟨hle, hout hin⟩, hgo, if_pos rfl, release, checkTransit]
          dsimp only
          rw [if_neg hlate]
          exact .hand hown rfl rfl (if_neg (show ¬ now + t.transfer * 3 = 0 by omega)) rfl
        · have hstay : c.leaves v self now = false := by simp [leaves, hdue, hle]
          rw [if_neg fun h => hle h.1, hstay, if_neg Bool.false_ne_true]
          obtain ⟨howner, hleaving, hpending, hclaiming⟩ := keeps_transit id now c hown
          exact .wait hown howner (.inr ⟨due, hdue, by omega, hleaving.trans hdue⟩) hpending hclaiming
  | false =>
    have hstay : c.leaves v self now = false := by simp [leaves, hown]
    rw [hstay, if_neg Bool.false_ne_true]
    cases hin : v.contains c.object.aoi.center with
    | false =>
      rw [if_pos rfl, checkOutside, if_neg (by simp [hown])]
      exact turn_transit rfl hown rfl rfl
    | true =>
      rw [if_neg Bool.true_eq_false.mp, checkInside, if_neg (by simp [hown])]
      dsimp only
      by_cases hle : now ≥ c.reclaimTimeout.getD (now + t.transfer * 5)
      · rw [if_pos hle, claim, checkTransit, if_neg (by simp [claimOwnership])]
        cases hdue : c.reclaimTimeout with
        | none =>
          rw [hdue, Option.getD_none] at hle
          omega
        | some due =>
          rw [hdue, Option.getD_some] at hle
          exact .claim hown hle (.inl hdue) rfl rfl rfl rfl
      · rw [if_neg hle]
        exact turn_transit rfl hown rfl rfl

end Custody

namespace VSOPeer

variable {t : VSOTiming} {v : VSOView} {now : Nat} {known : UInt64 → Bool} {p q : VSOPeer} {id : UInt64}

def record (p : VSOPeer) (id : UInt64) : Option Handover.Record := (p.custody id).map Custody.record

theorem custody_eq_slot (p : VSOPeer) (id : UInt64) : p.custody id =
    (p.slot id).1.map (fun object => ⟨object, (p.slot id).2.1, (p.slot id).2.2⟩) := rfl

theorem record_congr (h : q.slot id = p.slot id) : q.record id = p.record id := by
  rw [record, custody_eq_slot, h, ← custody_eq_slot, record]

theorem record_eq_none : p.record id = none ↔ p.objects[id]? = none := by
  rw [record, custody, Option.map_map, Option.map_eq_none_iff]

theorem any_owner_record (p : VSOPeer) (id : UInt64) :
    (p.record id).any Handover.Record.owner = p.isOwner id := by
  rw [record, custody, Option.map_map, Option.any_map, isOwner]
  rfl

/-- The entries of one id are changed as the record is. -/
theorem record_map {f : VSOSharedObject → VSOSharedObject} {g : Handover.Record → Handover.Record}
    (h : q.slot id = (p.objects[id]?.map f, (p.slot id).2))
    (hf : ∀ c : Custody, ({ c with object := f c.object } : Custody).record = g c.record) :
    q.record id = (p.record id).map g := by
  rw [record, custody_eq_slot, h, record, custody_eq_slot, slot]
  cases p.objects[id]? with
  | none => rfl
  | some so => exact congrArg some (hf ⟨so, _, _⟩)

theorem record_updateSharedObject (p : VSOPeer) (now : Nat) (k id : UInt64) (aoi : Area) :
    (p.updateSharedObject now k aoi none).record id = p.record id := by
  have hslot := p.slot_updateSharedObject now k aoi none id
  by_cases hk : k = id
  · rw [if_pos hk] at hslot
    exact (record_map (g := fun r => r) hslot fun c => rfl).trans Option.map_id'
  · rw [if_neg hk] at hslot
    exact record_congr hslot

theorem record_handleAck (p : VSOPeer) (k id : UInt64) : (p.handleAck k).record id =
    if k = id then (p.record id).map fun r => { r with pending := none } else p.record id := by
  have hslot := p.slot_handleAck k id
  by_cases hk : k = id
  · rw [if_pos hk] at hslot ⊢
    exact record_map hslot fun c => rfl
  · rw [if_neg hk] at hslot ⊢
    exact record_congr hslot

theorem record_processTransfer (hj : p.joined = true) (msg : Message) :
    (p.processTransfer now msg).1.record id =
    if OwnershipPacket.carries id (.transfer p.self msg) = true then
      (p.record id).map fun r => { r with owner := true, claiming := none } else p.record id := by
  have hslot := p.slot_processTransfer now msg id
  have hcarry : OwnershipPacket.carries id (.transfer p.self msg) = true ↔
      ∃ tr ∈ transfersIn msg, tr.objId = id ∧ tr.newOwner = p.self := by
    simp [OwnershipPacket.carries, List.any_eq_true]
  simp only [hj, true_and, ← hcarry] at hslot
  by_cases hc : OwnershipPacket.carries id (.transfer p.self msg) = true
  · rw [if_pos hc] at hslot ⊢
    rw [record, custody_eq_slot, hslot, record, custody_eq_slot]
    rcases p.slot id with ⟨_ | so, tt, rt⟩
    · rfl
    · rfl
  · rw [if_neg hc] at hslot ⊢
    exact record_congr hslot

theorem objects_processOne (now : Nat) (r : VSOPeer × List VSOOutput × List UInt64) (tr : VSOOwnerTransfer)
    (j : UInt64) : (processOne now r tr).1.objects[j]? = none ↔ r.1.objects[j]? = none := by
  rw [objects_eq_slot, slot_processOne, objects_eq_slot]
  split
  · rcases r.1.slot j with ⟨_ | so, tt, rt⟩
    · exact Iff.rfl
    · exact ⟨fun h => (by cases h), fun h => (by cases h)⟩
  · exact Iff.rfl

/-- What is acknowledged: the transfers to this peer of the objects that it has. -/
theorem ack_mem_foldl (now : Nat) (l : List VSOOwnerTransfer) (r : VSOPeer × List VSOOutput × List UInt64)
    (target k : UInt64) : .ack target k ∈ (l.foldl (processOne now) r).2.1 ↔ .ack target k ∈ r.2.1 ∨
      ∃ tr ∈ l, tr.newOwner = r.1.self ∧ r.1.objects[tr.objId]? ≠ none ∧
        VSOOutput.ack target k ∈ tr.acks := by
  induction l generalizing r with
  | nil => simp
  | cons tr l ih =>
    rw [List.foldl_cons, ih, (processOne_frame now r tr).1]
    simp only [Ne, objects_processOne, List.exists_mem_cons_iff, ← or_assoc]
    refine or_congr_left ?_
    rw [processOne]
    by_cases hme : tr.newOwner = r.1.self
    · rw [if_neg (not_not.mpr hme)]
      by_cases hobj : r.1.objects[tr.objId]? = none
      · simp [hobj]
      · simp [hobj, hme, acceptTransfer]
    · simp [hme]

theorem ack_mem_processTransfer (hj : p.joined = true) (now : Nat) (msg : Message) (target k : UInt64) :
    .ack target k ∈ (p.processTransfer now msg).2 ↔
      ∃ tr ∈ transfersIn msg, tr.newOwner = p.self ∧ p.objects[tr.objId]? ≠ none ∧
        VSOOutput.ack target k ∈ tr.acks := by
  rw [processTransfer, if_neg (by simp [hj]), transfersIn]
  cases hm : msg.extractAs FixedCodec.u8 with
  | none => simp
  | some e =>
    have hfold := ack_mem_foldl now (readTransfers e.1.toNat e.2) (p, [], []) target k
    dsimp only at hfold ⊢
    rw [or_iff_right List.not_mem_nil] at hfold
    split
    · exact hfold
    · rw [List.mem_append, or_iff_left, hfold]
      rw [requestObjects]
      split
      · exact List.not_mem_nil
      · exact fun h => by cases List.mem_singleton.mp h

theorem record_tick (hj : p.joined = true) : (p.tick t v now known).1.record id =
    ((p.periodic t now known).custody id).map fun c => (c.check t v p.self id now).1.record := by
  rw [record, custody_eq_slot, slot_tick, tickSlot, if_pos hj, custody_eq_slot]
  rcases (p.periodic t now known).slot id with ⟨_ | so, tt, rt⟩
  · rfl
  · rfl

/-- What a tick makes of a record is a turn of the handover. -/
theorem turn_tick (ht : 0 < t.transfer) (hj : p.joined = true) (other : Side)
    (hout : ∀ q, v.contains q = false → v.closestTo q ≠ p.self) :
    Handover.Turn t.handover now other ((p.custody id).any fun c => v.contains c.object.aoi.center)
      (p.record id) ((p.tick t v now known).1.record id)
      (if ((p.periodic t now known).custody id).any (fun c => c.leaves v p.self now) then
        {(now, .token other)} else 0) := by
  rw [record_tick hj]
  rcases slot_periodic t now known p id with ⟨⟨-, so, hso, hold, -⟩, hp⟩ | ⟨-, hp⟩
  · have hno : so.isOwner = false := by
      simp only [isObsolete, Bool.and_eq_true, Bool.not_eq_true'] at hold
      exact hold.1
    have hgone : (p.periodic t now known).custody id = none := by
      rw [custody_eq_slot, hp]
      rfl
    rw [hgone, record, custody, hso]
    exact .forget hno
  · have hsame : (p.periodic t now known).custody id = p.custody id := by
      rw [custody_eq_slot, hp, ← custody_eq_slot]
    rw [hsame, record]
    cases p.custody id with
    | none => exact .absent
    | some c => exact c.turn_check ht other (hout _)

/-- Where everything outside belongs to one other peer, a tick sends one message at most. -/
theorem ofOutputs_tick (t : VSOTiming) (now : Nat) (known : UInt64 → Bool) {other : UInt64}
    (hj : p.joined = true) (hv : v.enclosing = [other])
    (hclosest : ∀ q, v.closestTo q ≠ p.self → v.closestTo q = other) :
    ((p.periodic t now known).leaving v now other = [] ∧
      OwnershipPacket.ofOutputs p.self (p.tick t v now known).2 = []) ∨
      OwnershipPacket.ofOutputs p.self (p.tick t v now known).2 = [.transfer other
        { (transferMessage v other ((p.periodic t now known).announcement v now other)).reset with
          fromId := p.self }] := by
  obtain ⟨hself, hjoined, -⟩ := periodic_frame t now known p
  rw [tick]
  dsimp only
  generalize p.periodic t now known = q at hself hjoined ⊢
  have hswept : OwnershipPacket.ofOutputs p.self (swept t v now q) = [] := by
    refine List.flatMap_eq_nil_iff.mpr fun out hout => ?_
    have hch := changes_swept hout
    cases out with
    | claimed objId wasOwner => rfl
    | released tr => rfl
    | transfer msg => exact absurd rfl hch
    | ack target objId => exact absurd rfl hch
    | request target objIds => exact absurd rfl hch
  have hkeys : ∀ g ∈ (Tables.groupBy VSOOwnerTransfer.newOwner (transfersOf (swept t v now q))).toList,
      g.1 = other ∧ g.2 = q.announcement v now other := by
    rintro ⟨k, g⟩ hg
    obtain ⟨hne, rfl⟩ := (Tables.mem_toList_groupBy VSOOwnerTransfer.newOwner).mp hg
    rw [filter_transfersOf_swept] at hne ⊢
    obtain ⟨id, hid⟩ := List.exists_mem_of_ne_nil _ (fun h0 => hne (List.map_eq_nil_iff.mpr h0))
    obtain ⟨c, -, hl, hk⟩ := mem_leaving.mp hid
    rw [Custody.leaves, Bool.and_eq_true, bne_iff_ne] at hl
    obtain rfl : k = other := hk.symm.trans (hclosest _ (hself ▸ hl.2))
    exact ⟨rfl, rfl⟩
  rw [outputs_checkOwnershipTransfer (hjoined.trans hj), OwnershipPacket.ofOutputs_append, hswept,
    List.nil_append]
  rcases Tables.toList_of_keys (fun g hg => (hkeys g hg).1) with h0 | ⟨g, h1⟩
  · rw [h0]
    refine .inl ⟨?_, rfl⟩
    by_contra hne
    have hg : (other, q.announcement v now other) ∈
        (Tables.groupBy VSOOwnerTransfer.newOwner (transfersOf (swept t v now q))).toList := by
      rw [Tables.mem_toList_groupBy VSOOwnerTransfer.newOwner, filter_transfersOf_swept]
      exact ⟨fun he => hne (List.map_eq_nil_iff.mp he), rfl⟩
    rw [h0] at hg
    cases hg
  · have hg : g = q.announcement v now other :=
      (hkeys (other, g) (h1 ▸ List.mem_singleton_self _)).2
    have htargets : (transferMessage v other g).targets = [other] := by
      simp [transferMessage, addTarget, hv]
    rw [h1, List.map_singleton, OwnershipPacket.ofOutputs, List.flatMap_singleton,
      OwnershipPacket.ofOutput, htargets, hg]
    exact .inr rfl

theorem transfersIn_announced {other : UInt64} (h : (p.leaving v now other).length ≤ 255) (sender : UInt64) :
    transfersIn { (transferMessage v other (p.announcement v now other)).reset with fromId := sender } =
      p.announcement v now other := by
  have hlen : (p.announcement v now other).length % 256 = (p.announcement v now other).length := by
    rw [announcement, List.length_map]
    exact Nat.mod_eq_of_lt (Nat.lt_succ_of_le h)
  have hread :
      transfersIn { (transferMessage v other (p.announcement v now other)).reset with fromId := sender } =
      (p.announcement v now other).take ((p.announcement v now other).length % 256) :=
    transfersIn_transferMessage rfl rfl
  rwa [hlen, List.take_length] at hread

/-- The tick says that the other peer owns the object exactly where it gives it up. -/
theorem letters_tick {ids : Side → UInt64} {y : Side} (hids : ids .a ≠ ids .b) (hj : p.joined = true)
    (hv : v.enclosing = [ids y]) (hclosest : ∀ q, v.closestTo q ≠ p.self → v.closestTo q = ids y)
    (hcount : ((p.periodic t now known).leaving v now (ids y)).length ≤ 255) :
    OwnershipPacket.lettersOf ids id now p.self (p.tick t v now known).2 =
      if ((p.periodic t now known).custody id).any (fun c => c.leaves v p.self now) then {(now, .token y)}
      else 0 := by
  obtain ⟨hself, -, -⟩ := periodic_frame t now known p
  have hleaves : ((p.periodic t now known).custody id).any (fun c => c.leaves v p.self now) = true ↔
      id ∈ (p.periodic t now known).leaving v now (ids y) := by
    rw [Option.any_eq_true, mem_leaving, hself]
    refine exists_congr fun c => and_congr_right fun _ => ⟨fun hl => ⟨hl, hclosest _ ?_⟩, And.left⟩
    rw [Custody.leaves, Bool.and_eq_true, bne_iff_ne] at hl
    exact hl.2
  rcases ofOutputs_tick t now known hj hv hclosest with ⟨hnone, hout⟩ | hout
  · rw [OwnershipPacket.lettersOf, hout, if_neg (fun h => by rw [hleaves, hnone] at h; cases h)]
    rfl
  · have hcarry : OwnershipPacket.carries id (.transfer (ids y)
        { (transferMessage v (ids y) ((p.periodic t now known).announcement v now (ids y))).reset with
          fromId := p.self }) = true ↔ id ∈ (p.periodic t now known).leaving v now (ids y) := by
      rw [OwnershipPacket.carries, transfersIn_announced hcount, announcement, List.any_map]
      simp
    rw [OwnershipPacket.lettersOf, hout, OwnershipPacket.stamp, List.map_singleton,
      OwnershipPacket.letters_cons, OwnershipPacket.letter]
    by_cases hid : id ∈ (p.periodic t now known).leaving v now (ids y)
    · rw [if_pos (hcarry.mpr hid), OwnershipPacket.sideOf_ids hids, if_pos (hleaves.mpr hid)]
      rfl
    · rw [if_neg (mt hcarry.mp hid), if_neg (mt hleaves.mp hid)]
      rfl

end VSOPeer

end VastNC
