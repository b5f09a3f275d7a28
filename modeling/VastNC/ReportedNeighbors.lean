import VastNC.NeighborNotice

/-! What a client knows of the neighbours that a `NEIGHBOR` message reports: which of them it holds
afterwards, and which of them it has asked its matcher for. -/

namespace VastNC

open Message

/-- The contents of a `NEIGHBOR` message: their number fits its byte, and what is inserted is the node
of the id reported. -/
structure NeighborReport where
  entries : List NeighborChange
  length_le : entries.length ≤ 255
  inserted_id : ∀ id node, .inserted id node ∈ entries → node.id = id

namespace NeighborReport

/-- The report as it is when a message with it has arrived. -/
def received (r : NeighborReport) (m : Message) : Message :=
  { m with
    data := r.entries.flatMap NeighborChange.encode ++ FixedCodec.u8.encode (UInt8.ofNat r.entries.length)
    curr := 0 }

theorem handleNeighbor_received (r : NeighborReport) (m : Message) (now : UInt64) (c : ClientNeighbors) :
    c.handleNeighbor now (r.received m) = some (r.entries.foldl (fun c e => c.apply now e) c) := by
  have hlen := r.length_le
  have hcount : (UInt8.ofNat r.entries.length).toNat = r.entries.length := by
    rw [UInt8.toNat_ofNat']
    omega
  have hat : Message.At { r.received m with data := r.entries.flatMap NeighborChange.encode } []
      (r.entries.flatMap NeighborChange.encode ++ []) := ⟨(List.append_nil _).symm, rfl⟩
  have hsize : (r.received m).extractAs FixedCodec.u8 true = some (UInt8.ofNat r.entries.length,
      { r.received m with data := r.entries.flatMap NeighborChange.encode }) := extractAs_end rfl (Nat.zero_le _)
  rw [ClientNeighbors.handleNeighbor, hsize]
  simp only [Option.bind_eq_bind, Option.bind_some, hcount]
  exact readChanges_flatMap now r.entries c hat

end NeighborReport

namespace NeighborChange

/-- Whether `id` is held after an entry. -/
def knownAfter (id : UInt64) (known : Bool) : NeighborChange → Bool
  | .inserted k _ => known || k == id
  | .deleted k => known && k != id
  | .unchanged _ => known
  | .updated _ _ _ => known

/-- Whether `id` is held after the entries, by what they insert and delete. -/
def knownThrough (id : UInt64) (known : Bool) (es : List NeighborChange) : Bool :=
  es.foldl (knownAfter id) known

variable {id : UInt64} {es : List NeighborChange} {known : Bool}

theorem knownThrough_append (es es' : List NeighborChange) :
    knownThrough id known (es ++ es') = knownThrough id (knownThrough id known es) es' := by
  rw [knownThrough, List.foldl_append]
  rfl

theorem knownThrough_of_known (hdel : .deleted id ∉ es) : knownThrough id true es = true := by
  induction es with
  | nil => rfl
  | cons e es ih =>
    rw [List.mem_cons, not_or] at hdel
    have he : knownAfter id true e = true := by
      cases e with
      | deleted k =>
        have hk : k ≠ id := fun hk => hdel.1 (hk ▸ rfl)
        simp [knownAfter, hk]
      | _ => rfl
    show knownThrough id (knownAfter id true e) es = true
    rw [he]
    exact ih hdel.2

theorem knownThrough_of_unchanged (h : ∀ e ∈ es, e.id = id → e = .unchanged id) :
    knownThrough id known es = known := by
  induction es with
  | nil => rfl
  | cons e es ih =>
    have he : knownAfter id known e = known := by
      have hhead := h e List.mem_cons_self
      cases e with
      | inserted k node =>
        have hk : k ≠ id := fun hk => by cases hhead hk
        simp [knownAfter, hk]
      | deleted k =>
        have hk : k ≠ id := fun hk => by cases hhead hk
        simp [knownAfter, hk]
      | _ => rfl
    show knownThrough id (knownAfter id known e) es = known
    rw [he]
    exact ih fun x hx => h x (List.mem_cons_of_mem e hx)

end NeighborChange

namespace ClientNeighbors

open NeighborChange

variable {c : ClientNeighbors} {id now : UInt64} {es : List NeighborChange}

def knows (c : ClientNeighbors) (id : UInt64) : Bool := (c.neighbors.find id).isSome

theorem knows_apply (e : NeighborChange) (he : ∀ id node, e = .inserted id node → node.id = id) :
    (c.apply now e).knows id = knownAfter id (c.knows id) e := by
  have hview : (c.apply now e).neighbors.find = (c.view.apply now e).nodes :=
    congrArg NeighborView.nodes (view_apply now c e)
  rw [knows, hview, knows]
  cases e with
  | inserted k node =>
    obtain rfl := he k node rfl
    by_cases hk : id = node.id
    · simp [NeighborView.apply, knownAfter, hk]
    · simp [NeighborView.apply, knownAfter, view, hk, Ne.symm hk]
  | deleted k =>
    simp only [NeighborView.apply, view]
    cases hfind : c.neighbors.find k with
    | none =>
      by_cases hk : id = k
      · simp [knownAfter, hk, hfind]
      · simp [knownAfter, Ne.symm hk]
    | some n =>
      by_cases hk : id = k
      · simp [knownAfter, hk]
      · simp [knownAfter, hk, Ne.symm hk]
  | unchanged k => rfl
  | updated k aoi time =>
    simp only [NeighborView.apply, view]
    cases hfind : c.neighbors.find k with
    | none => rfl
    | some n =>
      by_cases hk : id = k
      · simp [knownAfter, hk, hfind]
      · simp [knownAfter, hk]

theorem knows_foldl (hins : ∀ id node, .inserted id node ∈ es → node.id = id) (now id : UInt64) (c : ClientNeighbors) :
    (es.foldl (fun c e => c.apply now e) c).knows id = knownThrough id (c.knows id) es := by
  induction es generalizing c with
  | nil => rfl
  | cons e es ih =>
    have he : ∀ id node, e = .inserted id node → node.id = id :=
      fun id node h => hins id node (h ▸ List.mem_cons_self)
    rw [List.foldl_cons, ih (fun id node h => hins id node (List.mem_cons_of_mem e h)), knows_apply e he]
    rfl

theorem requested_apply (e : NeighborChange) : (c.apply now e).requested =
    match e with
    | .updated id _ _ => if c.knows id then c.requested else c.requested ++ [id]
    | _ => c.requested := by
  cases e with
  | inserted id node => rfl
  | deleted id =>
    show (c.removeNeighbor id).requested = _
    rw [removeNeighbor]
    split <;> rfl
  | unchanged id => rfl
  | updated id aoi time =>
    show (c.update id aoi time now).requested = _
    rw [update]
    cases hfind : c.neighbors.find id with
    | none => simp [knows, hfind]
    | some n => simp [knows, hfind]

/-- `id` is reported as updated at a point where it is not held. -/
def Asked (id : UInt64) (known : Bool) (es : List NeighborChange) : Prop :=
  ∃ pre aoi time post, es = pre ++ .updated id aoi time :: post ∧ knownThrough id known pre = false

theorem asked_cons {e : NeighborChange} {known : Bool} : Asked id known (e :: es) ↔
    (∃ aoi time, e = .updated id aoi time ∧ known = false) ∨ Asked id (knownAfter id known e) es := by
  constructor
  · rintro ⟨pre, aoi, time, post, hes, hknown⟩
    cases pre with
    | nil =>
      obtain ⟨rfl, rfl⟩ := List.cons.inj hes
      exact .inl ⟨aoi, time, rfl, hknown⟩
    | cons x pre =>
      obtain ⟨rfl, rfl⟩ := List.cons.inj hes
      exact .inr ⟨pre, aoi, time, post, rfl, hknown⟩
  · rintro (⟨aoi, time, rfl, rfl⟩ | ⟨pre, aoi, time, post, rfl, hknown⟩)
    · exact ⟨[], aoi, time, es, rfl, rfl⟩
    · exact ⟨e :: pre, aoi, time, post, rfl, hknown⟩

theorem requested_foldl (hins : ∀ id node, .inserted id node ∈ es → node.id = id) (now : UInt64)
    (c : ClientNeighbors) :
    ∃ asked, (es.foldl (fun c e => c.apply now e) c).requested = c.requested ++ asked ∧
      ∀ id, id ∈ asked ↔ Asked id (c.knows id) es := by
  induction es generalizing c with
  | nil => exact ⟨[], (List.append_nil _).symm, fun id => by simp [Asked]⟩
  | cons e es ih =>
    have he : ∀ id node, e = .inserted id node → node.id = id :=
      fun id node h => hins id node (h ▸ List.mem_cons_self)
    obtain ⟨asked, hasked, hmem⟩ := ih (fun id node h => hins id node (List.mem_cons_of_mem e h)) (c.apply now e)
    have hrest : ∀ id, id ∈ asked ↔ Asked id (knownAfter id (c.knows id) e) es := by
      intro id
      rw [hmem id, knows_apply e he]
    rw [List.foldl_cons, hasked, requested_apply]
    cases e with
    | updated k aoi time =>
      by_cases hk : c.knows k = true
      · refine ⟨asked, by simp [hk], fun id => ?_⟩
        rw [hrest, asked_cons]
        refine (or_iff_right ?_).symm
        rintro ⟨aoi', time', hupd, hfalse⟩
        cases hupd
        rw [hk] at hfalse
        cases hfalse
      · refine ⟨k :: asked, by simp [hk], fun id => ?_⟩
        rw [List.mem_cons, hrest, asked_cons]
        refine or_congr_left ⟨?_, ?_⟩
        · rintro rfl
          exact ⟨aoi, time, rfl, Bool.eq_false_iff.mpr hk⟩
        · rintro ⟨aoi', time', hupd, -⟩
          cases hupd
          rfl
    | inserted k node => exact ⟨asked, rfl, fun id => by rw [hrest, asked_cons]; simp⟩
    | deleted k => exact ⟨asked, rfl, fun id => by rw [hrest, asked_cons]; simp⟩
    | unchanged k => exact ⟨asked, rfl, fun id => by rw [hrest, asked_cons]; simp⟩

/-- After a report each neighbour of it that is not deleted later in it is held, or a request for it went out
meanwhile. -/
def KnownOrRequested (now : UInt64) (c : ClientNeighbors) (r : NeighborReport) (m : Message) : Prop :=
  ∃ c' asked, c.handleNeighbor now (r.received m) = some c' ∧ c'.requested = c.requested ++ asked ∧
    ∀ pre e post, r.entries = pre ++ e :: post → e.status ≠ .deleted → .deleted e.id ∉ post →
      c'.knows e.id = true ∨ e.id ∈ asked

/-- A neighbour that is not held is only reported as unchanged: nothing later in the report is about it but
such entries, and no request for it went out before. -/
def Forgets (c : ClientNeighbors) (r : NeighborReport) : Prop :=
  ∃ pre id post, r.entries = pre ++ .unchanged id :: post ∧ (∀ e ∈ post, e.id = id → e = .unchanged id) ∧
    knownThrough id (c.knows id) pre = false ∧ ¬ Asked id (c.knows id) pre

theorem Asked.append {known : Bool} (h : Asked id known es) (es' : List NeighborChange) :
    Asked id known (es ++ es') := by
  obtain ⟨pre, aoi, time, post, rfl, hknown⟩ := h
  exact ⟨pre, aoi, time, post ++ es', by simp, hknown⟩

theorem not_asked_append {known : Bool} {es' : List NeighborChange} (h : ¬ Asked id known es)
    (hes' : ∀ e ∈ es', e.id = id → e = .unchanged id) : ¬ Asked id known (es ++ es') := by
  induction es generalizing known with
  | nil =>
    rintro ⟨pre, aoi, time, post, rfl, -⟩
    cases hes' (.updated id aoi time) (by simp) rfl
  | cons e es ih =>
    rw [List.cons_append, asked_cons, not_or]
    rw [asked_cons, not_or] at h
    exact ⟨h.1, ih h.2⟩

/-- An id that is neither held nor asked for at the end has only been reported as unchanged since it was last deleted. -/
theorem unchanged_of_lost {known : Bool} {pre rest : List NeighborChange} (hdel : .deleted id ∉ rest)
    (hlost : knownThrough id known (pre ++ rest) = false) (hasked : ¬ Asked id known (pre ++ rest)) :
    ∀ e ∈ rest, e.id = id → e = .unchanged id := by
  intro e he hid
  obtain ⟨before, after, rfl⟩ := List.append_of_mem he
  have hrest : .deleted id ∉ e :: after := fun h => hdel (List.mem_append_right before h)
  rw [← List.append_assoc, knownThrough_append] at hlost
  have hknown : knownThrough id known (pre ++ before) = false := by
    rw [Bool.eq_false_iff]
    intro htrue
    rw [htrue, knownThrough_of_known hrest] at hlost
    cases hlost
  cases e with
  | inserted k node =>
    have hafter : .deleted id ∉ after := fun h => hrest (List.mem_cons_of_mem _ h)
    have hhead : knownAfter id false (.inserted k node) = true := beq_iff_eq.mpr hid
    rw [hknown] at hlost
    change knownThrough id (knownAfter id false (.inserted k node)) after = false at hlost
    rw [hhead, knownThrough_of_known hafter] at hlost
    cases hlost
  | deleted k => exact absurd (hid ▸ List.mem_cons_self) hrest
  | unchanged k => exact congrArg NeighborChange.unchanged hid
  | updated k aoi time =>
    obtain rfl : k = id := hid
    exact absurd ⟨pre ++ before, aoi, time, after, by simp, hknown⟩ hasked

/-- A report reaches a client that holds or asks for all of it, exactly when nothing it lacks is only said to
be unchanged. -/
theorem knownOrRequested_iff (now : UInt64) (c : ClientNeighbors) (r : NeighborReport) (m : Message) :
    c.KnownOrRequested now r m ↔ ¬ c.Forgets r := by
  obtain ⟨asked, hasked, hmem⟩ := requested_foldl r.inserted_id now c
  have hknows := fun id => knows_foldl r.inserted_id now id c
  constructor
  · rintro ⟨c', asked', hc', hreq, hall⟩ ⟨pre, id, post, hes, hpost, hunknown, hnot⟩
    rw [r.handleNeighbor_received, Option.some.injEq] at hc'
    subst hc'
    obtain rfl := List.append_cancel_left (hasked.symm.trans hreq)
    have htail : ∀ e ∈ NeighborChange.unchanged id :: post, e.id = id → e = .unchanged id :=
      fun e he hid => (List.mem_cons.mp he).elim (fun h => h) (fun h => hpost e h hid)
    have hdel : .deleted id ∉ post := fun hd => by cases hpost _ hd rfl
    rcases hall pre (.unchanged id) post hes NeighborUpdateStatus.noConfusion hdel with h | h
    · rw [hknows, hes, knownThrough_append] at h
      change knownThrough id (knownThrough id (c.knows id) pre) (.unchanged id :: post) = true at h
      rw [knownThrough_of_unchanged htail, hunknown] at h
      cases h
    · rw [hmem, hes] at h
      exact not_asked_append hnot htail h
  · intro h
    refine ⟨_, asked, r.handleNeighbor_received m now c, hasked, fun pre e post hes hstatus hdel => ?_⟩
    rw [hknows, hmem]
    by_contra hlost
    rw [not_or, Bool.not_eq_true, hes] at hlost
    have hrest : .deleted e.id ∉ e :: post := by
      rw [List.mem_cons, not_or]
      refine ⟨fun he => hstatus ?_, hdel⟩
      rw [← he]
      rfl
    have htail := unchanged_of_lost hrest hlost.1 hlost.2
    obtain he := htail e List.mem_cons_self rfl
    refine h ⟨pre, e.id, post, he ▸ hes, fun x hx => htail x (List.mem_cons_of_mem e hx), ?_, ?_⟩
    · have hlast := hlost.1
      rw [knownThrough_append, knownThrough_of_unchanged htail] at hlast
      exact hlast
    · exact fun hpre => hlost.2 (hpre.append _)

/-- `_last_update[id]` makes an entry where there is none. -/
def touch (c : ClientNeighbors) (id : UInt64) : ClientNeighbors :=
  if id ∈ c.lastUpdate then c else { c with lastUpdate := c.lastUpdate.insert id 0 }

def ghosts (c : ClientNeighbors) (now timeout : UInt64) : List UInt64 :=
  (c.neighbors.nodes.map Node.id).filter (fun id => now - c.lastUpdate[id]?.getD 0 ≥ timeout)

/-- `removeGhosts` with an active subscription `subId`: a client that is a ghost itself looks for another
matcher and keeps its entry. The log reads the time of each ghost once more. -/
def removeGhosts (c : ClientNeighbors) (subId now timeout : UInt64) : ClientNeighbors :=
  (c.ghosts now timeout).foldl
    (fun c id => (if id = subId then c else c.removeNeighbor id).touch id)
    ((c.neighbors.nodes.map Node.id).foldl touch c)

/-- Neighbour 4 was inserted at time 0 and dropped as a ghost. -/
def dropped : ClientNeighbors := (({} : ClientNeighbors).addNeighbor { id := 4 } 0).removeGhosts 1 600000 500000

def stillThere : NeighborReport := ⟨[.unchanged 4], by decide, by simp⟩

theorem dropped_not_requested : ¬ dropped.KnownOrRequested 600001 stillThere { msgtype := neighborType } := by
  rintro ⟨c', asked, hc', hreq, hall⟩
  rw [stillThere.handleNeighbor_received, Option.some.injEq] at hc'
  subst hc'
  have hnone : asked = [] := List.append_cancel_left (hreq.symm.trans (List.append_nil _).symm)
  rcases hall [] (.unchanged 4) [] rfl (by decide) (by decide) with h | h
  · exact absurd h (by decide)
  · rw [hnone] at h
    cases h

end ClientNeighbors

end VastNC
