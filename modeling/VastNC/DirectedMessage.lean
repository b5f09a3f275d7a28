import VastNC.Publication

/-! A message for certain subscribers: `VASTClient::send` puts its targets behind the contents, and the
matcher's `SEND` takes them off again. -/

namespace VastNC

open Message

def sendType : UInt16 := vonMaxMsg + 17

/-- A message as an application makes it for `send`: in a buffer of its own, with distinct targets. -/
structure DirectedMessage where
  msg : Message
  alloc : msg.alloc = true
  small : msg.msgtype < 256
  targets_nodup : msg.targets.Nodup

namespace DirectedMessage

/-- The message that `send` makes; `listsize_t` counts the targets modulo 256. -/
def toMatcher (app : DirectedMessage) (subId now matcher : UInt64) : Message :=
  let msg := { app.msg with
    fromId := if app.msg.fromId = 0 then subId else app.msg.fromId
    capacity := app.msg.data.length + app.msg.free }
  let msg := msg.putAs FixedCodec.u64 now
  let n := UInt8.ofNat msg.targets.length
  let msg := (msg.targets.take n.toNat).foldl (fun m target => m.putAs FixedCodec.u64 target) msg
  let msg := msg.putAs FixedCodec.u8 n
  { msg with
    targets := [], msgtype := packMsgtype msg.msgtype sendType, msggroup := groupMatcher
    priority := if msg.priority = 0 then 1 else msg.priority }.addTarget matcher

/-- `VASTClient::send`: what it returns and what goes out. `accepts` says which hosts can be sent to. -/
def send (app : DirectedMessage) (state : NodeState) (accepts : UInt64 → Bool) (subId now matcher : UInt64) :
    Nat × Option Message :=
  if state ≠ .joined then (0, none)
  else if accepts matcher then (app.msg.targets.length, some (app.toMatcher subId now matcher))
  else (0, none)

end DirectedMessage

def restoreTargets : Nat → Message → Option Message
  | 0, m => some m
  | n + 1, m => do
    let (target, m) ← m.extractAs FixedCodec.u64 true
    restoreTargets n (m.addTarget target)

/-- The matcher's `SEND`. `none` stands for a message that is too short. -/
def handleSend (m : Message) : Option Message :=
  if m.msggroup = groupMatcher ∧ vastMsgtype m.msgtype = sendType then do
    let app := appMsgtype m.msgtype
    let (n, m) ← m.extractAs FixedCodec.u8 true
    let m ← restoreTargets n.toNat { m with targets := [] }
    some { m.reset with msgtype := packMsgtype app messageType, msggroup := groupRelay }
  else none

section Targets

variable {m : Message}

theorem foldl_putAs (h : m.alloc = true) (l : List UInt64) : ∃ curr free capacity,
    l.foldl (fun m target => m.putAs FixedCodec.u64 target) m =
      { m with data := m.data ++ l.flatMap FixedCodec.u64.encode, curr, free, capacity } := by
  induction l generalizing m with
  | nil => exact ⟨m.curr, m.free, m.capacity, by simp⟩
  | cons target l ih =>
    obtain ⟨free, capacity, hput⟩ := put_eq h (FixedCodec.u64.encode target)
    obtain ⟨curr, free', capacity', hrest⟩ := ih (m := m.putAs FixedCodec.u64 target) (alloc_put h _)
    refine ⟨curr, free', capacity', ?_⟩
    rw [List.foldl_cons, hrest, putAs, hput]
    simp

theorem foldl_addTarget_eq {l : List UInt64} (hl : l.Nodup) (hd : ∀ t ∈ l, t ∉ m.targets) :
    l.foldl addTarget m = { m with targets := m.targets ++ l } := by
  induction l generalizing m with
  | nil => simp
  | cons target l ih =>
    rw [List.nodup_cons] at hl
    have hnew : m.addTarget target = { m with targets := m.targets ++ [target] } := by
      rw [addTarget, if_neg (hd target List.mem_cons_self)]
    rw [List.foldl_cons, hnew, ih hl.2]
    · simp
    · intro t ht hmem
      rcases List.mem_append.mp hmem with hmem | hmem
      · exact hd t (List.mem_cons_of_mem _ ht) hmem
      · exact hl.1 (List.mem_singleton.mp hmem ▸ ht)

/-- The targets come off in the reverse of the order in which they were put on. -/
theorem restoreTargets_eq {body : List UInt8} {l : List UInt64}
    (hd : m.data = body ++ l.flatMap FixedCodec.u64.encode) (hc : m.curr = 0) :
    restoreTargets l.length m = some (l.reverse.foldl addTarget { m with data := body }) := by
  induction l using List.reverseRecOn generalizing m with
  | nil =>
    rw [List.flatMap_nil, List.append_nil] at hd
    simp [restoreTargets, ← hd]
  | append_singleton l target ih =>
    rw [List.flatMap_append, List.flatMap_singleton, ← List.append_assoc] at hd
    have hlast := extractAs_end hd (by rw [hc]; exact Nat.zero_le _)
    have hdata : ∀ m : Message, (m.addTarget target).data = m.data ∧ (m.addTarget target).curr = m.curr := by
      intro m
      rw [addTarget]
      split <;> exact ⟨rfl, rfl⟩
    have hrest := ih (m := ({ m with data := body ++ l.flatMap FixedCodec.u64.encode } : Message).addTarget target)
      (hdata _).1 ((hdata _).2.trans hc)
    rw [List.length_append, List.length_singleton, restoreTargets, hlast]
    refine Eq.trans hrest ?_
    rw [List.reverse_append, List.reverse_singleton, List.singleton_append, List.foldl_cons, addTarget, addTarget]
    split <;> rfl

end Targets

namespace DirectedMessage

variable (app : DirectedMessage)

/-- How many of the targets the count of one byte covers. -/
def covered : List UInt64 := app.msg.targets.take (app.msg.targets.length % 256)

theorem toMatcher_fields (subId now matcher : UInt64) :
    (app.toMatcher subId now matcher).msggroup = groupMatcher ∧
      (app.toMatcher subId now matcher).msgtype = packMsgtype app.msg.msgtype sendType ∧
      (app.toMatcher subId now matcher).data = app.msg.data ++ FixedCodec.u64.encode now ++
        app.covered.flatMap FixedCodec.u64.encode ++ FixedCodec.u8.encode (UInt8.ofNat app.msg.targets.length) := by
  let msg : Message := { app.msg with
    fromId := if app.msg.fromId = 0 then subId else app.msg.fromId
    capacity := app.msg.data.length + app.msg.free }
  have halloc : msg.alloc = true := app.alloc
  obtain ⟨f₁, c₁, h₁⟩ := put_eq halloc (FixedCodec.u64.encode now)
  have halloc₁ := alloc_put halloc (FixedCodec.u64.encode now)
  have htargets : (msg.put (FixedCodec.u64.encode now)).targets = app.msg.targets := by rw [h₁]
  obtain ⟨curr, f₂, c₂, h₂⟩ := foldl_putAs halloc₁ app.covered
  have halloc₂ : (app.covered.foldl (fun m target => m.putAs FixedCodec.u64 target)
      (msg.put (FixedCodec.u64.encode now))).alloc = true := by rw [h₂]; exact halloc₁
  obtain ⟨f₃, c₃, h₃⟩ := put_eq halloc₂ (FixedCodec.u8.encode (UInt8.ofNat app.msg.targets.length))
  have hcovered : (msg.put (FixedCodec.u64.encode now)).targets.take
      (UInt8.ofNat (msg.put (FixedCodec.u64.encode now)).targets.length).toNat = app.covered := by
    rw [htargets, UInt8.toNat_ofNat']
    rfl
  have hmade : app.toMatcher subId now matcher = (let msg := ((app.covered.foldl
      (fun m target => m.putAs FixedCodec.u64 target) (msg.put (FixedCodec.u64.encode now))).put
        (FixedCodec.u8.encode (UInt8.ofNat app.msg.targets.length)))
      { msg with
        targets := [], msgtype := packMsgtype msg.msgtype sendType, msggroup := groupMatcher
        priority := if msg.priority = 0 then 1 else msg.priority }.addTarget matcher) := by
    rw [← hcovered, ← htargets]
    rfl
  rw [hmade, h₃, h₂, h₁]
  simp [addTarget, msg]

theorem handleSend_toMatcher {subId now matcher : UInt64} {r : Message}
    (h : (app.toMatcher subId now matcher).Arrives r) : ∃ out, handleSend r = some out ∧
      out.targets = app.covered.reverse ∧ out.data = app.msg.data ++ FixedCodec.u64.encode now ∧
      out.msgtype = packMsgtype app.msg.msgtype messageType := by
  obtain ⟨hgroup, htype, hdata⟩ := app.toMatcher_fields subId now matcher
  obtain ⟨-, hty, hg, -, hd⟩ := h.fields
  obtain ⟨happ, hvast⟩ := unpack_packMsgtype sendType app.small (by decide)
  rw [htype] at hty
  rw [← hty] at happ hvast
  have hcount := extractAs_end (hd.trans hdata) (by rw [h.curr]; exact Nat.zero_le _)
  have hlen : app.covered.length = (UInt8.ofNat app.msg.targets.length).toNat := by
    rw [covered, List.length_take, UInt8.toNat_ofNat', Nat.min_eq_left (Nat.mod_le _ _)]
  have hrestore := restoreTargets_eq (m := { r with
    targets := [], data := app.msg.data ++ FixedCodec.u64.encode now ++ app.covered.flatMap FixedCodec.u64.encode })
    rfl h.curr
  have hnodup : app.covered.reverse.Nodup := List.nodup_reverse.mpr (app.targets_nodup.sublist (List.take_sublist _ _))
  rw [foldl_addTarget_eq hnodup (by simp), hlen] at hrestore
  rw [handleSend, if_pos ⟨hg.trans hgroup, hvast⟩]
  simp only [hcount, hrestore, Option.bind_eq_bind, Option.bind_some, happ]
  exact ⟨_, rfl, List.nil_append _, rfl, rfl⟩

/-- What goes out arrives at the matcher as a message for exactly the targets of the application, and `send`
says to how many. -/
def SendsAll (state : NodeState) (accepts : UInt64 → Bool) (subId now matcher : UInt64) : Prop :=
  match app.send state accepts subId now matcher with
  | (count, none) => count = 0
  | (count, some sent) => ∀ r, sent.Arrives r → ∃ out, handleSend r = some out ∧
      (∀ t, t ∈ out.targets ↔ t ∈ app.msg.targets) ∧
      out.data = app.msg.data ++ FixedCodec.u64.encode now ∧
      out.msgtype = packMsgtype app.msg.msgtype messageType ∧ count = out.targets.length

theorem length_covered : app.covered.length = app.msg.targets.length % 256 := by
  rw [covered, List.length_take, Nat.min_eq_left (Nat.mod_le _ _)]

/-- The count of one byte covers all targets exactly when there are at most 255. -/
theorem sendsAll_iff (state : NodeState) (accepts : UInt64 → Bool) (subId now matcher : UInt64) :
    app.SendsAll state accepts subId now matcher ↔
      (state = .joined → accepts matcher = true → app.msg.targets.length ≤ 255) := by
  rw [SendsAll, send]
  by_cases hstate : state = .joined
  · rw [if_neg (by simp [hstate])]
    by_cases haccepts : accepts matcher = true
    · rw [if_pos haccepts]
      constructor
      · intro h _ _
        obtain ⟨out, hout, -, -, -, hcount⟩ := h _ (arrives_resetCopy _)
        obtain ⟨out', hout', htargets, -⟩ := app.handleSend_toMatcher (arrives_resetCopy (app.toMatcher subId now matcher))
        obtain rfl := Option.some.inj (hout.symm.trans hout')
        rw [htargets, List.length_reverse, length_covered] at hcount
        omega
      · intro h r hr
        have hle := h hstate haccepts
        obtain ⟨out, hout, htargets, hdata, htype⟩ := app.handleSend_toMatcher hr
        have hall : app.covered = app.msg.targets := by
          rw [covered, Nat.mod_eq_of_lt (by omega), List.take_length]
        refine ⟨out, hout, fun t => ?_, hdata, htype, ?_⟩
        · rw [htargets, List.mem_reverse, hall]
        · rw [htargets, List.length_reverse, hall]
    · rw [if_neg haccepts]
      simp [haccepts]
  · rw [if_pos hstate]
    simp [hstate]

theorem nodup_range_256 : ((List.range 256).map fun i => UInt64.ofNat (i + 1)).Nodup :=
  nodup_ofNat_range 1 (by decide)

/-- A message for 256 subscribers. -/
def broadcast : DirectedMessage where
  msg := { msgtype := 5, targets := (List.range 256).map fun i => UInt64.ofNat (i + 1) }
  alloc := rfl
  small := by decide
  targets_nodup := nodup_range_256

/-- `send` says 256, and the matcher finds no target at all. -/
theorem broadcast_reaches_nobody : ¬ broadcast.SendsAll .joined (fun _ => true) 7 100 3 := by
  intro h
  obtain ⟨out, hout, -, -, -, hcount⟩ := h _ (arrives_resetCopy _)
  obtain ⟨out', hout', htargets, -⟩ := broadcast.handleSend_toMatcher (arrives_resetCopy (broadcast.toMatcher 7 100 3))
  obtain rfl := Option.some.inj (hout.symm.trans hout')
  have hsize : broadcast.msg.targets.length = 256 := by simp [broadcast]
  rw [htargets, List.length_reverse, length_covered, hsize] at hcount
  cases hcount

end DirectedMessage

end VastNC
