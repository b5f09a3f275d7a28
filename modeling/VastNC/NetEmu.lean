import VastNC.SendMessage
import VastNC.Lib.RoundRobin

/-! The simulated network. `net_emu::msg_received` puts every item at the end of the queue,
also what `process` leaves of a buffer, so buffers of several frames take turns. -/

namespace VastNC

open KeyedMachine RoundRobin

def ready (now : Nat) (m : NetSocketMsg) : Bool := m.recvtime = 0 ∨ m.recvtime < now

def netEmu (now : Nat) : NetManager where
  receive q := (q.find? (ready now)).map (fun m => (m, q.eraseP (ready now)))
  msgReceived q m _inFront := q ++ [if m.recvtime = 0 then { m with recvtime := now } else m]

/-- A simulated host, as far as `send` looks at it; the constructor resolves `hostId` from the
address. -/
structure NetEmu where
  active : Bool := true
  hostId : UInt64
  connected : List UInt64 := []
  assigned : hostId ≠ netIdUnassigned

/-- `net_emubridge::getArrivalTime` without a latency model. -/
def getArrivalTime (time : UInt64) : UInt64 := time + 1

def NetEmu.send (s : NetEmu) (target time : UInt64) (q : List NetSocketMsg) (msg : List UInt8) :
    List NetSocketMsg :=
  if s.active = false ∨ target ∉ s.connected then q
  else if getArrivalTime time = -1 then q
  else (netEmu time.toNat).msgReceived q ⟨s.hostId, (getArrivalTime time).toNat, msg⟩ false

structure Sending where
  sender : NetEmu
  time : UInt64
  msg : List UInt8

structure Sending.Due (s : Sending) (target now : UInt64) : Prop where
  active : s.sender.active = true
  connected : target ∈ s.sender.connected
  due : s.time.toNat + 1 < now.toNat

def sendEach (target : UInt64) (q : List NetSocketMsg) (sends : List Sending) : List NetSocketMsg :=
  sends.foldl (fun q s => s.sender.send target s.time q s.msg) q

namespace VastNet

def receiveMessage (v : VastNet) (available : Nat) : Option FullVmsg × VastNet :=
  if v.active = false then (none, v)
  else if available = 0 then (none, v)
  else
    match v.fullQueue.pop with
    | none => (none, v)
    | some (m, q) => (some m, { v with fullQueue := q })

/-- `receiveMessage` until it returns nothing, with time left in every call. -/
def receiveLoop : Nat → VastNet → List FullVmsg
  | 0, _ => []
  | fuel + 1, v =>
    match v.receiveMessage 1 with
    | (none, _) => []
    | (some m, v) => m :: receiveLoop fuel v

def receiveAll (v : VastNet) : List FullVmsg := receiveLoop (v.fullQueue.items.length + 1) v

theorem receiveLoop_eq {fuel : Nat} {v : VastNet} (hv : v.active = true)
    (hf : v.fullQueue.items.length < fuel) : receiveLoop fuel v = v.fullQueue.items := by
  induction fuel generalizing v with
  | zero => omega
  | succ fuel ih =>
    obtain ⟨active, halfQueue, ⟨items, sorted⟩, socketQueue, stored, control⟩ := v
    obtain rfl : active = true := hv
    cases items with
    | nil => rfl
    | cons m items =>
      have hlt : items.length < fuel := Nat.lt_of_succ_lt_succ hf
      exact congrArg (m :: ·) (ih rfl hlt)

theorem receiveAll_eq {v : VastNet} (hv : v.active = true) : v.receiveAll = v.fullQueue.items :=
  receiveLoop_eq hv (Nat.lt_succ_self _)

def deliveredFrom (v : VastNet) (host : UInt64) : List Message :=
  (v.receiveAll.filter (fun m => m.fromhost = host)).map (fun m => m.msg)

def leftover (m : NetSocketMsg) (rest : Option (List UInt8)) : Option NetSocketMsg :=
  rest.map (fun rest => { m with msg := rest })

def passedOn (v : VastNet) (m : NetSocketMsg) : List (UInt64 × Handled) :=
  (iterate (v.halves m.fromhost) m).handled.toList.map (fun h => (m.fromhost, h))

theorem handle_eq (v : VastNet) (m : NetSocketMsg) :
    ∃ halfQueue, v.handle m = ((v.applyAll (v.passedOn m)).withHalves halfQueue,
      leftover m (iterate (v.halves m.fromhost) m).rest) ∧
      ∀ k, halfQueue[k]? = if k = m.fromhost then (iterate (v.halves m.fromhost) m).half else v.halves k := by
  obtain ⟨H, hset, hget⟩ := setHalf_eq v m.fromhost (iterate (v.halves m.fromhost) m).half
  refine ⟨H, ?_, hget⟩
  rw [← applyAll_withHalves, ← hset]
  rfl

def requeue (M : NetManager) (q : List NetSocketMsg) : Option NetSocketMsg → List NetSocketMsg
  | none => q
  | some rest => M.msgReceived q rest true

theorem processLoop_step {M : NetManager} {fuel : Nat} {v : VastNet} {q q' : List NetSocketMsg}
    {m : NetSocketMsg} (h : M.receive q = some (m, q')) : processLoop M (fuel + 1) v q =
      processLoop M fuel (v.handle m).1 (requeue M q' (v.handle m).2) := by
  simp only [processLoop, h]
  rcases v.handle m with ⟨w, _ | rest⟩
  · rfl
  · rfl

section Loop

variable {host : UInt64} {now : Nat} {q q' : List NetSocketMsg} {m : NetSocketMsg}
  {batches : List (Frame × List Frame)}

theorem receive_eq_some (h : (netEmu now).receive q = some (m, q')) :
    ∃ pre post, q = pre ++ m :: post ∧ q' = pre ++ post ∧ ∀ x ∈ pre, ready now x = false := by
  obtain ⟨m', hm', he⟩ := Option.map_eq_some_iff.mp h
  obtain ⟨rfl, rfl⟩ := Prod.mk.inj he
  obtain ⟨hready, pre, post, rfl, hpre⟩ := List.find?_eq_some_iff_append.mp hm'
  have hpre' : ∀ x ∈ pre, ready now x = false := fun x hx => by simpa using hpre x hx
  refine ⟨pre, post, rfl, ?_, hpre'⟩
  rw [List.eraseP_append_right _ (fun x hx => by simp [hpre' x hx]), List.eraseP_cons_of_pos hready]

structure Waiting (host : UInt64) (now : Nat) (q : List NetSocketMsg)
    (batches : List (Frame × List Frame)) : Prop where
  bytes : (q.filter (fun m => m.fromhost = host)).map (fun m => m.msg) =
    batches.map (fun b => bytesOf (b.1 :: b.2))
  due : ∀ m ∈ q, m.fromhost = host → 0 < m.recvtime ∧ m.recvtime < now

theorem Waiting.ready (h : Waiting host now q batches) (hm : m ∈ q) (hhost : m.fromhost = host) :
    VastNC.ready now m = true := decide_eq_true (.inr (h.due m hm hhost).2)

theorem filter_fromhost_eq_nil (h : ∀ m ∈ q, m.fromhost ≠ host) :
    q.filter (fun m => m.fromhost = host) = [] :=
  List.filter_eq_nil_iff.mpr (fun m hm => by simpa using h m hm)

theorem weight_append (q q' : List NetSocketMsg) : weight (q ++ q') = weight q + weight q' := by
  simp [weight]

theorem Waiting.other {pre post : List NetSocketMsg} {rest : Option (List UInt8)}
    (h : Waiting host now (pre ++ m :: post) batches) (hm : m.fromhost ≠ host) :
    Waiting host now (requeue (netEmu now) (pre ++ post) (leftover m rest)) batches := by
  obtain ⟨hbytes, hdue⟩ := h
  have hpost : (pre ++ m :: post).filter (fun m => m.fromhost = host) =
      (pre ++ post).filter (fun m => m.fromhost = host) := by
    rw [List.filter_append, List.filter_cons_of_neg (by simpa using hm), ← List.filter_append]
  have hsub : (pre ++ post).Sublist (pre ++ m :: post) := (List.sublist_cons_self m post).append_left pre
  cases rest with
  | none =>
    rw [hpost] at hbytes
    exact ⟨hbytes, fun x hx => hdue x (hsub.subset hx)⟩
  | some r =>
    have hhost (y : NetSocketMsg)
        (hy : y = if m.recvtime = 0 then { m with msg := r, recvtime := now } else { m with msg := r }) :
        y.fromhost ≠ host := by
      rw [hy]
      split <;> exact hm
    constructor
    · rw [← hbytes, hpost, leftover, Option.map_some, requeue, netEmu, List.filter_append,
        List.filter_cons_of_neg (by simpa using hhost _ rfl), List.filter_nil, List.append_nil]
    · intro x hx hx'
      rcases List.mem_append.mp hx with hx | hx
      · exact hdue x (hsub.subset hx) hx'
      · exact absurd hx' (hhost x (List.mem_singleton.mp hx))

/-- An iteration on the first item of the host serves its first frame; the others go to the back. -/
theorem Waiting.own {pre post : List NetSocketMsg} (h : Waiting host now (pre ++ m :: post) batches)
    (hpre : ∀ x ∈ pre, VastNC.ready now x = false) (hm : m.fromhost = host) :
    ∃ f later, iterate none m = ⟨none, some f.handled, (iterate none m).rest⟩ ∧
      served batches = f :: served later ∧ Waiting host now (requeue (netEmu now) (pre ++ post)
        (leftover m (iterate none m).rest)) later := by
  have hnil : pre.filter (fun m => m.fromhost = host) = [] := by
    refine filter_fromhost_eq_nil (fun x hx hxh => ?_)
    have hr := h.ready (List.mem_append_left _ hx) hxh
    rw [hpre x hx] at hr
    cases hr
  obtain ⟨hbytes, hdue⟩ := h
  have hsub : (pre ++ post).Sublist (pre ++ m :: post) := (List.sublist_cons_self m post).append_left pre
  have hrest : ∀ x ∈ pre ++ post, x.fromhost = host → 0 < x.recvtime ∧ x.recvtime < now :=
    fun x hx => hdue x (hsub.subset hx)
  have hstamp := hdue m (List.mem_append_right _ List.mem_cons_self) hm
  rw [List.filter_append, hnil, List.nil_append, List.filter_cons_of_pos (by simpa using hm),
    List.map_cons] at hbytes
  have hback : (pre ++ post).filter (fun m => m.fromhost = host) =
      post.filter (fun m => m.fromhost = host) := by
    rw [List.filter_append, hnil, List.nil_append]
  cases batches with
  | nil => cases hbytes
  | cons b batches =>
    obtain ⟨f, fs⟩ := b
    obtain ⟨hmsg, hpost⟩ := List.cons.inj hbytes
    have hit := iterate_batch hmsg
    cases fs with
    | nil =>
      refine ⟨f, batches, by rw [hit], served_single f batches, ?_⟩
      rw [hit]
      exact ⟨by rw [← hpost, ← hback]; rfl, hrest⟩
    | cons g gs =>
      refine ⟨f, batches ++ [(g, gs)], by rw [hit], served_more f g gs batches, ?_⟩
      rw [hit, if_neg (List.cons_ne_nil g gs), leftover, Option.map_some]
      have hn : ¬ m.recvtime = 0 := by omega
      constructor
      · rw [requeue, netEmu, List.filter_append, hback, List.map_append, hpost, List.map_append]
        simp [hn, hm]
      · intro x hx hx'
        rcases List.mem_append.mp hx with hx | hx
        · exact hrest x hx hx'
        · rw [List.mem_singleton.mp hx, if_neg hn]
          exact hstamp

theorem Waiting.step {pre post : List NetSocketMsg} {v : VastNet}
    (h : Waiting host now (pre ++ m :: post) batches) (hpre : ∀ x ∈ pre, VastNC.ready now x = false)
    (hhalf : v.halves host = none) :
    ∃ later, Waiting host now (requeue (netEmu now) (pre ++ post)
        (leftover m (iterate (v.halves m.fromhost) m).rest)) later ∧
      ofKey host (v.passedOn m) ++ (served later).map Frame.handled = (served batches).map Frame.handled ∧
      (host = m.fromhost → (iterate (v.halves m.fromhost) m).half = none) := by
  by_cases hm : m.fromhost = host
  · subst hm
    obtain ⟨f, later, hit, hserved, hlater⟩ := h.own hpre rfl
    rw [passedOn, hhalf]
    refine ⟨later, hlater, ?_, fun _ => by rw [hit]⟩
    rw [ofKey_map_self, hit, hserved, List.map_cons]
    rfl
  · refine ⟨batches, h.other hm, ?_, fun he => absurd he.symm hm⟩
    rw [passedOn, ofKey_map_ne hm, List.nil_append]

theorem mem_requeue {pre post : List NetSocketMsg} {rest : Option (List UInt8)} {x : NetSocketMsg}
    (hx : x ∈ requeue (netEmu now) (pre ++ post) (leftover m rest)) :
    ∃ y ∈ pre ++ m :: post, y.fromhost = x.fromhost := by
  have hsub : (pre ++ post).Sublist (pre ++ m :: post) := (List.sublist_cons_self m post).append_left pre
  cases rest with
  | none => exact ⟨x, hsub.subset hx, rfl⟩
  | some r =>
    rcases List.mem_append.mp hx with hx | hx
    · exact ⟨x, hsub.subset hx, rfl⟩
    · refine ⟨m, List.mem_append_right _ List.mem_cons_self, ?_⟩
      rw [List.mem_singleton.mp hx]
      split <;> rfl

theorem weight_requeue_lt {pre post : List NetSocketMsg} (half : Option Half) :
    weight (requeue (netEmu now) (pre ++ post) (leftover m (iterate half m).rest)) <
      weight (pre ++ m :: post) := by
  cases hrest : (iterate half m).rest with
  | none =>
    rw [leftover, Option.map_none, requeue, weight_append, weight_append, weight_cons]
    omega
  | some r =>
    have hlt := iterate_rest_lt hrest
    have hnil : weight [] = 0 := rfl
    have hr : (if m.recvtime = 0 then ({ m with msg := r, recvtime := now } : NetSocketMsg)
        else { m with msg := r }).msg = r := by split <;> rfl
    rw [leftover, Option.map_some, requeue, netEmu, weight_append, weight_append, weight_append,
      weight_cons, weight_cons, hr, hnil]
    omega

/-- The buffers of a host are served in turns, whatever else is in the queue. -/
theorem processLoop_emu {fuel : Nat} {v : VastNet} (hf : weight q < fuel) (hhalf : v.halves host = none)
    (hw : Waiting host now q batches) : ∃ outs halfQueue rest,
      processLoop (netEmu now) fuel v q = ((v.applyAll outs).withHalves halfQueue, rest) ∧
        ofKey host outs = (served batches).map Frame.handled ∧
        ∀ out ∈ outs, ∃ m ∈ q, m.fromhost = out.1 := by
  induction fuel generalizing v q batches with
  | zero => omega
  | succ fuel ih =>
    cases hr : (netEmu now).receive q with
    | none =>
      have hnone : ∀ m ∈ q, m.fromhost ≠ host := by
        intro m hm hmh
        have hfind := Option.map_eq_none_iff.mp hr
        exact List.find?_eq_none.mp hfind m hm (hw.ready hm hmh)
      have hb : batches = [] := by
        have hbytes := hw.bytes
        rw [filter_fromhost_eq_nil hnone, List.map_nil] at hbytes
        exact List.map_eq_nil_iff.mp hbytes.symm
      refine ⟨[], v.halfQueue, q, ?_, by rw [hb, served_nil]; rfl, by simp⟩
      simp only [processLoop, hr]
      rfl
    | some r =>
      obtain ⟨m, q'⟩ := r
      obtain ⟨pre, post, rfl, rfl, hpre⟩ := receive_eq_some hr
      obtain ⟨H, hhandle, hH⟩ := handle_eq v m
      obtain ⟨later, hlater, hserved, hown⟩ := hw.step hpre hhalf
      have hhalf' : ((v.applyAll (v.passedOn m)).withHalves H).halves host = none := by
        rw [halves, halfQueue_withHalves, hH]
        split
        · rename_i heq
          exact hown heq
        · exact hhalf
      obtain ⟨outs, H', rest, heq, hkey, houts⟩ :=
        ih ((weight_requeue_lt _).trans_le (Nat.le_of_lt_succ hf)) hhalf' hlater
      refine ⟨v.passedOn m ++ outs, H', rest, ?_, ?_, ?_⟩
      · rw [processLoop_step hr, hhandle, heq, applyAll_withHalves, withHalves_withHalves,
          ← applyAll_append]
      · rw [ofKey_append, hkey, hserved]
      · intro out hout
        rcases List.mem_append.mp hout with hout | hout
        · obtain ⟨h, -, rfl⟩ := List.mem_map.mp hout
          exact ⟨m, List.mem_append_right _ List.mem_cons_self, rfl⟩
        · obtain ⟨x, hx, hxo⟩ := houts out hout
          obtain ⟨y, hy, hyx⟩ := mem_requeue hx
          exact ⟨y, hy, hyx.trans hxo⟩

theorem filter_map_queued {es : List (UInt64 × Message)} (h : ∀ e ∈ es, e.1 ≠ netIdUnassigned) :
    (es.map queued).filter (fun m => m.fromhost = host) = (ofKey host es).map (fun msg => ⟨host, msg⟩) := by
  induction es with
  | nil => rfl
  | cons e es ih =>
    obtain ⟨k, msg⟩ := e
    obtain ⟨hk, hes⟩ := List.forall_mem_cons.mp h
    have hq : queued (k, msg) = ⟨k, msg⟩ := by rw [queued, if_neg hk]
    rw [List.map_cons, hq]
    by_cases he : k = host
    · subst he
      rw [List.filter_cons_of_pos (by simp), ofKey_cons_self, ih hes, List.map_cons]
    · rw [List.filter_cons_of_neg (by simpa using he), ofKey_cons_ne he, ih hes]

theorem key_ne_of_mem_messages {outs : List (UInt64 × Handled)} {host : UInt64}
    (h : ∀ out ∈ outs, out.1 ≠ host) : ∀ e ∈ messages outs, e.1 ≠ host := by
  intro e he
  obtain ⟨out, hout, hmap⟩ := List.mem_filterMap.mp he
  obtain ⟨msg, -, rfl⟩ := Option.map_eq_some_iff.mp hmap
  exact h out hout

def framed (buffers : List (Outgoing × List Outgoing)) : List (Frame × List Frame) :=
  buffers.map (Prod.map Outgoing.frame (List.map Outgoing.frame))

theorem deliveredFrom_process {v : VastNet} {buffers : List (Outgoing × List Outgoing)} {p : UInt8}
    (hv : v.active = true) (hhalf : v.halves host = none)
    (hhosts : ∀ m ∈ q, m.fromhost ≠ netIdUnassigned) (hw : Waiting host now q (framed buffers))
    (hprio : ∀ o ∈ elements buffers, o.msg.priority = p)
    (hfull : ∀ m ∈ v.fullQueue.items, m.fromhost ≠ host) :
    (v.process (netEmu now) q).1.deliveredFrom host = (served buffers).map Outgoing.restored := by
  obtain ⟨outs, H, rest, heq, hkey, houts⟩ := processLoop_emu (Nat.lt_succ_self (weight q)) hhalf hw
  have hnz : ∀ e ∈ messages outs, e.1 ≠ netIdUnassigned := by
    refine key_ne_of_mem_messages (fun out hout => ?_)
    obtain ⟨m, hm, hmo⟩ := houts out hout
    rw [← hmo]
    exact hhosts m hm
  have hnew : ((messages outs).map queued).filter (fun m => m.fromhost = host) =
      (served buffers).map (fun o => ⟨host, o.restored⟩) := by
    have hframes : (served (framed buffers)).map Frame.handled =
        (served buffers).map (fun o => o.frame.handled) := by
      rw [framed, served_map, List.map_map, Function.comp_def]
    have hmsgs : (served buffers).filterMap (fun o => o.frame.handled.message? host) =
        (served buffers).map Outgoing.restored := by
      rw [← List.filterMap_eq_map]
      exact List.filterMap_congr (fun o _ => o.message?_frame host)
    rw [filter_map_queued hnz, ofKey_messages, hkey, hframes, List.filterMap_map, Function.comp_def, hmsgs,
      List.map_map, Function.comp_def]
  obtain ⟨hactive, -, hqueue, -⟩ := applyAll_queues hv outs
  have hactive' : ((v.applyAll outs).withHalves H).active = true := hactive
  have hitems : ((v.applyAll outs).withHalves H).fullQueue =
      ((messages outs).map queued).foldl StableQueue.insert v.fullQueue := by
    rw [List.foldl_map]
    exact hqueue
  have hp : ∀ m ∈ (messages outs).map queued, m.fromhost = host → m.msg.priority.toNat = p.toNat := by
    intro m hm hmh
    have hmem : m ∈ ((messages outs).map queued).filter (fun m => m.fromhost = host) :=
      List.mem_filter.mpr ⟨hm, decide_eq_true hmh⟩
    rw [hnew] at hmem
    obtain ⟨o, ho, rfl⟩ := List.mem_map.mp hmem
    rw [o.priority_restored, hprio o ((served_perm buffers).mem_iff.mp ho)]
  have hold : v.fullQueue.items.filter (fun m => m.fromhost = host) = [] :=
    List.filter_eq_nil_iff.mpr (fun m hm => by simpa using hfull m hm)
  rw [deliveredFrom, process, heq, receiveAll_eq hactive', hitems,
    StableQueue.filter_foldl_insert (k := p.toNat)
      (fun m hm hmh => absurd (of_decide_eq_true hmh) (hfull m hm))
      (fun m hm hmh => hp m hm (of_decide_eq_true hmh)),
    hold, List.nil_append, hnew, List.map_map, Function.comp_def]

end Loop

section Send

variable {host target : UInt64} {s : Sending}

theorem send_eq (s : NetEmu) (target time : UInt64) (q : List NetSocketMsg) (msg : List UInt8) :
    s.send target time q msg = q ∨ ∃ m, s.send target time q msg = q ++ [m] ∧ m.fromhost = s.hostId := by
  rw [NetEmu.send]
  split
  · exact .inl rfl
  · split
    · exact .inl rfl
    · refine .inr ⟨_, rfl, ?_⟩
      split <;> rfl

theorem send_due {now : UInt64} (h : s.Due target now) (q : List NetSocketMsg) :
    s.sender.send target s.time q s.msg = q ++ [⟨s.sender.hostId, s.time.toNat + 1, s.msg⟩] := by
  have hnow := now.toNat_lt
  have hdue := h.due
  have htime : (getArrivalTime s.time).toNat = s.time.toNat + 1 := by
    rw [getArrivalTime, UInt64.toNat_add]
    exact Nat.mod_eq_of_lt (by simp only [UInt64.toNat_one]; omega)
  have hn : ¬ (s.sender.active = false ∨ target ∉ s.sender.connected) := by
    simp [h.active, h.connected]
  have hlast : ¬ getArrivalTime s.time = -1 := by
    intro heq
    rw [heq] at htime
    have hmax : (-1 : UInt64).toNat = 2 ^ 64 - 1 := rfl
    omega
  rw [NetEmu.send, if_neg hn, if_neg hlast, netEmu, htime]
  simp

theorem fromhost_sendEach {q : List NetSocketMsg} (hq : ∀ m ∈ q, m.fromhost ≠ netIdUnassigned)
    (sends : List Sending) : ∀ m ∈ sendEach target q sends, m.fromhost ≠ netIdUnassigned := by
  induction sends generalizing q with
  | nil => exact hq
  | cons s sends ih =>
    refine ih (q := s.sender.send target s.time q s.msg) ?_
    rcases send_eq s.sender target s.time q s.msg with h | ⟨x, h, hx⟩
    · rwa [h]
    · rw [h]
      intro m hm
      rcases List.mem_append.mp hm with hm | hm
      · exact hq m hm
      · rw [List.mem_singleton.mp hm, hx]
        exact s.sender.assigned

theorem filter_sendEach {now : UInt64} {sends : List Sending}
    (hdue : ∀ s ∈ sends, s.sender.hostId = host → s.Due target now) (q : List NetSocketMsg) :
    (sendEach target q sends).filter (fun m => m.fromhost = host) =
      q.filter (fun m => m.fromhost = host) ++
        (sends.filter (fun s => s.sender.hostId = host)).map
          (fun s => ⟨s.sender.hostId, s.time.toNat + 1, s.msg⟩) := by
  induction sends generalizing q with
  | nil => exact (List.append_nil _).symm
  | cons s sends ih =>
    obtain ⟨hs, hsends⟩ := List.forall_mem_cons.mp hdue
    have hstep : sendEach target q (s :: sends) =
        sendEach target (s.sender.send target s.time q s.msg) sends := rfl
    rw [hstep, ih hsends]
    by_cases hh : s.sender.hostId = host
    · rw [send_due (hs hh), List.filter_append, List.filter_cons_of_pos (by simpa using hh),
        List.filter_cons_of_pos (by simpa using hh), List.append_assoc]
      rfl
    · rw [List.filter_cons_of_neg (by simpa using hh)]
      rcases send_eq s.sender target s.time q s.msg with h | ⟨x, h, hx⟩
      · rw [h]
      · rw [h, List.filter_append, List.filter_cons_of_neg (by simpa [hx] using hh), List.filter_nil,
          List.append_nil]

structure SentBuffers (host target now : UInt64) (sends : List Sending)
    (buffers : List (Outgoing × List Outgoing)) : Prop where
  due : ∀ s ∈ sends, s.sender.hostId = host → s.Due target now
  bytes : (sends.filter (fun s => s.sender.hostId = host)).map (fun s => s.msg) =
    buffers.map (fun b => bytesOf ((b.1 :: b.2).map Outgoing.frame))

/-- The receiver before: up, with nothing of the host in its queues. -/
structure Clear (v : VastNet) (host : UInt64) (q : List NetSocketMsg) : Prop where
  active : v.active = true
  half : v.halfQueue[host]? = none
  full : ∀ m ∈ v.fullQueue.items, m.fromhost ≠ host
  recv : ∀ m ∈ q, m.fromhost ≠ host
  hosts : ∀ m ∈ q, m.fromhost ≠ netIdUnassigned

variable {now : UInt64} {sends : List Sending} {buffers : List (Outgoing × List Outgoing)}
  {v : VastNet} {q : List NetSocketMsg}

theorem SentBuffers.waiting (h : SentBuffers host target now sends buffers)
    (hq : ∀ m ∈ q, m.fromhost ≠ host) :
    Waiting host now.toNat (sendEach target q sends) (framed buffers) := by
  have hfilter := filter_sendEach h.due q
  rw [filter_fromhost_eq_nil hq, List.nil_append] at hfilter
  constructor
  · rw [hfilter, List.map_map, Function.comp_def, h.bytes, framed, List.map_map]
    rfl
  · intro m hm hmh
    have hmem : m ∈ (sendEach target q sends).filter (fun m => m.fromhost = host) :=
      List.mem_filter.mpr ⟨hm, decide_eq_true hmh⟩
    rw [hfilter] at hmem
    obtain ⟨s, hs, rfl⟩ := List.mem_map.mp hmem
    obtain ⟨hs, hsh⟩ := List.mem_filter.mp hs
    exact ⟨Nat.succ_pos _, (h.due s hs (of_decide_eq_true hsh)).due⟩

theorem content_delivered {p : UInt8} (hclear : v.Clear host q)
    (hsent : SentBuffers host target now sends buffers)
    (hprio : ∀ o ∈ elements buffers, o.msg.priority = p) :
    ((v.process (netEmu now.toNat) (sendEach target q sends)).1.deliveredFrom host).map Message.content =
      served (buffers.map (Prod.map (fun o => o.msg.content) (List.map (fun o => o.msg.content)))) := by
  rw [deliveredFrom_process hclear.active hclear.half (fromhost_sendEach hclear.hosts sends)
    (hsent.waiting hclear.recv) hprio hclear.full, served_map, List.map_map]
  exact List.map_congr_left (fun o _ => o.content_restored)

end Send

/-- Nothing of what a host has sent is lost or repeated, and it is delivered in order exactly
when every buffer but the last of those that are waiting is a single frame: equal messages
cannot be told apart, so for the other direction they have to be different. -/
theorem emulated_order_iff (v : VastNet) (q : List NetSocketMsg) (host target now : UInt64)
    (hclear : v.Clear host q) (sends : List Sending) (buffers : List (Outgoing × List Outgoing))
    (hsent : SentBuffers host target now sends buffers) (p : UInt8)
    (hprio : ∀ o ∈ elements buffers, o.msg.priority = p) :
    (((v.process (netEmu now.toNat) (sendEach target q sends)).1.deliveredFrom host).map
        Message.content).Perm ((elements buffers).map (fun o => o.msg.content)) ∧
      ((∀ b ∈ buffers.dropLast, b.2 = []) →
        ((v.process (netEmu now.toNat) (sendEach target q sends)).1.deliveredFrom host).map
          Message.content = (elements buffers).map (fun o => o.msg.content)) ∧
      (((elements buffers).map (fun o => o.msg.content)).Nodup →
        ((v.process (netEmu now.toNat) (sendEach target q sends)).1.deliveredFrom host).map
          Message.content = (elements buffers).map (fun o => o.msg.content) →
        ∀ b ∈ buffers.dropLast, b.2 = []) := by
  have hsingle : (∀ b ∈ (buffers.map (Prod.map (fun o => o.msg.content)
      (List.map (fun o => o.msg.content)))).dropLast, b.2 = []) ↔ ∀ b ∈ buffers.dropLast, b.2 = [] := by
    rw [← List.map_dropLast, List.forall_mem_map]
    simp only [Prod.map_snd, List.map_eq_nil_iff]
  rw [content_delivered hclear hsent hprio, ← elements_map, ← hsingle]
  exact ⟨served_perm _, served_eq_elements, dropLast_of_served_eq⟩

def sendings (buffers : List (Outgoing × List Outgoing)) : List Sending :=
  buffers.map (fun b =>
    ⟨{ hostId := 5, connected := [9], assigned := by decide }, 1, bytesOf ((b.1 :: b.2).map Outgoing.frame)⟩)

theorem sentBuffers_sendings (buffers : List (Outgoing × List Outgoing)) :
    SentBuffers 5 9 3 (sendings buffers) buffers := by
  constructor
  · intro s hs _
    obtain ⟨b, -, rfl⟩ := List.mem_map.mp hs
    exact ⟨rfl, List.mem_singleton.mpr rfl, Nat.lt_succ_self 2⟩
  · have hself : (sendings buffers).filter (fun s => s.sender.hostId = 5) = sendings buffers := by
      refine List.filter_eq_self.mpr (fun s hs => ?_)
      obtain ⟨b, -, rfl⟩ := List.mem_map.mp hs
      rfl
    rw [hself, sendings, List.map_map, Function.comp_def]

theorem clear_start (host : UInt64) : Clear {} host [] :=
  ⟨rfl, Std.ExtTreeMap.getElem?_empty, by simp, by simp, by simp⟩

def inOrder : List (Outgoing × List Outgoing) := [(.note 1, []), (.note 2, [.note 3])]

def takingTurns : List (Outgoing × List Outgoing) := [(.note 1, [.note 2]), (.note 3, [])]

theorem emulated_order_last_buffer_long :
    ((process (netEmu 3) {} (sendEach 9 [] (sendings inOrder))).1.deliveredFrom 5).map Message.content =
      [Outgoing.note 1, Outgoing.note 2, Outgoing.note 3].map (fun o => o.msg.content) :=
  (emulated_order_iff {} [] 5 9 3 (clear_start 5) (sendings inOrder) inOrder
    (sentBuffers_sendings inOrder) 3 (by decide)).2.1 (by simp [inOrder])

/-- The second buffer overtakes the second frame of the first one. -/
theorem second_buffer_overtakes :
    SentBuffers 5 9 3 (sendings takingTurns) takingTurns ∧
      (∀ o ∈ elements takingTurns, o.msg.priority = 3) ∧
      ((process (netEmu 3) {} (sendEach 9 [] (sendings takingTurns))).1.deliveredFrom 5).map
        Message.content = [Outgoing.note 1, Outgoing.note 3, Outgoing.note 2].map (fun o => o.msg.content) ∧
      ((process (netEmu 3) {} (sendEach 9 [] (sendings takingTurns))).1.deliveredFrom 5).map
        Message.content ≠ (elements takingTurns).map (fun o => o.msg.content) := by
  have hserved : served (takingTurns.map (Prod.map (fun o => o.msg.content)
      (List.map (fun o => o.msg.content)))) =
      [Outgoing.note 1, Outgoing.note 3, Outgoing.note 2].map (fun o => o.msg.content) := by
    rw [served_map, takingTurns, served_more, List.singleton_append, served_single, served_one]
  have h := content_delivered (p := 3) (clear_start 5) (sentBuffers_sendings takingTurns) (by decide)
  rw [hserved] at h
  refine ⟨sentBuffers_sendings takingTurns, by decide, h, ne_of_eq_of_ne h ?_⟩
  decide

end VastNet

end VastNC
