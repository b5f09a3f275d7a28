import VastNC.Framing
import VastNC.Lib.KeyedMachine
import VastNC.Lib.StableQueue

/-! `VASTnet::process`: byte chunks of many hosts are put together to frames, each host's in
an entry of `_half_queue`; what follows a completed frame goes back to the net manager. -/

namespace VastNC

open KeyedMachine

structure NetSocketMsg where
  fromhost : UInt64
  recvtime : Nat
  msg : List UInt8
  deriving DecidableEq

/-- `HALF_VMSG`. The buffer is made for the whole frame, so adding to it never fails and
`received` is its length; a complete frame is handed on at once. -/
structure Half where
  header : VASTHeader
  buf : List UInt8
  incomplete : buf.length < sizeofVASTHeader + header.msgSize.toNat

def Half.fullSize (hq : Half) : Nat := sizeofVASTHeader + hq.header.msgSize.toNat

inductive Handled where
  | disconnect
  | vast (header : VASTHeader) (body : List UInt8)
  | socket (m : NetSocketMsg)

def halfFor (half : Option Half) (bytes : List UInt8) : Option Half :=
  match half with
  | some hq => some hq
  | none =>
    if sizeofVASTHeader < bytes.length then
      let header := VASTHeader.ofBytes bytes
      if header.isVASTHeader then
        some ⟨header, [], by simp only [sizeofVASTHeader, List.length_nil]; omega⟩
      else none
    else none

structure Iteration where
  half : Option Half
  handled : Option Handled
  rest : Option (List UInt8)

/-- One iteration of the loop in `process`, as far as the host's entry goes. -/
def iterate (half : Option Half) (m : NetSocketMsg) : Iteration :=
  if m.msg = [] then ⟨half, some .disconnect, none⟩
  else
    match halfFor half m.msg with
    | none => ⟨none, some (.socket m), none⟩
    | some hq =>
      let sizeToadd := min (hq.fullSize - hq.buf.length) m.msg.length
      let buf := hq.buf ++ m.msg.take sizeToadd
      let rest := if sizeToadd < m.msg.length then some (m.msg.drop sizeToadd) else none
      if h : buf.length < hq.fullSize then ⟨some ⟨hq.header, buf, h⟩, none, rest⟩
      else ⟨none, some (.vast hq.header (buf.drop sizeofVASTHeader)), rest⟩

structure FullVmsg where
  fromhost : UInt64
  msg : Message

/-- The receiving side of `VASTnet`. `stored` is a history of the calls of `storeVASTMessage`
and `control` one of the messages for the other header types. -/
structure VastNet where
  active : Bool := true
  halfQueue : Std.ExtTreeMap UInt64 Half := ∅
  fullQueue : StableQueue (fun m : FullVmsg => m.msg.priority.toNat) := {}
  socketQueue : List NetSocketMsg := []
  stored : List (UInt64 × Message) := []
  control : List (UInt64 × BitVec 2 × Message) := []

namespace VastNet

def storeVASTMessage (v : VastNet) (fromhost : UInt64) (msg : Message) : VastNet :=
  if v.active = false then v
  else
    let host := if fromhost = netIdUnassigned then msg.fromId else fromhost
    { v with fullQueue := v.fullQueue.insert ⟨host, msg⟩, stored := v.stored ++ [(fromhost, msg)] }

def storeSocketMessage (v : VastNet) (m : NetSocketMsg) : VastNet :=
  if v.active = false then v else { v with socketQueue := v.socketQueue ++ [m] }

def processVASTMessage (v : VastNet) (header : VASTHeader) (body : List UInt8) (remoteId : UInt64) :
    VastNet :=
  let r := ({ msgtype := 0 } : Message).deserialize (LittleEndian.memOf body) header.msgSize.toNat
  if r.ret = 0 then v
  else if header.type = VASTHeaderType.regular.bits then v.storeVASTMessage remoteId r.msg
  else { v with control := v.control ++ [(remoteId, header.type, r.msg)] }

def disconnectType : UInt16 := 0

def apply (v : VastNet) (host : UInt64) : Handled → VastNet
  | .disconnect => v.storeVASTMessage host { msgtype := disconnectType, fromId := host }
  | .vast header body => v.processVASTMessage header body host
  | .socket m => v.storeSocketMessage m

def applyAll (v : VastNet) (outs : List (UInt64 × Handled)) : VastNet :=
  outs.foldl (fun v out => v.apply out.1 out.2) v

def setHalf (v : VastNet) (host : UInt64) : Option Half → VastNet
  | none => { v with halfQueue := v.halfQueue.erase host }
  | some hq => { v with halfQueue := v.halfQueue.insert host hq }

def handle (v : VastNet) (m : NetSocketMsg) : VastNet × Option NetSocketMsg :=
  let r := iterate v.halfQueue[m.fromhost]? m
  ((v.setHalf m.fromhost r.half).applyAll (r.handled.toList.map (fun h => (m.fromhost, h))),
    r.rest.map (fun rest => { m with msg := rest }))

end VastNet

/-- The queue of a net manager: how `receive` takes an item from it and `msg_received` puts
one into it. -/
structure NetManager where
  receive : List NetSocketMsg → Option (NetSocketMsg × List NetSocketMsg)
  msgReceived : List NetSocketMsg → NetSocketMsg → Bool → List NetSocketMsg

def netUdp : NetManager where
  receive
    | [] => none
    | m :: q => some (m, q)
  msgReceived q m inFront := if inFront then m :: q else q ++ [m]

def weight (q : List NetSocketMsg) : Nat := (q.map (fun m => m.msg.length + 1)).sum

namespace VastNet

def processLoop (M : NetManager) : Nat → VastNet → List NetSocketMsg → VastNet × List NetSocketMsg
  | 0, v, q => (v, q)
  | fuel + 1, v, q =>
    match M.receive q with
    | none => (v, q)
    | some (m, q) =>
      match v.handle m with
      | (v, none) => processLoop M fuel v q
      | (v, some rest) => processLoop M fuel v (M.msgReceived q rest true)

/-- Every iteration makes the queue lighter, so this many are enough. -/
def process (M : NetManager) (v : VastNet) (q : List NetSocketMsg) : VastNet × List NetSocketMsg :=
  processLoop M (weight q + 1) v q

end VastNet

theorem iterate_rest_lt {half : Option Half} {m : NetSocketMsg} {rest : List UInt8}
    (h : (iterate half m).rest = some rest) : rest.length < m.msg.length := by
  rw [iterate] at h
  split at h
  · cases h
  · rename_i hne
    have hpos : 0 < m.msg.length := List.length_pos_iff.mpr hne
    cases hf : halfFor half m.msg with
    | none => simp [hf] at h
    | some hq =>
      have hinc : hq.buf.length < hq.fullSize := hq.incomplete
      have hrest : (if min (hq.fullSize - hq.buf.length) m.msg.length < m.msg.length then
          some (m.msg.drop (min (hq.fullSize - hq.buf.length) m.msg.length)) else none) = some rest := by
        simp only [hf] at h
        split at h <;> exact h
      split at hrest
      · rw [← Option.some.inj hrest, List.length_drop]
        omega
      · cases hrest

def digest (half : Option Half) (m : NetSocketMsg) : Option Half × List Handled :=
  match _h : (iterate half m).rest with
  | none => ((iterate half m).half, (iterate half m).handled.toList)
  | some rest =>
    let d := digest (iterate half m).half { m with msg := rest }
    (d.1, (iterate half m).handled.toList ++ d.2)
termination_by m.msg.length
decreasing_by exact iterate_rest_lt _h

theorem digest_none {half : Option Half} {m : NetSocketMsg} (h : (iterate half m).rest = none) :
    digest half m = ((iterate half m).half, (iterate half m).handled.toList) := by
  rw [digest]
  split
  · rfl
  · rename_i rest hr
    rw [h] at hr
    cases hr

theorem digest_some {half : Option Half} {m : NetSocketMsg} {rest : List UInt8}
    (h : (iterate half m).rest = some rest) : digest half m =
      ((digest (iterate half m).half { m with msg := rest }).1,
        (iterate half m).handled.toList ++ (digest (iterate half m).half { m with msg := rest }).2) := by
  conv_lhs => rw [digest]
  split
  · rename_i hr
    rw [h] at hr
    cases hr
  · rename_i rest' hr
    rw [h, Option.some.injEq] at hr
    subst hr
    rfl

namespace VastNet

variable {v : VastNet} {host : UInt64}

def absorb (v : VastNet) (m : NetSocketMsg) : VastNet :=
  (v.setHalf m.fromhost (digest v.halfQueue[m.fromhost]? m).1).applyAll
    ((digest v.halfQueue[m.fromhost]? m).2.map (fun h => (m.fromhost, h)))

def withHalves (v : VastNet) (halfQueue : Std.ExtTreeMap UInt64 Half) : VastNet := { v with halfQueue }

@[simp] theorem halfQueue_withHalves (v : VastNet) (q : Std.ExtTreeMap UInt64 Half) :
    (v.withHalves q).halfQueue = q := rfl

@[simp] theorem withHalves_withHalves (v : VastNet) (q q' : Std.ExtTreeMap UInt64 Half) :
    (v.withHalves q).withHalves q' = v.withHalves q' := rfl

theorem setHalf_eq (v : VastNet) (host : UInt64) (half : Option Half) :
    ∃ q, v.setHalf host half = v.withHalves q ∧
      ∀ k, q[k]? = if k = host then half else v.halfQueue[k]? := by
  cases half with
  | none =>
    refine ⟨v.halfQueue.erase host, rfl, fun k => ?_⟩
    rw [Std.ExtTreeMap.getElem?_erase]
    by_cases hk : host = k
    · simp [hk]
    · simp [hk, Ne.symm hk]
  | some hq =>
    refine ⟨v.halfQueue.insert host hq, rfl, fun k => ?_⟩
    rw [Std.ExtTreeMap.getElem?_insert]
    by_cases hk : host = k
    · simp [hk]
    · simp [hk, Ne.symm hk]

theorem storeVASTMessage_withHalves (v : VastNet) (host : UInt64) (msg : Message)
    (q : Std.ExtTreeMap UInt64 Half) :
    (v.withHalves q).storeVASTMessage host msg = (v.storeVASTMessage host msg).withHalves q := by
  by_cases h : v.active = false
  · have hq : (v.withHalves q).active = false := h
    rw [storeVASTMessage, if_pos hq, storeVASTMessage, if_pos h]
  · have hq : ¬ (v.withHalves q).active = false := h
    rw [storeVASTMessage, if_neg hq, storeVASTMessage, if_neg h]
    rfl

theorem storeSocketMessage_withHalves (v : VastNet) (m : NetSocketMsg) (q : Std.ExtTreeMap UInt64 Half) :
    (v.withHalves q).storeSocketMessage m = (v.storeSocketMessage m).withHalves q := by
  by_cases h : v.active = false
  · have hq : (v.withHalves q).active = false := h
    rw [storeSocketMessage, if_pos hq, storeSocketMessage, if_pos h]
  · have hq : ¬ (v.withHalves q).active = false := h
    rw [storeSocketMessage, if_neg hq, storeSocketMessage, if_neg h]
    rfl

theorem apply_withHalves (v : VastNet) (host : UInt64) (h : Handled) (q : Std.ExtTreeMap UInt64 Half) :
    (v.withHalves q).apply host h = (v.apply host h).withHalves q := by
  cases h with
  | disconnect => exact storeVASTMessage_withHalves v host _ q
  | vast header body =>
    simp only [apply, processVASTMessage]
    split
    · rfl
    · split
      · exact storeVASTMessage_withHalves v host _ q
      · rfl
  | socket m => exact storeSocketMessage_withHalves v m q

theorem applyAll_withHalves (v : VastNet) (outs : List (UInt64 × Handled))
    (q : Std.ExtTreeMap UInt64 Half) :
    (v.withHalves q).applyAll outs = (v.applyAll outs).withHalves q := by
  induction outs generalizing v with
  | nil => rfl
  | cons out outs ih =>
    have hh : (v.withHalves q).applyAll (out :: outs) =
        ((v.withHalves q).apply out.1 out.2).applyAll outs := rfl
    rw [hh, apply_withHalves, ih]
    rfl

theorem applyAll_append (v : VastNet) (outs outs' : List (UInt64 × Handled)) :
    v.applyAll (outs ++ outs') = (v.applyAll outs).applyAll outs' := by
  rw [applyAll, List.foldl_append]
  rfl

@[simp] theorem halfQueue_applyAll (v : VastNet) (outs : List (UInt64 × Handled)) :
    (v.applyAll outs).halfQueue = v.halfQueue := by
  have h := applyAll_withHalves v outs v.halfQueue
  have hv : v.withHalves v.halfQueue = v := rfl
  rw [hv] at h
  rw [h, halfQueue_withHalves]

theorem halfQueue_absorb (v : VastNet) (m : NetSocketMsg) (k : UInt64) :
    (v.absorb m).halfQueue[k]? =
      if k = m.fromhost then (digest v.halfQueue[m.fromhost]? m).1 else v.halfQueue[k]? := by
  obtain ⟨q, hset, hget⟩ := setHalf_eq v m.fromhost (digest v.halfQueue[m.fromhost]? m).1
  rw [absorb, hset, halfQueue_applyAll, halfQueue_withHalves]
  exact hget k

theorem setHalf_applyAll_setHalf (v : VastNet) (host : UInt64) (a b : Option Half)
    (outs : List (UInt64 × Handled)) :
    ((v.setHalf host a).applyAll outs).setHalf host b = (v.setHalf host b).applyAll outs := by
  obtain ⟨A, hA, gA⟩ := setHalf_eq v host a
  obtain ⟨B, hB, gB⟩ := setHalf_eq ((v.setHalf host a).applyAll outs) host b
  obtain ⟨C, hC, gC⟩ := setHalf_eq v host b
  have hBC : B = C := by
    apply Std.ExtTreeMap.ext_getElem?
    intro k
    rw [gB, gC, halfQueue_applyAll, hA, halfQueue_withHalves, gA]
    split <;> rfl
  rw [hB, hC, hBC, hA, applyAll_withHalves, applyAll_withHalves, withHalves_withHalves]

theorem handle_of_none {m : NetSocketMsg} (h : (iterate v.halfQueue[m.fromhost]? m).rest = none) :
    v.handle m = (v.absorb m, none) := by
  rw [handle, absorb, digest_none h, h]
  rfl

theorem handle_of_some {m : NetSocketMsg} {rest : List UInt8}
    (h : (iterate v.halfQueue[m.fromhost]? m).rest = some rest) :
    ∃ w, v.handle m = (w, some { m with msg := rest }) ∧
      w.absorb { m with msg := rest } = v.absorb m := by
  obtain ⟨A, hA, gA⟩ := setHalf_eq v m.fromhost (iterate v.halfQueue[m.fromhost]? m).half
  refine ⟨(v.setHalf m.fromhost (iterate v.halfQueue[m.fromhost]? m).half).applyAll
    ((iterate v.halfQueue[m.fromhost]? m).handled.toList.map (fun h => (m.fromhost, h))),
    by rw [handle, h]; rfl, ?_⟩
  rw [absorb, absorb, digest_some h]
  simp only [halfQueue_applyAll]
  rw [hA, halfQueue_withHalves, gA, if_pos rfl, ← hA, setHalf_applyAll_setHalf, List.map_append,
    applyAll_append]

theorem weight_cons (m : NetSocketMsg) (q : List NetSocketMsg) :
    weight (m :: q) = m.msg.length + 1 + weight q := by
  simp [weight]

theorem processLoop_udp {fuel : Nat} {q : List NetSocketMsg} (hf : weight q < fuel) :
    processLoop netUdp fuel v q = (q.foldl absorb v, []) := by
  induction fuel generalizing v q with
  | zero => omega
  | succ fuel ih =>
    cases q with
    | nil => rfl
    | cons m q =>
      rw [weight_cons] at hf
      have hr : netUdp.receive (m :: q) = some (m, q) := rfl
      cases hrest : (iterate v.halfQueue[m.fromhost]? m).rest with
      | none =>
        simp only [processLoop, hr, handle_of_none hrest]
        exact ih (by omega)
      | some rest =>
        obtain ⟨w, hw, habs⟩ := handle_of_some hrest
        have hlt := iterate_rest_lt hrest
        have hq : netUdp.msgReceived q { m with msg := rest } true = { m with msg := rest } :: q := rfl
        simp only [processLoop, hr, hw, hq]
        rw [ih (by rw [weight_cons]; dsimp only; omega), List.foldl_cons, List.foldl_cons, habs]

theorem process_udp (v : VastNet) (q : List NetSocketMsg) : v.process netUdp q = (q.foldl absorb v, []) :=
  processLoop_udp (Nat.lt_succ_self _)

def keyed (q : List NetSocketMsg) : List (UInt64 × NetSocketMsg) := q.map (fun m => (m.fromhost, m))

def halves (v : VastNet) (host : UInt64) : Option Half := v.halfQueue[host]?

theorem halves_absorb (v : VastNet) (m : NetSocketMsg) :
    (v.absorb m).halves = Function.update v.halves m.fromhost (digest (v.halves m.fromhost) m).1 := by
  funext k
  rw [halves, halfQueue_absorb, Function.update_apply]
  rfl

theorem absorb_eq (v : VastNet) (m : NetSocketMsg) : ∃ q, v.absorb m =
    (v.applyAll ((digest (v.halves m.fromhost) m).2.map (fun h => (m.fromhost, h)))).withHalves q := by
  obtain ⟨q, hq, -⟩ := setHalf_eq v m.fromhost (digest v.halfQueue[m.fromhost]? m).1
  exact ⟨q, by rw [absorb, hq, applyAll_withHalves]; rfl⟩

/-- `process` is the run of one machine for each host, and passes on what these put out. -/
theorem foldl_absorb (v : VastNet) (q : List NetSocketMsg) :
    (q.foldl absorb v).halves = (runKeyed digest v.halves (keyed q)).1 ∧
      ∃ halfQueue, q.foldl absorb v =
        (v.applyAll (runKeyed digest v.halves (keyed q)).2).withHalves halfQueue := by
  induction q generalizing v with
  | nil => exact ⟨rfl, v.halfQueue, rfl⟩
  | cons m q ih =>
    obtain ⟨hhalves, H, hH⟩ := ih (v.absorb m)
    obtain ⟨A, hA⟩ := absorb_eq v m
    rw [halves_absorb] at hhalves hH
    refine ⟨hhalves, H, ?_⟩
    rw [List.foldl_cons, hH, hA, applyAll_withHalves, withHalves_withHalves, ← applyAll_append]
    rfl

end VastNet

def Handled.message? (host : UInt64) : Handled → Option Message
  | .disconnect => some { msgtype := VastNet.disconnectType, fromId := host }
  | .vast header body =>
    let r := ({ msgtype := 0 } : Message).deserialize (LittleEndian.memOf body) header.msgSize.toNat
    if r.ret = 0 then none else if header.type = VASTHeaderType.regular.bits then some r.msg else none
  | .socket _ => none

def Handled.socket? : Handled → Option NetSocketMsg
  | .socket m => some m
  | _ => none

namespace VastNet

def messages (outs : List (UInt64 × Handled)) : List (UInt64 × Message) :=
  outs.filterMap (fun out => (out.2.message? out.1).map (fun msg => (out.1, msg)))

def queued (e : UInt64 × Message) : FullVmsg :=
  ⟨if e.1 = netIdUnassigned then e.2.fromId else e.1, e.2⟩

theorem apply_queues {v : VastNet} (hv : v.active = true) (host : UInt64) (h : Handled) :
    (v.apply host h).active = true ∧
      (v.apply host h).stored = v.stored ++ messages [(host, h)] ∧
      (v.apply host h).fullQueue = (messages [(host, h)]).foldl (fun q e => q.insert (queued e)) v.fullQueue ∧
      (v.apply host h).socketQueue = v.socketQueue ++ h.socket?.toList := by
  have hn : ¬ v.active = false := by simp [hv]
  have hstore (msg : Message) : v.storeVASTMessage host msg =
      { v with
        fullQueue := v.fullQueue.insert (queued (host, msg)), stored := v.stored ++ [(host, msg)] } := by
    rw [storeVASTMessage, if_neg hn]
    rfl
  cases h with
  | disconnect =>
    rw [apply, hstore]
    exact ⟨hv, rfl, rfl, (List.append_nil _).symm⟩
  | vast header body =>
    simp only [apply, processVASTMessage, messages, Handled.message?, List.filterMap_cons,
      List.filterMap_nil]
    split
    · exact ⟨hv, (List.append_nil _).symm, rfl, (List.append_nil _).symm⟩
    · split
      · rw [hstore]
        exact ⟨hv, rfl, rfl, (List.append_nil _).symm⟩
      · exact ⟨hv, (List.append_nil _).symm, rfl, (List.append_nil _).symm⟩
  | socket m =>
    rw [apply, storeSocketMessage, if_neg hn]
    exact ⟨hv, (List.append_nil _).symm, rfl, rfl⟩

theorem messages_cons (out : UInt64 × Handled) (outs : List (UInt64 × Handled)) :
    messages (out :: outs) = messages [out] ++ messages outs :=
  List.filterMap_append (l := [out])

theorem applyAll_queues {v : VastNet} (hv : v.active = true) (outs : List (UInt64 × Handled)) :
    (v.applyAll outs).active = true ∧
      (v.applyAll outs).stored = v.stored ++ messages outs ∧
      (v.applyAll outs).fullQueue = (messages outs).foldl (fun q e => q.insert (queued e)) v.fullQueue ∧
      (v.applyAll outs).socketQueue = v.socketQueue ++ outs.filterMap (fun out => out.2.socket?) := by
  induction outs generalizing v with
  | nil => exact ⟨hv, (List.append_nil _).symm, rfl, (List.append_nil _).symm⟩
  | cons out outs ih =>
    obtain ⟨ha, hs, hf, hq⟩ := apply_queues hv out.1 out.2
    obtain ⟨ha', hs', hf', hq'⟩ := ih ha
    have hstep : v.applyAll (out :: outs) = (v.apply out.1 out.2).applyAll outs := rfl
    rw [hstep, messages_cons]
    refine ⟨ha', ?_, ?_, ?_⟩
    · rw [hs', hs, List.append_assoc]
    · rw [hf', hf, List.foldl_append]
    · rw [hq', hq, List.append_assoc, List.filterMap_cons]
      cases out.2.socket? <;> rfl

def storedBy (v : VastNet) (host : UInt64) : List Message := ofKey host v.stored

theorem ofKey_messages (host : UInt64) (outs : List (UInt64 × Handled)) :
    ofKey host (messages outs) = (ofKey host outs).filterMap (Handled.message? host) := by
  induction outs with
  | nil => rfl
  | cons out outs ih =>
    obtain ⟨k, h⟩ := out
    rw [messages_cons, ofKey_append, ih]
    by_cases hk : k = host
    · subst hk
      rw [ofKey_cons_self, List.filterMap_cons]
      cases hm : h.message? k with
      | none => simp [messages, hm, ofKey]
      | some msg => simp [messages, hm, ofKey]
    · rw [ofKey_cons_ne hk]
      cases hm : h.message? k with
      | none => simp [messages, hm, ofKey]
      | some msg => simp [messages, hm, ofKey, hk]

def parsed (v : VastNet) (host : UInt64) (q : List NetSocketMsg) : List Handled :=
  ofKey host (runKeyed digest v.halves (keyed q)).2

theorem ofKey_keyed (host : UInt64) (q : List NetSocketMsg) :
    ofKey host (keyed q) = q.filter (fun m => m.fromhost = host) := by
  induction q with
  | nil => rfl
  | cons m q ih =>
    by_cases hm : m.fromhost = host
    · simp [keyed, ofKey, hm] at ih ⊢
      exact ih
    · simp [keyed, ofKey, hm] at ih ⊢
      exact ih

theorem parsed_eq (v : VastNet) (host : UInt64) (q : List NetSocketMsg) : v.parsed host q =
    (run digest (v.halves host) (q.filter (fun m => m.fromhost = host))).2 := by
  rw [parsed, (runKeyed_ofKey v.halves (keyed q) host).2, ofKey_keyed]

theorem halves_process (v : VastNet) (q : List NetSocketMsg) (host : UInt64) :
    (v.process netUdp q).1.halves host =
      (run digest (v.halves host) (q.filter (fun m => m.fromhost = host))).1 := by
  rw [process_udp, (foldl_absorb v q).1, (runKeyed_ofKey v.halves (keyed q) host).1, ofKey_keyed]

theorem process_queues {v : VastNet} (hv : v.active = true) (q : List NetSocketMsg) :
    (v.process netUdp q).1.active = true ∧
      (v.process netUdp q).1.stored = v.stored ++ messages (runKeyed digest v.halves (keyed q)).2 ∧
      (v.process netUdp q).1.fullQueue = (messages (runKeyed digest v.halves (keyed q)).2).foldl
        (fun f e => f.insert (queued e)) v.fullQueue ∧
      (v.process netUdp q).1.socketQueue = v.socketQueue ++
        (runKeyed digest v.halves (keyed q)).2.filterMap (fun out => out.2.socket?) := by
  obtain ⟨-, halfQueue, heq⟩ := foldl_absorb v q
  rw [process_udp, heq]
  exact applyAll_queues hv _

def processAll (v : VastNet) (batches : List (List NetSocketMsg)) : VastNet :=
  batches.foldl (fun v q => (v.process netUdp q).1) v

theorem processAll_eq (v : VastNet) (batches : List (List NetSocketMsg)) :
    v.processAll batches = (v.process netUdp batches.flatten).1 := by
  induction batches generalizing v with
  | nil => rfl
  | cons q batches ih =>
    have hstep : v.processAll (q :: batches) = (v.process netUdp q).1.processAll batches := rfl
    rw [hstep, ih]
    simp only [process_udp, List.flatten_cons, List.foldl_append]

end VastNet

section Disconnect

theorem digest_disconnect (half : Option Half) (host : UInt64) (now : Nat) :
    digest half ⟨host, now, []⟩ = (half, [.disconnect]) := digest_none rfl

theorem digest_byte_none (host : UInt64) (now : Nat) (b : UInt8) :
    digest none ⟨host, now, [b]⟩ = (none, [.socket ⟨host, now, [b]⟩]) := digest_none rfl

theorem socket_notMem_digest_byte (hq : Half) (host : UInt64) (now : Nat) (b : UInt8) :
    ∀ m, .socket m ∉ (digest (some hq) ⟨host, now, [b]⟩).2 := by
  intro m hm
  have hpos : ¬ min (hq.fullSize - hq.buf.length) [b].length < [b].length := by
    have hinc : hq.buf.length < hq.fullSize := hq.incomplete
    rw [List.length_singleton]
    omega
  have hrest : (iterate (some hq) ⟨host, now, [b]⟩).rest = none := by
    simp only [iterate, halfFor, hpos, if_false, List.cons_ne_self]
    split <;> rfl
  rw [digest_none hrest] at hm
  simp only [iterate, halfFor, List.cons_ne_self, if_false] at hm
  split at hm
  · cases hm
  · simp at hm

end Disconnect

namespace VastNet

theorem parsed_eq_iff_halves (v w : VastNet) (host : UInt64) (hw : w.halves host = none) :
    (∀ post, v.parsed host post = w.parsed host post) ↔ v.halves host = none := by
  constructor
  · intro h
    cases hv : v.halves host with
    | none => rfl
    | some hq =>
      -- one byte that starts no frame tells the two apart
      have hb := h [⟨host, 0, [0]⟩]
      simp only [parsed_eq, hv, hw, List.filter_cons, decide_true, if_true, List.filter_nil, run,
        digest_byte_none, List.append_nil] at hb
      have hs := socket_notMem_digest_byte hq host 0 0 ⟨host, 0, [0]⟩
      rw [hb] at hs
      exact absurd (List.mem_singleton.mpr rfl) hs
  · intro hv post
    rw [parsed_eq, parsed_eq, hv, hw]

theorem halves_processAll (v : VastNet) (batches : List (List NetSocketMsg)) (host : UInt64) :
    (v.processAll batches).halves host =
      (run digest (v.halves host) (batches.flatten.filter (fun m => m.fromhost = host))).1 := by
  rw [processAll_eq, halves_process]

theorem halves_processAll_disconnect (v : VastNet) (batches : List (List NetSocketMsg)) (host : UInt64)
    (now : Nat) : (v.processAll (batches ++ [[⟨host, now, []⟩]])).halves host =
      (v.processAll batches).halves host := by
  rw [halves_processAll, halves_processAll, List.flatten_append, List.filter_append, run_append]
  simp only [List.flatten_cons, List.flatten_nil, List.append_nil, List.filter_cons, decide_true,
    if_true, List.filter_nil, run, digest_disconnect]

theorem halves_processAll_others (v : VastNet) (batches : List (List NetSocketMsg)) (host : UInt64) :
    (v.processAll (batches.map (fun q => q.filter (fun m => m.fromhost ≠ host)))).halves host =
      v.halves host := by
  have hnil : (batches.map (fun q => q.filter (fun m => m.fromhost ≠ host))).flatten.filter
      (fun m => m.fromhost = host) = [] := by
    refine List.filter_eq_nil_iff.mpr (fun m hm => ?_)
    obtain ⟨q, hq, hmq⟩ := List.mem_flatten.mp hm
    obtain ⟨q', -, rfl⟩ := List.mem_map.mp hq
    simpa using (List.mem_filter.mp hmq).2
  rw [halves_processAll, hnil]
  rfl

/-- The bytes behind a disconnect notification are parsed as if the host had never sent
anything, whatever they are, exactly when the notification comes between two frames. -/
theorem disconnect_resets_iff (pre : List (List NetSocketMsg)) (host : UInt64) (now : Nat) :
    (∀ post, (processAll {} (pre ++ [[⟨host, now, []⟩]])).parsed host post =
      (processAll {} (pre.map (fun q => q.filter (fun m => m.fromhost ≠ host)))).parsed host post) ↔
      (processAll {} pre).halfQueue[host]? = none := by
  have hnew : (processAll {} (pre.map (fun q => q.filter (fun m => m.fromhost ≠ host)))).halves host =
      none := by
    rw [halves_processAll_others, halves, Std.ExtTreeMap.getElem?_empty]
  rw [parsed_eq_iff_halves _ _ host hnew, halves_processAll_disconnect]
  rfl

def cutFrame : NetSocketMsg := ⟨5, 1, (VASTHeader.build .regular 100).toBytes ++ [7]⟩

def greeting : Message := { msgtype := 7, fromId := 5, data := [1, 0, 2] }

def wholeFrame : NetSocketMsg :=
  ⟨5, 3, (VASTHeader.build .regular greeting.serialize.length).toBytes ++ greeting.serialize⟩

theorem disconnect_keeps_half_frame :
    (processAll {} ([[cutFrame]] ++ [[⟨5, 2, []⟩]])).parsed 5 [wholeFrame] = [] ∧
      (processAll {} ([[cutFrame]].map (fun q => q.filter (fun m => m.fromhost ≠ 5)))).parsed 5
        [wholeFrame] = [.vast (VASTHeader.build .regular greeting.serialize.length) greeting.serialize] := by
  have hempty : halves {} 5 = none := Std.ExtTreeMap.getElem?_empty
  have hcut : (processAll {} [[cutFrame]]).halves 5 =
      some ⟨VASTHeader.build .regular 100, cutFrame.msg, by decide⟩ := by
    rw [halves_processAll, hempty]
    exact congrArg Prod.fst (digest_none rfl)
  constructor
  · rw [parsed_eq, halves_processAll_disconnect, hcut]
    exact (List.append_nil _).trans (congrArg Prod.snd (digest_none rfl))
  · rw [parsed_eq, halves_processAll_others, hempty]
    exact (List.append_nil _).trans (congrArg Prod.snd (digest_none rfl))

end VastNet

end VastNC
