import VastNC.AddressBook
import VastNC.Reassembly
import VastNC.Splitter
import VastNC.Lib.HandLock

/-! `net_udp`: the table of connections and `_conn_mutex`, which five functions that call one
another lock by hand. -/

namespace VastNC

open LittleEndian HandLock HandLock.Locking

/-- A null stream is 0. -/
structure ConnectInfo where
  stream : UInt64 := 0
  lasttime : Nat := 0

structure NetUdp where
  active : Bool := false
  id : UInt64 := netIdUnassigned
  udphandler : UInt64
  isOpen : Bool := false
  id2conn : Std.ExtTreeMap UInt64 ConnectInfo := ∅
  recvQueue : List NetSocketMsg := []
  book : AddressBook := {}

namespace NetUdp

def isConnected (n : NetUdp) (target : UInt64) : Bool := n.id2conn.contains target

def store (n : NetUdp) (id stream : UInt64) (now : Nat) : NetUdp :=
  if n.isConnected id then n else { n with id2conn := n.id2conn.insert id ⟨stream, now⟩ }

def enqueue (n : NetUdp) (m : NetSocketMsg) (inFront : Bool) : NetUdp :=
  { n with recvQueue := netUdp.msgReceived n.recvQueue m inFront }

def touch (n : NetUdp) (id : UInt64) (recvtime : Nat) : NetUdp :=
  let later (info : ConnectInfo) := if recvtime > info.lasttime then { info with lasttime := recvtime } else info
  { n with id2conn := n.id2conn.modify id later }

section Code

variable (now : Nat)

def socketConnected (id stream : UInt64) : Locking NetUdp Fault Bool := do
  if id = netIdUnassigned then return false
  lock
  let n ← get
  modify (fun n => n.store id stream now)
  unlock
  return !n.isConnected id

/-- A null `message` is `none`. -/
def msgReceived (fromhost : UInt64) (message : Option (List UInt8)) (recvtime : Nat := 0)
    (inFront : Bool := false) : Locking NetUdp Fault Bool := do
  let recvtime := if recvtime = 0 then now else recvtime
  modify (fun n => n.enqueue ⟨fromhost, recvtime, message.getD []⟩ inFront)
  lock
  let n ← get
  modify (fun n => n.touch fromhost recvtime)
  -- a host never heard of before becomes a new connection
  if n.isConnected fromhost = false ∧ message.isSome ∧ fromhost ≠ netIdUnassigned then
    let _ ← socketConnected now fromhost n.udphandler
  unlock
  return true

def socketDisconnected (id : UInt64) : Locking NetUdp Fault Bool := do
  let n ← get
  if n.active = false then return false
  lock
  modify (fun n => { n with id2conn := n.id2conn.erase id })
  unlock
  if n.isConnected id then
    let _ ← msgReceived now id none now
  return n.isConnected id

def disconnect (target : UInt64) : Locking NetUdp Fault Bool := do
  lock
  let n ← get
  let handler := (n.id2conn[target]?.getD {}).stream
  if handler = 0 then return false
  unlock
  let _ ← socketDisconnected now target
  return true

def connect (target : UInt64) (host : UInt32) (port : UInt16) : Locking NetUdp Fault Bool := do
  let n ← get
  if n.active = false then return false
  if target = n.id ∨ n.isConnected target then return false
  if n.isOpen = false then
    throw (.logicError "net_udp::connect Trying to connect, but _udphandler is not open yet")
  modify (fun n => { n with book := n.book.storeRemoteAddress target ⟨host, port, 0⟩ })
  let _ ← socketConnected now target n.udphandler
  return true

def handleEvent (s : Splitter) : SplitEvent → Locking NetUdp Fault Unit
  | .access _ => pure ()
  | .storeRemoteAddress id addr =>
    modify (fun n => { n with book := n.book.storeRemoteAddress id addr })
  | .socketConnected id => do
    let n ← get
    let _ ← socketConnected now id n.udphandler
  | .msgReceived fromhost off len => do
    let _ ← msgReceived now fromhost (some (window s.buf off len))

/-- `net_udp_handler::process_input`. The loop takes at most one turn for each byte of a
datagram that holds its frames. -/
def processInput (s : Splitter) (bytesTransferred : UInt64) : Locking NetUdp Fault Unit :=
  forAll (handleEvent now s) ((s.loop (bytesTransferred.toNat + 1) bytesTransferred 0).getD [])

end Code

section Specs

variable {n : NetUdp} (now : Nat)

theorem isConnected_store (n : NetUdp) (id stream k : UInt64) (now : Nat) :
    (n.store id stream now).isConnected k = (n.isConnected k || k == id) := by
  rw [store]
  by_cases h : n.isConnected id = true
  · rw [if_pos h]
    by_cases hk : k = id
    · simp [hk, h]
    · simp [hk]
  · rw [if_neg h]
    simp only [isConnected, Std.ExtTreeMap.contains_insert]
    grind

theorem isConnected_enqueue (n : NetUdp) (m : NetSocketMsg) (inFront : Bool) (k : UInt64) :
    (n.enqueue m inFront).isConnected k = n.isConnected k := rfl

theorem isConnected_touch (n : NetUdp) (id k : UInt64) (recvtime : Nat) :
    (n.touch id recvtime).isConnected k = n.isConnected k := by
  simp only [touch, isConnected, Std.ExtTreeMap.contains_modify]

theorem socketConnected_free (n : NetUdp) (id stream : UInt64) : ∃ stored n',
    (socketConnected now id stream).run ⟨n, false⟩ = (.ok stored, ⟨n', false⟩) ∧
      (id ≠ netIdUnassigned → n'.isConnected id = true) ∧
      ∀ k, n.isConnected k = true → n'.isConnected k = true := by
  rw [socketConnected]
  by_cases h : id = netIdUnassigned
  · exact ⟨false, n, by simp [h], fun hn => absurd h hn, fun k hk => hk⟩
  · refine ⟨!n.isConnected id, n.store id stream now, by simp [h], fun _ => ?_, fun k hk => ?_⟩
    · rw [isConnected_store]
      simp
    · rw [isConnected_store, hk, Bool.true_or]

theorem socketConnected_held {id : UInt64} (h : id ≠ netIdUnassigned) (stream : UInt64) :
    (socketConnected now id stream).run ⟨n, true⟩ = (.error .relocked, ⟨n, true⟩) := by
  simp [socketConnected, h]

/-- The hosts whose messages make no new connection. -/
def Settled (n : NetUdp) (fromhost : UInt64) : Prop :=
  n.isConnected fromhost = true ∨ fromhost = netIdUnassigned

theorem msgReceived_returns {fromhost : UInt64} (message : Option (List UInt8)) (recvtime : Nat)
    (inFront : Bool) (h : n.Settled fromhost ∨ message = none) : ∃ n',
    (msgReceived now fromhost message recvtime inFront).run ⟨n, false⟩ = (.ok true, ⟨n', false⟩) ∧
      ∀ k, n'.isConnected k = n.isConnected k := by
  have hno : ¬ (n.isConnected fromhost = false ∧ message.isSome ∧ fromhost ≠ netIdUnassigned) := by
    rintro ⟨hc, hm, hf⟩
    rcases h with (h | h) | h
    · rw [h] at hc
      cases hc
    · exact hf h
    · rw [h] at hm
      cases hm
  refine ⟨_, by simp [msgReceived, isConnected_enqueue, hno]; rfl, fun k => ?_⟩
  rw [isConnected_touch, isConnected_enqueue]

theorem msgReceived_relocks {fromhost : UInt64} (message : Option (List UInt8)) (recvtime : Nat)
    (inFront : Bool) (h : ¬ (n.Settled fromhost ∨ message = none)) : ∃ g,
    (msgReceived now fromhost message recvtime inFront).run ⟨n, false⟩ = (.error .relocked, g) := by
  obtain ⟨hs, hm⟩ := not_or.mp h
  obtain ⟨hc, hf⟩ := not_or.mp hs
  have hyes (m : NetSocketMsg) : (n.enqueue m inFront).isConnected fromhost = false ∧
      message.isSome ∧ fromhost ≠ netIdUnassigned :=
    ⟨Bool.eq_false_iff.mpr hc, Option.isSome_iff_ne_none.mpr hm, hf⟩
  simp only [msgReceived, run_modify_bind, run_lock_bind, run_get_bind]
  rw [if_pos (hyes _)]
  exact ⟨_, run_bind_error (socketConnected_held now hf _)⟩

theorem socketDisconnected_returns (n : NetUdp) (id : UInt64) : ∃ success n',
    (socketDisconnected now id).run ⟨n, false⟩ = (.ok success, ⟨n', false⟩) := by
  by_cases ha : n.active = false
  · exact ⟨false, n, by simp [socketDisconnected, ha]⟩
  by_cases hc : n.isConnected id = true
  · have hsettled : Settled { n with id2conn := n.id2conn.erase id } id ∨
        (none : Option (List UInt8)) = none := .inr rfl
    obtain ⟨n', hr, -⟩ := msgReceived_returns now none now false hsettled
    refine ⟨true, n', ?_⟩
    simp only [socketDisconnected, run_get_bind, if_neg ha, run_lock_bind, run_modify_bind,
      run_unlock_bind, if_pos hc]
    rw [run_bind_ok hr, hc, run_pure]
  · exact ⟨n.isConnected id, _, by simp [socketDisconnected, ha, hc]; rfl⟩

section ProcessInput

variable {s : Splitter}

/-- The hosts that a datagram names: its sender is connected before its frames are received,
where the sender's address is known. -/
def Accepts (s : Splitter) (n : NetUdp) : Prop := s.unicast = true ∨ n.Settled s.tempId

theorem forAll_accesses (p : Nat) (l : List Access) (g : Guarded NetUdp) :
    (forAll (handleEvent now s) (l.map (SplitEvent.shift p))).run g = (.ok (), g) := by
  induction l with
  | nil => rfl
  | cons a l ih =>
    have ha : (handleEvent now s (SplitEvent.shift p a)).run g = (.ok (), g) := by cases a <;> rfl
    rw [List.map_cons, forAll_cons_ok ha, ih]

theorem handle_msgReceived (h : n.Settled s.tempId) (off len : Nat) : ∃ n',
    (handleEvent now s (.msgReceived s.tempId off len)).run ⟨n, false⟩ = (.ok (), ⟨n', false⟩) ∧
      n'.Settled s.tempId := by
  obtain ⟨n', hr, hk⟩ := msgReceived_returns now (some (window s.buf off len)) 0 false (.inl h)
  refine ⟨n', by rw [handleEvent, run_bind_ok hr, run_pure], ?_⟩
  rwa [Settled, hk]

theorem handle_connect (hu : s.unicast = true) (n : NetUdp) : ∃ n',
    (forAll (handleEvent now s) [.storeRemoteAddress s.tempId s.remoteAddr,
      .socketConnected s.tempId]).run ⟨n, false⟩ = (.ok (), ⟨n', false⟩) ∧ n'.Settled s.tempId := by
  obtain ⟨stored, n', hr, hc, -⟩ := socketConnected_free now
    { n with book := n.book.storeRemoteAddress s.tempId s.remoteAddr } s.tempId n.udphandler
  have hid : s.tempId ≠ netIdUnassigned := by
    rw [Splitter.tempId, if_pos hu]
    exact AddressBook.resolveHostID_ne_zero _
  refine ⟨n', ?_, .inl (hc hid)⟩
  rw [forAll_cons_ok rfl, forAll_cons_ok (by rw [handleEvent, run_get_bind, run_bind_ok hr, run_pure])]
  rfl

theorem handle_sender (h : Accepts s n) : ∃ n', (forAll (handleEvent now s) (if s.unicast then
      [.storeRemoteAddress s.tempId s.remoteAddr, .socketConnected s.tempId] else [])).run ⟨n, false⟩ =
        (.ok (), ⟨n', false⟩) ∧ n'.Settled s.tempId := by
  by_cases hu : s.unicast = true
  · rw [if_pos hu]
    exact handle_connect now hu n
  · rw [if_neg hu]
    exact ⟨n, rfl, h.resolve_left hu⟩

theorem frame_returns (h : Accepts s n) (p : Nat) (k : UInt64) (size : Nat) : ∃ n',
    (forAll (handleEvent now s) (s.frameEvents p k size)).run ⟨n, false⟩ = (.ok (), ⟨n', false⟩) ∧
      Accepts s n' := by
  obtain ⟨n₁, h₁, hs₁⟩ := handle_sender now h
  obtain ⟨n₂, h₂, hs₂⟩ := handle_msgReceived now hs₁ (p - sizeofVASTHeader)
    (size + sizeofVASTHeader)
  refine ⟨n₂, ?_, .inr hs₂⟩
  rw [Splitter.frameEvents, List.append_assoc, forAll_append_ok (forAll_accesses now _ _ _),
    forAll_append_ok h₁, forAll_cons_ok h₂]
  rfl

theorem frame_relocks (h : ¬ Accepts s n) (p : Nat) (k : UInt64) (size : Nat) : ∃ g,
    (forAll (handleEvent now s) (s.frameEvents p k size)).run ⟨n, false⟩ = (.error .relocked, g) := by
  obtain ⟨hu, hs⟩ := not_or.mp h
  obtain ⟨g, hr⟩ := msgReceived_relocks now (some (window s.buf (p - sizeofVASTHeader) (size + sizeofVASTHeader)))
    0 false (not_or.mpr ⟨hs, Option.some_ne_none _⟩)
  have he : (handleEvent now s (.msgReceived s.tempId (p - sizeofVASTHeader)
      (size + sizeofVASTHeader))).run ⟨n, false⟩ = (.error .relocked, g) := by
    rw [handleEvent, run_bind_error hr]
  refine ⟨g, ?_⟩
  rw [Splitter.frameEvents, if_neg hu, List.append_nil, forAll_append_ok (forAll_accesses now _ _ _),
    forAll, run_bind_error he]

theorem events_return {p k : Nat} (hw : WellFramed s.buf p k) {fuel : Nat} (hf : k < fuel) {b : UInt64}
    (hb : b.toNat = k) : ∃ events, s.loop fuel b p = some events ∧ ∀ n, Accepts s n → ∃ n',
      (forAll (handleEvent now s) events).run ⟨n, false⟩ = (.ok (), ⟨n', false⟩) := by
  induction hw generalizing fuel b with
  | short hk =>
    obtain ⟨fuel, rfl⟩ := Nat.exists_eq_succ_of_ne_zero (Nat.ne_of_gt (Nat.zero_lt_of_lt hf))
    exact ⟨[], Splitter.loop_short (by omega), fun n _ => ⟨n, rfl⟩⟩
  | foreign hk hv =>
    obtain ⟨fuel, rfl⟩ := Nat.exists_eq_succ_of_ne_zero (Nat.ne_of_gt (Nat.zero_lt_of_lt hf))
    exact ⟨_, Splitter.loop_foreign (by omega) hv, fun n _ => ⟨n, rfl⟩⟩
  | @frame p k hv _ ih =>
    obtain ⟨fuel, rfl⟩ := Nat.exists_eq_succ_of_ne_zero (Nat.ne_of_gt (Nat.zero_lt_of_lt hf))
    by_cases h4 : 4 < b.toNat
    · have hr : (b - 4 - UInt64.ofNat (vastHeaderAt s.buf p).msgSize.toNat).toNat =
          b.toNat - 4 - (vastHeaderAt s.buf p).msgSize.toNat := Splitter.toNat_rest h4 (by omega)
      obtain ⟨rest, hl, hrest⟩ := @ih fuel (by omega)
        (b - 4 - UInt64.ofNat (vastHeaderAt s.buf p).msgSize.toNat) (by omega)
      refine ⟨.access (.read p 4) :: s.frameEvents (p + 4) (b - 4)
        (vastHeaderAt s.buf p).msgSize.toNat ++ rest, by rw [Splitter.loop_frame h4 hv, hl]; rfl,
        fun n ha => ?_⟩
      obtain ⟨n', hframe, ha'⟩ := frame_returns now ha (p + 4) (b - 4)
        (vastHeaderAt s.buf p).msgSize.toNat
      obtain ⟨n'', hn''⟩ := hrest n' ha'
      refine ⟨n'', ?_⟩
      rw [List.cons_append, forAll_cons_ok rfl, forAll_append_ok hframe, hn'']
    · exact ⟨[], Splitter.loop_short (by omega), fun n _ => ⟨n, rfl⟩⟩

def HoldsFrame (s : Splitter) (bytesTransferred : UInt64) : Prop :=
  4 < bytesTransferred.toNat ∧ (vastHeaderAt s.buf 0).isVASTHeader = true

theorem processInput_returns {b : UInt64} (hw : WellFramed s.buf 0 b.toNat) (h : Accepts s n) : ∃ n',
    (processInput now s b).run ⟨n, false⟩ = (.ok (), ⟨n', false⟩) := by
  obtain ⟨events, hl, hr⟩ := events_return now hw (Nat.lt_succ_self _) rfl
  obtain ⟨n', hn'⟩ := hr n h
  exact ⟨n', by rw [processInput, hl, Option.getD_some, hn']⟩

theorem processInput_no_frame {b : UInt64} (h : ¬ HoldsFrame s b) :
    (processInput now s b).run ⟨n, false⟩ = (.ok (), ⟨n, false⟩) := by
  by_cases h4 : 4 < b.toNat
  · have hv : (vastHeaderAt s.buf 0).isVASTHeader = false := by
      rw [← Bool.not_eq_true]
      exact fun hv => h ⟨h4, hv⟩
    rw [processInput, Splitter.loop_foreign h4 hv]
    rfl
  · rw [processInput, Splitter.loop_short (by omega)]
    rfl

theorem processInput_relocks {b : UInt64} (hw : WellFramed s.buf 0 b.toNat) (hf : HoldsFrame s b)
    (h : ¬ Accepts s n) : ∃ g, (processInput now s b).run ⟨n, false⟩ = (.error .relocked, g) := by
  obtain ⟨events, hl, -⟩ := events_return now hw (Nat.lt_succ_self _) rfl
  obtain ⟨g, hg⟩ := frame_relocks now h (0 + 4) (b - 4) (vastHeaderAt s.buf 0).msgSize.toNat
  rw [processInput, hl, Option.getD_some]
  rw [Splitter.loop_frame hf.1 hf.2, Option.map_eq_some_iff] at hl
  obtain ⟨rest, -, rfl⟩ := hl
  exact ⟨g, by rw [List.cons_append, forAll_cons_ok rfl, forAll_append_error hg]⟩

end ProcessInput

end Specs

/-- `net_udp::start`. -/
def start (now : Nat) (selfHostId : UInt64) : Locking NetUdp Fault Unit := do
  modify (fun n => { n with active := true, id := netIdUnassigned, isOpen := true })
  let n ← get
  let _ ← socketConnected now selfHostId n.udphandler

inductive Call where
  | connect (target : UInt64) (host : UInt32) (port : UInt16)
  | disconnect (target : UInt64)
  | msgReceived (fromhost : UInt64) (message : Option (List UInt8)) (recvtime : Nat) (inFront : Bool)
  | socketConnected (id stream : UInt64)
  | socketDisconnected (id : UInt64)
  | processInput (s : Splitter) (bytesTransferred : UInt64)

namespace Call

def perform (now : Nat) : Call → Locking NetUdp Fault Unit
  | .connect target host port => do let _ ← NetUdp.connect now target host port
  | .disconnect target => do let _ ← NetUdp.disconnect now target
  | .msgReceived fromhost message recvtime inFront => do
    let _ ← NetUdp.msgReceived now fromhost message recvtime inFront
  | .socketConnected id stream => do let _ ← NetUdp.socketConnected now id stream
  | .socketDisconnected id => do let _ ← NetUdp.socketDisconnected now id
  | .processInput s bytesTransferred => NetUdp.processInput now s bytesTransferred

def WellFormed : Call → Prop
  | .processInput s bytesTransferred => WellFramed s.buf 0 bytesTransferred.toNat
  | _ => True

/-- What keeps a call off the two paths that go wrong: the early return of `disconnect`, which
skips the unlock, and the new connection of `msg_received`, which locks again. -/
def Safe (n : NetUdp) : Call → Prop
  | .disconnect target => ∃ info, n.id2conn[target]? = some info ∧ info.stream ≠ 0
  | .msgReceived fromhost message _ _ => n.Settled fromhost ∨ message = none
  | .processInput s bytesTransferred =>
    s.unicast = true ∨ n.Settled s.fromhost ∨ ¬ HoldsFrame s bytesTransferred
  | _ => True

end Call

section Discipline

variable {n : NetUdp} {now : Nat}

theorem disconnect_disciplined_iff (target : UInt64) : Disciplined (disconnect now target) n ↔
    ∃ info, n.id2conn[target]? = some info ∧ info.stream ≠ 0 := by
  by_cases hs : (n.id2conn[target]?.getD {}).stream = 0
  · have hrun : (disconnect now target).run ⟨n, false⟩ = (.ok false, ⟨n, true⟩) := by
      simp [disconnect, hs]
    refine iff_of_false (not_disciplined_of_held hrun) ?_
    rintro ⟨info, hi, hn⟩
    rw [hi, Option.getD_some] at hs
    exact hn hs
  · obtain ⟨success, n', hd⟩ := socketDisconnected_returns now n target
    have hrun : (disconnect now target).run ⟨n, false⟩ = (.ok true, ⟨n', false⟩) := by
      simp only [disconnect, run_lock_bind, run_get_bind, if_neg hs, run_unlock_bind]
      rw [run_bind_ok hd, run_pure]
    refine iff_of_true (disciplined_of_returns hrun) ?_
    cases hi : n.id2conn[target]? with
    | none =>
      rw [hi, Option.getD_none] at hs
      exact absurd rfl hs
    | some info =>
      rw [hi, Option.getD_some] at hs
      exact ⟨info, rfl, hs⟩

theorem connect_disciplined (target : UInt64) (host : UInt32) (port : UInt16) :
    Disciplined (connect now target host port) n := by
  by_cases ha : n.active = false
  · have hret : (connect now target host port).run ⟨n, false⟩ = (.ok false, ⟨n, false⟩) := by
      simp [connect, ha]
    exact disciplined_of_returns hret
  by_cases hc : target = n.id ∨ n.isConnected target
  · have hret : (connect now target host port).run ⟨n, false⟩ = (.ok false, ⟨n, false⟩) := by
      simp [connect, ha, hc]
    exact disciplined_of_returns hret
  by_cases ho : n.isOpen = false
  · have hr : ∃ e, (connect now target host port).run ⟨n, false⟩ = (.error (.thrown e), ⟨n, false⟩) :=
      ⟨_, by simp [connect, ha, hc, ho]; rfl⟩
    obtain ⟨e, hr⟩ := hr
    exact disciplined_of_throws hr
  · obtain ⟨stored, n', hs, -, -⟩ := socketConnected_free now
      { n with book := n.book.storeRemoteAddress target ⟨host, port, 0⟩ } target n.udphandler
    have hr : (connect now target host port).run ⟨n, false⟩ = (.ok true, ⟨n', false⟩) := by
      simp only [connect, run_get_bind, if_neg ha, if_neg hc, if_neg ho, run_modify_bind]
      rw [run_bind_ok hs, run_pure]
    exact disciplined_of_returns hr

theorem msgReceived_disciplined_iff (fromhost : UInt64) (message : Option (List UInt8)) (recvtime : Nat)
    (inFront : Bool) : Disciplined (msgReceived now fromhost message recvtime inFront) n ↔
      n.Settled fromhost ∨ message = none := by
  by_cases h : n.Settled fromhost ∨ message = none
  · obtain ⟨n', hr, -⟩ := msgReceived_returns now message recvtime inFront h
    exact iff_of_true (disciplined_of_returns hr) h
  · obtain ⟨g, hr⟩ := msgReceived_relocks now message recvtime inFront h
    exact iff_of_false (not_disciplined_of_relocked hr) h

theorem processInput_disciplined_iff {s : Splitter} {b : UInt64} (hw : WellFramed s.buf 0 b.toNat) :
    Disciplined (processInput now s b) n ↔
      s.unicast = true ∨ n.Settled s.fromhost ∨ ¬ HoldsFrame s b := by
  by_cases hf : HoldsFrame s b
  · have ha : Accepts s n ↔ s.unicast = true ∨ n.Settled s.fromhost := by
      by_cases hu : s.unicast = true
      · simp [Accepts, hu]
      · simp [Accepts, Splitter.tempId, hu]
    rw [← or_assoc, ← ha, or_iff_left (not_not.mpr hf)]
    by_cases h : Accepts s n
    · obtain ⟨n', hr⟩ := processInput_returns now hw h
      exact iff_of_true (disciplined_of_returns hr) h
    · obtain ⟨g, hr⟩ := processInput_relocks now hw hf h
      exact iff_of_false (not_disciplined_of_relocked hr) h
  · exact iff_of_true (disciplined_of_returns (processInput_no_frame now hf)) (.inr (.inr hf))

/-- A call that starts with the mutex free keeps the lock discipline exactly when it takes
neither of the two paths that miss an unlock or lock twice. -/
theorem perform_disciplined_iff (n : NetUdp) (now : Nat) (c : Call) (hw : c.WellFormed) :
    Disciplined (c.perform now) n ↔ c.Safe n := by
  cases c with
  | connect target host port =>
    exact iff_of_true ((disciplined_discard _ n).mpr (connect_disciplined target host port)) trivial
  | disconnect target => exact (disciplined_discard _ n).trans (disconnect_disciplined_iff target)
  | msgReceived fromhost message recvtime inFront =>
    exact (disciplined_discard _ n).trans (msgReceived_disciplined_iff fromhost message recvtime inFront)
  | socketConnected id stream =>
    obtain ⟨stored, n', hr, -, -⟩ := socketConnected_free now n id stream
    exact iff_of_true ((disciplined_discard _ n).mpr (disciplined_of_returns hr)) trivial
  | socketDisconnected id =>
    obtain ⟨success, n', hr⟩ := socketDisconnected_returns now n id
    exact iff_of_true ((disciplined_discard _ n).mpr (disciplined_of_returns hr)) trivial
  | processInput s b => exact processInput_disciplined_iff hw

end Discipline

inductive Reachable : NetUdp → Prop
  | start {n : NetUdp} {now : Nat} {udphandler selfHostId : UInt64} : udphandler ≠ 0 →
    (start now selfHostId).run ⟨{ udphandler }, false⟩ = (.ok (), ⟨n, false⟩) → Reachable n
  | call {n n' : NetUdp} {now : Nat} {c : Call} {r : Except (Stop Fault) Unit} : Reachable n →
    c.WellFormed → (c.perform now).run ⟨n, false⟩ = (r, ⟨n', false⟩) → Reachable n'

def started : NetUdp where
  active := true
  isOpen := true
  udphandler := 1
  id2conn := (∅ : Std.ExtTreeMap UInt64 ConnectInfo).insert 5 ⟨1, 40⟩

def greetingDatagram : Splitter :=
  ⟨memOf ((VASTHeader.build .regular 1).toBytes ++ [7]), ⟨0x0A000001, 1037, 0⟩, 5⟩

theorem greetingDatagram_disciplined : WellFramed greetingDatagram.buf 0 5 ∧
    HoldsFrame greetingDatagram 5 ∧
    Disciplined ((Call.processInput greetingDatagram 5).perform 50) started := by
  have hv : (vastHeaderAt greetingDatagram.buf 0).isVASTHeader = true := by decide
  have hw : WellFramed greetingDatagram.buf 0 5 := WellFramed.frame hv (.short (Nat.zero_le 4))
  exact ⟨hw, ⟨by decide, hv⟩, (perform_disciplined_iff started 50 (.processInput greetingDatagram 5) hw).mpr
    (.inl (by decide))⟩

/-- On a node that has just started: `disconnect` of a host that is not in the table returns
with the mutex locked, and a message of such a host locks it twice. -/
theorem unknown_host_breaks_discipline : Reachable started ∧
    ¬ Disciplined ((Call.disconnect 7).perform 50) started ∧
    ¬ Disciplined ((Call.msgReceived 7 (some [0]) 0 false).perform 50) started := by
  have hc : started.isConnected 7 = false := by decide
  refine ⟨@Reachable.start _ 40 1 5 (by decide) rfl, ?_, ?_⟩
  · rw [Call.perform, disciplined_discard, disconnect_disciplined_iff]
    rintro ⟨info, hi, -⟩
    have hn : started.id2conn[(7 : UInt64)]? = none := by decide
    rw [hn] at hi
    cases hi
  · rw [Call.perform, disciplined_discard, msgReceived_disciplined_iff]
    rintro ((h | h) | h)
    · rw [hc] at h
      cases h
    · exact absurd h (by decide)
    · cases h

end NetUdp

end VastNC
