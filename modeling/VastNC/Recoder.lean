import VastNC.Kodo

/-! `UDPNCrecoder`: the packet pool of the coding host, and the choice and combination of
two of its packets. -/

namespace VastNC

abbrev PacketPool := Std.ExtTreeMap UInt64 UDPNCMessage

/-- `packetsEncoded` also numbers the payloads, see `Kodo.writePayload`. -/
structure Recoder where
  packetPool : PacketPool := ∅
  headerFactory : UDPNCHeaderFactory
  packetsEncoded : Nat := 0

namespace Recoder

/-- The loop at the end of `addUDPNCMessage`. -/
def checkKeys : List (UInt64 × UDPNCMessage) → Except Fault Unit
  | [] => .ok ()
  | (key, m) :: rest => do
    let pktId ← front m.pktIds
    if key ≠ pktId then .error (.logicError "Packet ids and keys do not match")
    else checkKeys rest

def addUDPNCMessage (r : Recoder) (msg : UDPNCMessage) : Except Fault Recoder := do
  let fromId ← msg.getFirstFromId
  if fromId = netIdUnassigned then .ok r
  else
    let pool ← if msg.pktIds.length = 1 ∧ msg.sizeOf < maxPacketSize then do
        let pktId ← front msg.pktIds
        pure (r.packetPool.insert pktId msg)
      else pure r.packetPool
    checkKeys pool.toList
    .ok { r with packetPool := pool }

/-- The reverse scan for a packet of another host; the first argument is `message2` as the
loop left it so far. -/
def scanBack (fromId : UInt64) (message2 : UDPNCMessage) :
    List (UInt64 × UDPNCMessage) → Except Fault UDPNCMessage
  | [] => .ok message2
  | (_, m) :: rest => do
    let fromId2 ← message2.getFirstFromId
    if fromId = fromId2 then scanBack fromId m rest else .ok message2

def pick (pool : PacketPool) : Except Fault (Option (UDPNCMessage × UDPNCMessage)) :=
  match pool.toList.head?, pool.toList.getLast? with
  | some (_, message1), some (_, last) => do
    let fromId1 ← message1.getFirstFromId
    let message2 ← scanBack fromId1 last pool.toList.reverse
    let fromId2 ← message2.getFirstFromId
    if fromId1 = fromId2 then .ok none else .ok (some (message1, message2))
  | _, _ => .error (.undefined "begin of an empty map")

/-- `packet_pool.erase (packet_pool.find (pktId))`. -/
def eraseFound (pool : PacketPool) (pktId : UInt64) : Except Fault PacketPool :=
  if pktId ∈ pool then .ok (pool.erase pktId) else .error (.undefined "erase of the end of a map")

def putFirst (message m : UDPNCMessage) : Except Fault UDPNCMessage := do
  let pktId ← front m.pktIds
  let fromId ← front m.fromIds
  let addr ← front m.toAddrs
  .ok (message.putIdsAddr pktId fromId addr true)

def produceUDPNCMessage (K : Kodo) (r : Recoder) : Except Fault (Option UDPNCMessage × Recoder) :=
  if r.packetPool.size < 2 then .ok (none, r)
  else do
    match ← pick r.packetPool with
    | none => .ok (none, r)
    | some (message1, message2) =>
      let data1 ← message1.symbol
      let data2 ← message2.symbol
      let built := r.headerFactory.build
      let message ← putFirst (.new built.1) message1
      let message ← putFirst message message2
      let checksum1 ← checksumRange data1 message1.sizeOf
      let checksum2 ← checksumRange data2 message2.sizeOf
      let message := message.setChecksum (checksum1 + checksum2)
      let message := message.putMessage (K.writePayload r.packetsEncoded data1 data2)
      let pktId1 ← front message1.pktIds
      let pool ← eraseFound r.packetPool pktId1
      let pktId2 ← front message2.pktIds
      let pool ← eraseFound pool pktId2
      .ok (some message,
        { packetPool := pool, headerFactory := built.2, packetsEncoded := r.packetsEncoded + 1 })

end Recoder

structure UDPNCMessage.Uncoded (m : UDPNCMessage) (pktId fromId : UInt64) (addr : IPaddr) : Prop where
  count : m.header.encPacketCount.toNat = 1
  pktIds : m.pktIds = [pktId]
  fromIds : m.fromIds = [fromId]
  toAddrs : m.toAddrs = [addr]

structure PoolEntry (key : UInt64) (m : UDPNCMessage) : Prop where
  uncoded : ∃ fromId addr, m.Uncoded key fromId addr ∧ fromId ≠ netIdUnassigned
  packetsize : 0 < m.getMessageSize
  sizeOf : m.sizeOf < maxPacketSize

namespace UDPNCMessage

variable {m : UDPNCMessage} {pktId fromId : UInt64} {addr : IPaddr}

theorem Uncoded.sizeOf (h : m.Uncoded pktId fromId addr) : m.sizeOf = 36 + m.getMessageSize := by
  simp only [UDPNCMessage.sizeOf, h.count, sizeofHeader, getMessageSize]
  omega

theorem Uncoded.sized (h : m.Uncoded pktId fromId addr) (hp : m.getMessageSize = m.msg.length) :
    m.Sized 1 where
  count := h.count
  pktIds := by simp [h.pktIds]
  fromIds := by simp [h.fromIds]
  toAddrs := by simp [h.toAddrs]
  packetsize := hp

theorem Uncoded.getFirstFromId (h : m.Uncoded pktId fromId addr) :
    m.getFirstFromId = .ok fromId := by
  rw [UDPNCMessage.getFirstFromId, h.fromIds, front_cons]

/-- Also a message cut short is written inside the size that `sizeOf` gives. -/
theorem Uncoded.serialize (h : m.Uncoded pktId fromId addr) :
    ∃ w, m.serialize = .ok (w, m.sizeOf) ∧ w.length ≤ m.sizeOf := by
  have hs := h.sizeOf
  have he : m.serializeEntry 0 = .ok (entryBytes pktId fromId addr) := by
    simp [serializeEntry, h.pktIds, h.fromIds, h.toAddrs]
  have hes : m.serializeEntries m.header.encPacketCount.toNat =
      .ok ([] ++ entryBytes pktId fromId addr) := by
    rw [h.count, serializeEntries, serializeEntries, he]
    rfl
  have hn : sizeofHeader + 4 + m.header.encPacketCount.toNat * (8 + 8 + 8) + m.getMessageSize =
      m.sizeOf := by rw [hs, h.count, sizeofHeader]
  refine ⟨m.header.toBytes ++ LittleEndian.toLE 4 m.checksum.toNat ++
    ([] ++ entryBytes pktId fromId addr) ++ m.msg.take m.getMessageSize, ?_, ?_⟩
  · simp only [UDPNCMessage.serialize, h.pktIds, h.fromIds, h.toAddrs, List.length_singleton,
      and_self, if_true, hes, hn]
    rfl
  · simp only [List.length_append, UDPNCHeader.length_toBytes, LittleEndian.length_toLE,
      length_entryBytes, List.length_take, List.length_nil, hs]
    omega

theorem Uncoded.symbol (h : m.Uncoded pktId fromId addr) (hz : m.sizeOf < maxPacketSize) :
    ∃ w s, m.serialize = .ok (w, m.sizeOf) ∧ w.length < maxPacketSize ∧ m.symbol = .ok s ∧
      s = zeroPad maxPacketSize w ∧ s.length = maxPacketSize := by
  obtain ⟨w, hw, hl⟩ := h.serialize
  have hle : w.length ≤ maxPacketSize := by omega
  refine ⟨w, zeroPad maxPacketSize w, hw, by omega, ?_, rfl, length_zeroPad hle⟩
  rw [UDPNCMessage.symbol, hw]
  exact if_pos hle

theorem Uncoded.unique {pktId' fromId' : UInt64} {addr' : IPaddr} (h : m.Uncoded pktId fromId addr)
    (h' : m.Uncoded pktId' fromId' addr') : pktId' = pktId ∧ fromId' = fromId ∧ addr' = addr := by
  have hp := h'.pktIds
  have hf := h'.fromIds
  have ha := h'.toAddrs
  rw [h.pktIds, List.cons.injEq] at hp
  rw [h.fromIds, List.cons.injEq] at hf
  rw [h.toAddrs, List.cons.injEq] at ha
  exact ⟨hp.1.symm, hf.1.symm, ha.1.symm⟩

end UDPNCMessage

def PoolEntries (pool : PacketPool) : Prop :=
  ∀ (key : UInt64) (m : UDPNCMessage), pool[key]? = some m → PoolEntry key m

def OneHost (pool : PacketPool) : Prop :=
  ∃ fromId, ∀ (key : UInt64) (m : UDPNCMessage), pool[key]? = some m → m.fromIds = [fromId]

/-- `c` is the coded message of `p` and `q`, in this order, with payload number `k`. -/
structure Combines (K : Kodo) (k : Nat) (p q c : UDPNCMessage) : Prop where
  pktIds : c.pktIds = p.pktIds ++ q.pktIds
  fromIds : c.fromIds = p.fromIds ++ q.fromIds
  toAddrs : c.toAddrs = p.toAddrs ++ q.toAddrs
  header : c.header.isUDPNCHeader = true
  count : c.header.encPacketCount.toNat = 2
  packetsize : c.header.packetsize = BitVec.ofNat 24 c.msg.length
  symbols : ∃ s t, p.symbol = .ok s ∧ q.symbol = .ok t ∧ c.msg = K.writePayload k s t ∧
    c.checksum = generateChecksum (s.take p.sizeOf) + generateChecksum (t.take q.sizeOf)

theorem PoolEntry.pktIds {key : UInt64} {m : UDPNCMessage} (h : PoolEntry key m) :
    m.pktIds = [key] := by
  obtain ⟨fromId, addr, hu, -⟩ := h.uncoded
  exact hu.pktIds

namespace Recoder

theorem mem_toList {pool : PacketPool} {e : UInt64 × UDPNCMessage} :
    e ∈ pool.toList ↔ pool[e.1]? = some e.2 := Std.ExtTreeMap.mem_toList_iff_getElem?_eq_some

theorem checkKeys_ok {l : List (UInt64 × UDPNCMessage)} (h : ∀ e ∈ l, e.2.pktIds = [e.1]) :
    checkKeys l = .ok () := by
  induction l with
  | nil => rfl
  | cons e l ih =>
    obtain ⟨key, m⟩ := e
    have hm : m.pktIds = [key] := h (key, m) List.mem_cons_self
    have hl := ih (fun e he => h e (List.mem_cons_of_mem _ he))
    rw [checkKeys, hm, front_cons]
    change (if key ≠ key then _ else checkKeys l) = _
    rw [if_neg (by simp), hl]

theorem addUDPNCMessage_eq {r : Recoder} {m : UDPNCMessage} {pktId fromId : UInt64} {addr : IPaddr}
    (hp : PoolEntries r.packetPool) (hu : m.Uncoded pktId fromId addr)
    (hf : fromId ≠ netIdUnassigned) :
    r.addUDPNCMessage m = .ok { r with packetPool :=
      if m.sizeOf < maxPacketSize then r.packetPool.insert pktId m else r.packetPool } := by
  by_cases hz : m.sizeOf < maxPacketSize
  · have hk : checkKeys (r.packetPool.insert pktId m).toList = .ok () := by
      apply checkKeys_ok
      intro e he
      rw [mem_toList, Std.ExtTreeMap.getElem?_insert] at he
      by_cases hc : compare pktId e.1 = .eq
      · rw [if_pos hc, Option.some.injEq] at he
        rw [← he, hu.pktIds, Std.LawfulEqCmp.eq_of_compare hc]
      · rw [if_neg hc] at he
        exact (hp _ _ he).pktIds
    simp only [addUDPNCMessage, hu.getFirstFromId, hu.pktIds, hz, List.length_singleton, front_cons,
      and_self, if_true, bind, Except.bind, pure, Except.pure, hk, hf, if_false]
  · have hk : checkKeys r.packetPool.toList = .ok () := by
      apply checkKeys_ok
      intro e he
      exact (hp _ _ (mem_toList.mp he)).pktIds
    simp only [addUDPNCMessage, hu.getFirstFromId, hz, and_false, if_false, bind, Except.bind, pure,
      Except.pure, hk, hf]

theorem scanBack_spec (fromId : UInt64) {l : List (UInt64 × UDPNCMessage)} {m : UDPNCMessage}
    (hm : ∃ f, m.fromIds = [f]) (hl : ∀ e ∈ l, ∃ f, e.2.fromIds = [f]) :
    ∃ m', scanBack fromId m l = .ok m' ∧ (m' = m ∨ ∃ key, (key, m') ∈ l) ∧
      (m'.fromIds = [fromId] → m.fromIds = [fromId] ∧ ∀ e ∈ l, e.2.fromIds = [fromId]) := by
  induction l generalizing m with
  | nil => exact ⟨m, rfl, .inl rfl, fun h => ⟨h, by simp⟩⟩
  | cons e l ih =>
    obtain ⟨key, n⟩ := e
    obtain ⟨f, hf⟩ := hm
    have hg : m.getFirstFromId = .ok f := by rw [UDPNCMessage.getFirstFromId, hf, front_cons]
    by_cases hff : fromId = f
    · obtain ⟨m', hs, hin, hall⟩ := ih (hl (key, n) List.mem_cons_self)
        (fun e he => hl e (List.mem_cons_of_mem _ he))
      refine ⟨m', ?_, .inr ?_, fun h => ?_⟩
      · simp only [scanBack, hg, hff, if_true, bind, Except.bind]
        rw [← hff, hs]
      · rcases hin with rfl | ⟨key', hk⟩
        · exact ⟨key, List.mem_cons_self⟩
        · exact ⟨key', List.mem_cons_of_mem _ hk⟩
      · obtain ⟨hn, hr⟩ := hall h
        exact ⟨by rw [hf, hff], List.forall_mem_cons.mpr ⟨hn, hr⟩⟩
    · refine ⟨m, ?_, .inl rfl, fun h => ?_⟩
      · simp only [scanBack, hg, hff, if_false, bind, Except.bind]
      · rw [hf, List.cons.injEq] at h
        exact absurd h.1.symm hff

theorem pick_spec {pool : PacketPool} (hp : PoolEntries pool) (hs : 2 ≤ pool.size) :
    (pick pool = .ok none ∧ OneHost pool) ∨
    ∃ (key1 key2 : UInt64) (p q : UDPNCMessage), pick pool = .ok (some (p, q)) ∧ pool[key1]? = some p ∧
      pool[key2]? = some q ∧ p.fromIds ≠ q.fromIds := by
  have hone : ∀ e ∈ pool.toList, ∃ f, e.2.fromIds = [f] := by
    intro e he
    obtain ⟨f, a, hu, -⟩ := (hp _ _ (mem_toList.mp he)).uncoded
    exact ⟨f, hu.fromIds⟩
  have hlen : 2 ≤ pool.toList.length := by rwa [Std.ExtTreeMap.length_toList]
  have hne : pool.toList ≠ [] := by
    intro h
    simp [h] at hlen
  obtain ⟨⟨key1, p⟩, hhead⟩ := Option.ne_none_iff_exists'.mp (mt List.head?_eq_none_iff.mp hne)
  obtain ⟨⟨key2, last⟩, hlast⟩ := Option.ne_none_iff_exists'.mp (mt List.getLast?_eq_none_iff.mp hne)
  have hmem1 : (key1, p) ∈ pool.toList := List.mem_of_mem_head? hhead
  have hmem2 : (key2, last) ∈ pool.toList := List.mem_of_mem_getLast? hlast
  obtain ⟨f, hf⟩ := hone _ hmem1
  obtain ⟨q, hscan, hin, hall⟩ := scanBack_spec f (hone _ hmem2)
    (fun e he => hone e (List.mem_reverse.mp he))
  have hq : ∃ key, (key, q) ∈ pool.toList := by
    rcases hin with rfl | ⟨key, hk⟩
    · exact ⟨key2, hmem2⟩
    · exact ⟨key, List.mem_reverse.mp hk⟩
  obtain ⟨keyq, hmemq⟩ := hq
  obtain ⟨g, hg⟩ := hone _ hmemq
  have hfp : p.getFirstFromId = .ok f := by rw [UDPNCMessage.getFirstFromId, hf, front_cons]
  have hfq : q.getFirstFromId = .ok g := by rw [UDPNCMessage.getFirstFromId, hg, front_cons]
  by_cases hfg : f = g
  · refine .inl ⟨?_, f, fun key m hm => ?_⟩
    · simp only [pick, hhead, hlast, hfp, hscan, hfq, bind, Except.bind]
      rw [if_pos hfg]
    · exact (hall (by rw [hg, hfg])).2 (key, m) (List.mem_reverse.mpr (mem_toList.mpr hm))
  · refine .inr ⟨key1, keyq, p, q, ?_, mem_toList.mp hmem1, mem_toList.mp hmemq, ?_⟩
    · simp only [pick, hhead, hlast, hfp, hscan, hfq, hfg, if_false, bind, Except.bind]
    · rw [hf, hg]
      simpa using hfg

theorem oneHost_of_size_lt {pool : PacketPool} (hp : PoolEntries pool) (hs : pool.size < 2) :
    OneHost pool := by
  rw [← Std.ExtTreeMap.length_toList] at hs
  match hl : pool.toList with
  | [] =>
    refine ⟨0, fun key m hm => ?_⟩
    have hmem : (key, m) ∈ pool.toList := mem_toList.mpr hm
    simp [hl] at hmem
  | [(key', m')] =>
    have hmem' : (key', m') ∈ pool.toList := by rw [hl]; exact List.mem_singleton_self _
    obtain ⟨f, a, hu, -⟩ := (hp _ _ (mem_toList.mp hmem')).uncoded
    refine ⟨f, fun key m hm => ?_⟩
    have hmem : (key, m) ∈ pool.toList := mem_toList.mpr hm
    rw [hl, List.mem_singleton, Prod.mk.injEq] at hmem
    rw [hmem.2]
    exact hu.fromIds
  | _ :: _ :: _ =>
    simp only [hl, List.length_cons] at hs
    omega

theorem produceUDPNCMessage_pick (K : Kodo) {r : Recoder} (hs : 2 ≤ r.packetPool.size)
    {key1 key2 f1 f2 : UInt64} {a1 a2 : IPaddr} {p q : UDPNCMessage}
    (hpick : pick r.packetPool = .ok (some (p, q))) (hu1 : p.Uncoded key1 f1 a1)
    (hu2 : q.Uncoded key2 f2 a2) (hz1 : p.sizeOf < maxPacketSize) (hz2 : q.sizeOf < maxPacketSize)
    (h1 : r.packetPool[key1]? = some p) (h2 : r.packetPool[key2]? = some q) (hkey : key1 ≠ key2) :
    ∃ c, Combines K r.packetsEncoded p q c ∧
      produceUDPNCMessage K r = .ok (some c,
        { packetPool := (r.packetPool.erase key1).erase key2
          headerFactory := r.headerFactory.build.2
          packetsEncoded := r.packetsEncoded + 1 }) := by
  have hs' : ¬ r.packetPool.size < 2 := by omega
  obtain ⟨-, s, -, -, hsym1, -, hl1⟩ := hu1.symbol hz1
  obtain ⟨-, t, -, -, hsym2, -, hl2⟩ := hu2.symbol hz2
  have hput1 : putFirst (.new r.headerFactory.build.1) p =
      .ok ((UDPNCMessage.new r.headerFactory.build.1).putIdsAddr key1 f1 a1 true) := by
    rw [putFirst, hu1.pktIds, hu1.fromIds, hu1.toAddrs]
    rfl
  have hput2 (m : UDPNCMessage) : putFirst m q = .ok (m.putIdsAddr key2 f2 a2 true) := by
    rw [putFirst, hu2.pktIds, hu2.fromIds, hu2.toAddrs]
    rfl
  have hc1 : checksumRange s p.sizeOf = .ok (generateChecksum (s.take p.sizeOf)) :=
    if_pos (by rw [hl1]; exact hz1.le)
  have hc2 : checksumRange t q.sizeOf = .ok (generateChecksum (t.take q.sizeOf)) :=
    if_pos (by rw [hl2]; exact hz2.le)
  have he1 : eraseFound r.packetPool key1 = .ok (r.packetPool.erase key1) :=
    if_pos (Std.ExtTreeMap.mem_iff_isSome_getElem?.mpr (by simp [h1]))
  have he2 : eraseFound (r.packetPool.erase key1) key2 =
      .ok ((r.packetPool.erase key1).erase key2) := by
    apply if_pos
    rw [Std.ExtTreeMap.mem_iff_isSome_getElem?, Std.ExtTreeMap.getElem?_erase,
      if_neg (by simpa using hkey), h2]
    rfl
  let c := ((((UDPNCMessage.new r.headerFactory.build.1).putIdsAddr key1 f1 a1 true).putIdsAddr
    key2 f2 a2 true).setChecksum (generateChecksum (s.take p.sizeOf) +
      generateChecksum (t.take q.sizeOf))).putMessage (K.writePayload r.packetsEncoded s t)
  refine ⟨c, ?_, ?_⟩
  · exact {
      pktIds := by rw [hu1.pktIds, hu2.pktIds]; rfl
      fromIds := by rw [hu1.fromIds, hu2.fromIds]; rfl
      toAddrs := by rw [hu1.toAddrs, hu2.toAddrs]; rfl
      header := rfl
      count := rfl
      packetsize := rfl
      symbols := ⟨s, t, hsym1, hsym2, rfl, rfl⟩ }
  · simp only [produceUDPNCMessage, hs', if_false, hpick, hsym1, hsym2, hput1, hput2, hc1, hc2,
      hu1.pktIds, hu2.pktIds, front_cons, he1, he2, bind, Except.bind, c]

theorem produceUDPNCMessage_spec (K : Kodo) {r : Recoder} (hp : PoolEntries r.packetPool) :
    (produceUDPNCMessage K r = .ok (none, r) ∧ OneHost r.packetPool) ∨
    ∃ (key1 key2 : UInt64) (p q c : UDPNCMessage), pick r.packetPool = .ok (some (p, q)) ∧
      r.packetPool[key1]? = some p ∧ r.packetPool[key2]? = some q ∧ p.fromIds ≠ q.fromIds ∧
      Combines K r.packetsEncoded p q c ∧
      produceUDPNCMessage K r = .ok (some c,
        { packetPool := (r.packetPool.erase key1).erase key2
          headerFactory := r.headerFactory.build.2
          packetsEncoded := r.packetsEncoded + 1 }) := by
  by_cases hs : r.packetPool.size < 2
  · exact .inl ⟨by rw [produceUDPNCMessage, if_pos hs], oneHost_of_size_lt hp hs⟩
  rcases pick_spec hp (by omega) with ⟨hpick, hone⟩ | ⟨key1, key2, p, q, hpick, h1, h2, hne⟩
  · refine .inl ⟨?_, hone⟩
    simp only [produceUDPNCMessage, hs, if_false, hpick, bind, Except.bind]
  have hp1 := hp _ _ h1
  have hp2 := hp _ _ h2
  obtain ⟨f1, a1, hu1, -⟩ := hp1.uncoded
  obtain ⟨f2, a2, hu2, -⟩ := hp2.uncoded
  have hkey : key1 ≠ key2 := by
    rintro rfl
    rw [h1, Option.some.injEq] at h2
    exact hne (by rw [h2])
  obtain ⟨c, hc, hprod⟩ :=
    produceUDPNCMessage_pick K (by omega) hpick hu1 hu2 hp1.sizeOf hp2.sizeOf h1 h2 hkey
  exact .inr ⟨key1, key2, p, q, c, hpick, h1, h2, hne, hc, hprod⟩

end Recoder

end VastNC
