import VastNC.BufferDiscipline
import VastNC.HostIds

/-! Whatever the network loses, repeats or reorders, no two hosts get the same id. -/

namespace VastNC

open Std (ExtTreeMap)

namespace VASTFrame

theorem at_restored {f : VASTFrame} (hdata : f.msg.data.length < 2 ^ 32)
    (htargets : f.msg.targets.length ≤ 255) : f.restored.msg.At [] f.msg.data := by
  have hold := Message.Holds.of_memOf f.msg
  obtain ⟨-, hann⟩ := hold.announced_eq hdata htargets
  obtain ⟨-, hr, -⟩ := Message.deserialize_accepted { msgtype := 0 } hann.le
  have hsame := hold.deserialize_contentEquals hdata htargets { msgtype := 0 }
  rw [restored]
  generalize Message.deserialize _ _ _ = r at hr hsame
  exact ⟨(Message.contentEquals_iff.mp hsame).2.2.2.2.2.1, hr.curr⟩

end VASTFrame

theorem Message.At.extractId {m : Message} {id : UInt64} {pre post : List UInt8}
    (h : m.At pre (FixedCodec.u64.encode id ++ post)) (item : UInt64) :
    (m.extractId item false).dest = id ∧
      (m.extractId item false).msg.At (pre ++ FixedCodec.u64.encode id) post := by
  have hlen : (FixedCodec.u64.encode id).length = 8 := FixedCodec.u64.length_encode id
  have hne : FixedCodec.u64.encode id ≠ [] := by
    intro hnil
    simp [hnil] at hlen
  obtain ⟨m', hext, hat⟩ := h.extractBytes hne (FixedCodec.u64.encode item)
  have hdrop : (FixedCodec.u64.encode item).drop (FixedCodec.u64.encode id).length = [] := by
    rw [List.drop_eq_nil_iff, hlen]
    exact (FixedCodec.u64.length_encode item).le
  rw [hdrop, List.append_nil] at hext
  rw [Message.extractId, Message.extractValue, ← FixedCodec.u64.length_encode id, hext]
  exact ⟨FixedCodec.u64.decode_encode id, hat⟩

theorem Message.targets_put {m : Message} (h : m.alloc = true) (item : List UInt8) :
    (m.put item).targets = m.targets := by
  obtain ⟨free, capacity, hp⟩ := Message.put_eq h item
  rw [hp]

namespace HostNet

theorem selfAddr_storeMapping (n : HostNet) (addr : Addr) : (n.storeMapping addr).selfAddr = n.selfAddr := by
  rw [storeMapping]
  split <;> rfl

theorem at_idRequest (selfAddr : Addr) (fromId : UInt64) :
    (VASTFrame.mk .idRequest { idRequest selfAddr with fromId }).restored.msg.At []
      (FixedCodec.u64.encode selfAddr.hostId ++ IPaddr.codec.encode selfAddr.publicIP) := by
  have halloc : (({ msgtype := 0, priority := 0 } : Message).putAs FixedCodec.u64 selfAddr.hostId).alloc =
      true := Message.alloc_put rfl _
  have hdata : (idRequest selfAddr).data =
      FixedCodec.u64.encode selfAddr.hostId ++ IPaddr.codec.encode selfAddr.publicIP :=
    Message.put_put rfl _ _
  have htargets : (idRequest selfAddr).targets = [] := by
    rw [idRequest, Message.putAs, Message.targets_put halloc, Message.putAs, Message.targets_put rfl]
  have hlen : (idRequest selfAddr).data.length = 16 := by
    rw [hdata, List.length_append, FixedCodec.length_encode, FixedCodec.length_encode]
    rfl
  rw [← hdata]
  refine VASTFrame.at_restored (f := ⟨.idRequest, { idRequest selfAddr with fromId }⟩) ?_ ?_
  · dsimp only
    omega
  · simp [htargets]

theorem at_idAnswer (msg : Message) (id : UInt64) (isPublic : Bool) (fromId : UInt64) :
    (VASTFrame.mk .idAssign { idAnswer msg id isPublic with fromId }).restored.msg.At []
      (FixedCodec.u64.encode id ++ [if isPublic then 1 else 0]) := by
  have halloc : ({ msg.clear 0 with priority := 0 }.putAs FixedCodec.u64 id).alloc = true :=
    Message.alloc_put rfl _
  have hdata : (idAnswer msg id isPublic).data =
      FixedCodec.u64.encode id ++ [if isPublic then 1 else 0] := Message.put_put rfl _ _
  have htargets : (idAnswer msg id isPublic).targets = [] := by
    rw [idAnswer, Message.targets_put halloc, Message.putAs, Message.targets_put rfl]
    rfl
  have hlen : (idAnswer msg id isPublic).data.length = 9 := by
    rw [hdata, List.length_append, FixedCodec.length_encode]
    rfl
  rw [← hdata]
  refine VASTFrame.at_restored (f := ⟨.idAssign, { idAnswer msg id isPublic with fromId }⟩) ?_ ?_
  · dsimp only
    omega
  · simp [htargets]

section Id

variable (n : HostNet) (id : UInt64)

@[simp] theorem id_socketConnected : (n.socketConnected id).id = n.id := by
  rw [socketConnected]
  split <;> rfl

@[simp] theorem id_connect (host : UInt32) (port : UInt16) : (n.connect id host port).1.id = n.id := by
  rw [connect]
  split
  · rfl
  · exact id_socketConnected _ id

@[simp] theorem id_disconnect : (n.disconnect id).id = n.id := by
  rw [disconnect]
  split <;> rfl

@[simp] theorem id_switchID (newID : UInt64) : (n.switchID id newID).1.id = n.id := by
  rw [switchID]
  split <;> rfl

@[simp] theorem id_storeMapping (addr : Addr) : (n.storeMapping addr).id = n.id := by
  rw [storeMapping]
  split <;> rfl

@[simp] theorem id_storeVASTMessage (msg : Message) : (n.storeVASTMessage id msg).id = n.id := by
  rw [storeVASTMessage]
  split <;> rfl

@[simp] theorem id_sendHandshake : (n.sendHandshake id).id = n.id := by
  rw [sendHandshake]
  split <;> rfl

@[simp] theorem id_validateConnection : (n.validateConnection id).1.id = n.id := by
  rw [validateConnection]
  split
  · rfl
  · split
    · rfl
    · dsimp only
      split <;> simp

@[simp] theorem id_sendMessage (msg : Message) (reliable : Bool) (type : VASTHeaderType) :
    (n.sendMessage id msg reliable type).id = n.id := by
  rw [sendMessage]
  split
  · rfl
  · dsimp only
    split
    · simp
    · split
      · simp
      · exact id_validateConnection n id

variable {n}

theorem registerHostID_eq (h : n.id ≠ 0) (isPublic : Bool) : n.registerHostID id isPublic = n := by
  rw [registerHostID]
  exact if_pos h

theorem id_processVASTMessage (h : n.id ≠ 0) (junk : UInt64) (f : VASTFrame) :
    (n.processVASTMessage junk id f).id = n.id := by
  rw [processVASTMessage]
  split
  · rfl
  · split
    · dsimp only
      split <;> simp
    · rw [processIDAssignment]
      split
      · rfl
      · dsimp only
        rw [registerHostID_eq _ h]
    · dsimp only
      split <;> simp
    · simp

theorem id_call (h : n.id ≠ 0) (c : HostCall) : (n.call c).id = n.id := by
  cases c with
  | isJoined now pick => rw [call, isJoined, if_pos (.inr h)]
  | storeMapping addr => simp [call]
  | connect target host port => simp [call]
  | disconnect target => simp [call]
  | sendMessage target o reliable => simp [call]
  | process junk =>
    rw [call, process]
    split
    · rfl
    · simp
    · rename_i remoteId f rest _
      have hrest : { n with received := rest }.id ≠ 0 := h
      exact id_processVASTMessage remoteId hrest junk f

variable (n)

@[simp] theorem id_processInput (source : IPaddr) (f : VASTFrame) : (processInput source n f).id = n.id := by
  rw [processInput]
  split <;> simp [msgReceived, storeRemoteAddress]

@[simp] theorem id_handleInput (source : IPaddr) (frames : List VASTFrame) :
    (n.handleInput source frames).id = n.id := by
  rw [handleInput]
  induction frames generalizing n with
  | nil => rfl
  | cons f frames ih => rw [List.foldl_cons, ih, id_processInput]

end Id

/-- What a host is answered that has found the address `self` for itself and asks from `actual`. -/
theorem processIDRequest_spec {msg : Message} {declared : UInt64} {self : IPaddr}
    (h : msg.At [] (FixedCodec.u64.encode declared ++ IPaddr.codec.encode self)) (actual : IPaddr)
    (junk : UInt64) :
    (processIDRequest msg actual junk).1 =
        (if actual.host = self.host then declared else resolveHostID actual) ∧
      ((processIDRequest msg actual junk).1 ≠ 0 → ∃ m, (processIDRequest msg actual junk).2 =
        idAnswer m (processIDRequest msg actual junk).1 (actual.host == self.host)) := by
  obtain ⟨hid, hat⟩ := h.extractId junk
  rw [← List.append_nil (IPaddr.codec.encode self)] at hat
  obtain ⟨m, hext, -⟩ := hat.extractRecord ⟨0, 0, 0⟩
  rw [processIDRequest, hext, hid]
  simp only [beq_iff_eq]
  generalize (if actual.host = self.host then declared else resolveHostID actual) = id
  by_cases h0 : id = netIdUnassigned
  · rw [if_pos h0]
    exact ⟨rfl, fun hne => absurd h0 hne⟩
  · rw [if_neg h0]
    exact ⟨rfl, fun _ => ⟨m, rfl⟩⟩

end HostNet

namespace AddressBook

variable {b : AddressBook} {id other : UInt64} {addr : IPaddr}

theorem getElem?_storeRemoteAddress (b : AddressBook) (id : UInt64) (addr : IPaddr) (other : UInt64) :
    ∃ a : IPaddr, (b.storeRemoteAddress id addr).remoteAddrs[other]? =
        (if id = other then some a else b.remoteAddrs[other]?) ∧
      (a.key = addr.key ∧ (b.remoteAddrs[id]?.getD ⟨0, 0, 0⟩).key = addr.key ∨
        id = 0 ∨ a.key = (addrFromId id).key) := by
  rw [storeRemoteAddress]
  by_cases he : (b.remoteAddrs[id]?.getD ⟨0, 0, 0⟩).equals addr = true
  · refine ⟨b.remoteAddrs[id]?.getD ⟨0, 0, 0⟩, ?_, .inl ⟨IPaddr.equals_iff.mp he, IPaddr.equals_iff.mp he⟩⟩
    simp only [he, if_true, ExtTreeMap.getElem?_insert, Std.LawfulEqCmp.compare_eq_iff_eq]
  · simp only [if_neg he, insert_insert, ExtTreeMap.getElem?_insert, Std.LawfulEqCmp.compare_eq_iff_eq]
    refine ⟨_, rfl, .inr ?_⟩
    by_cases hid : id = 0
    · exact .inl hid
    · right
      by_cases hf : (addrFromId id).equals addr = true
      · rw [if_neg (by simp [hf])]
        exact (IPaddr.equals_iff.mp hf).symm
      · rw [if_pos ⟨hid, by simpa using hf⟩]

/-- An id other than 0 is stored with the address made from it, or with none. -/
def Derived (b : AddressBook) : Prop :=
  ∀ (id : UInt64) (a : IPaddr), id ≠ 0 → b.remoteAddrs[id]? = some a →
    a.key = (0, 0) ∨ a.key = (addrFromId id).key

def Located (b : AddressBook) (id : UInt64) : Prop :=
  ∃ a : IPaddr, b.remoteAddrs[id]? = some a ∧ a.key = (addrFromId id).key

theorem Derived.store (h : b.Derived) (id : UInt64) (addr : IPaddr) :
    (b.storeRemoteAddress id addr).Derived := by
  intro other x hother hx
  obtain ⟨a, hget, ha⟩ := getElem?_storeRemoteAddress b id addr other
  rw [hget] at hx
  split at hx
  · rename_i heq
    subst heq
    cases Option.some.inj hx
    rcases ha with ⟨hkey, hold⟩ | h0 | hkey
    · rw [hkey, ← hold]
      cases hb : b.remoteAddrs[id]? with
      | none => exact .inl rfl
      | some y => exact h id y hother hb
    · exact absurd h0 hother
    · exact .inr hkey
  · exact h other x hother hx

theorem Located.store (h : b.Located other) (hother : other ≠ 0) (id : UInt64) (addr : IPaddr) :
    (b.storeRemoteAddress id addr).Located other := by
  obtain ⟨y, hy, hkey⟩ := h
  obtain ⟨a, hget, ha⟩ := getElem?_storeRemoteAddress b id addr other
  by_cases heq : id = other
  · subst heq
    rw [if_pos rfl] at hget
    refine ⟨a, hget, ?_⟩
    rcases ha with ⟨hka, hold⟩ | h0 | hka
    · rw [hka, ← hold, hy, Option.getD_some, hkey]
    · exact absurd h0 hother
    · exact hka
  · rw [if_neg heq] at hget
    exact ⟨y, hget.trans hy, hkey⟩

theorem Derived.located (h : b.Derived) {a : IPaddr} (ha : a.host ≠ 0) :
    (b.storeRemoteAddress (resolveHostID a) a).Located (resolveHostID a) := by
  obtain ⟨x, hget, hx⟩ := getElem?_storeRemoteAddress b (resolveHostID a) a (resolveHostID a)
  rw [if_pos rfl] at hget
  refine ⟨x, hget, ?_⟩
  rcases h.store (resolveHostID a) a _ x (resolveHostID_ne_zero a) hget with h0 | hkey
  · rcases hx with ⟨hka, -⟩ | h0 | hkey
    · exact absurd (congrArg Prod.fst (hka.symm.trans h0)) ha
    · exact absurd h0 (resolveHostID_ne_zero a)
    · exact hkey
  · exact hkey

end AddressBook

namespace HostSites

variable {ι : Type*} (S : HostSites ι)

/-- The ids that the answers to id requests carry. -/
def Assignable (id : UInt64) : Prop :=
  (∃ k, (S.site k).entries ≠ [] ∧ (S.site k).self.host = (S.site k).actual.host ∧
    id = resolveHostID (S.site k).self) ∨
  ∃ a : IPaddr, a.port = 1037 ∧ id = resolveHostID a

/-- The host is the one at the address that the id stands for in an address book. -/
def At (i : ι) (id : UInt64) : Prop := (S.site i).actual.key = (AddressBook.addrFromId id).key

def Owned (i : ι) (id : UInt64) : Prop :=
  (S.site i).entries = [] ∧ id = resolveHostID (S.site i).self ∨ S.Assignable id ∧ S.At i id

structure Requests (k : ι) (f : VASTFrame) : Prop where
  entries : (S.site k).entries ≠ []
  content : f.restored.msg.At [] (FixedCodec.u64.encode (resolveHostID (S.site k).self) ++
    IPaddr.codec.encode (S.site k).self)

structure Answers (id : UInt64) (f : VASTFrame) : Prop where
  assignable : S.Assignable id
  content : ∃ flag : UInt8, f.restored.msg.At [] (FixedCodec.u64.encode id ++ [flag])

/-- A frame in the send buffer of a target. -/
def Queued (i : ι) (reliable : Bool) (target : UInt64) (f : VASTFrame) : Prop :=
  (f.type = .idRequest → reliable = true ∧ S.Requests i f) ∧
    (f.type = .idAssign → reliable = true ∧ S.Answers target f)

/-- A frame that has arrived from `fromhost`. -/
structure Arrived (i : ι) (b : AddressBook) (fromhost : UInt64) (f : VASTFrame) : Prop where
  sender : ∃ k, fromhost = resolveHostID (S.site k).actual ∧ (f.type = .idRequest → S.Requests k f)
  located : b.Located fromhost
  answer : f.type = .idAssign → ∃ id, S.Answers id f ∧ S.At i id

structure Sound (i : ι) (n : HostNet) : Prop where
  self : n.selfAddr.publicIP = (S.site i).self
  entries : n.entries = (S.site i).entries
  declared : n.id = 0 → n.selfAddr.hostId = resolveHostID (S.site i).self
  id : n.id ≠ 0 → S.Owned i n.id
  book : n.book.Derived
  queued : ∀ reliable target frames, (n.sendBuf reliable)[target]? = some frames →
    ∀ f ∈ frames, S.Queued i reliable target f
  received : ∀ fromhost f, (fromhost, some f) ∈ n.received → S.Arrived i n.book fromhost f

variable {S} {i : ι} {n : HostNet}

theorem Assignable.ne_zero {id : UInt64} (h : S.Assignable id) : id ≠ 0 := by
  obtain ⟨k, -, -, rfl⟩ | ⟨a, -, rfl⟩ := h
  · exact AddressBook.resolveHostID_ne_zero _
  · exact AddressBook.resolveHostID_ne_zero _

theorem Arrived.store {b : AddressBook} {fromhost : UInt64} {f : VASTFrame} (h : S.Arrived i b fromhost f)
    (id : UInt64) (addr : IPaddr) : S.Arrived i (b.storeRemoteAddress id addr) fromhost f := by
  obtain ⟨k, hk, -⟩ := h.sender
  have hne : fromhost ≠ 0 := hk ▸ AddressBook.resolveHostID_ne_zero _
  exact { h with located := h.located.store hne id addr }

namespace Sound

theorem socketConnected (h : S.Sound i n) (id : UInt64) : S.Sound i (n.socketConnected id) := by
  rw [HostNet.socketConnected]
  split
  · exact h
  · exact { h with }

theorem storeRemoteAddress (h : S.Sound i n) (id : UInt64) (addr : IPaddr) :
    S.Sound i (n.storeRemoteAddress id addr) :=
  { h with
    book := h.book.store id addr
    received := fun fromhost f hf => (h.received fromhost f hf).store id addr }

theorem connect (h : S.Sound i n) (target : UInt64) (host : UInt32) (port : UInt16) :
    S.Sound i (n.connect target host port).1 := by
  rw [HostNet.connect]
  split
  · exact h
  · exact (h.storeRemoteAddress target _).socketConnected target

theorem disconnect (h : S.Sound i n) (target : UInt64) : S.Sound i (n.disconnect target) := by
  rw [HostNet.disconnect]
  split
  · exact h
  · refine { h with received := fun fromhost f hf => h.received fromhost f ?_ }
    simpa using hf

theorem switchID (h : S.Sound i n) (prevID newID : UInt64) : S.Sound i (n.switchID prevID newID).1 := by
  rw [HostNet.switchID]
  split
  · exact { h with }
  · exact h

theorem storeMapping (h : S.Sound i n) (addr : Addr) : S.Sound i (n.storeMapping addr) := by
  rw [HostNet.storeMapping]
  split
  · exact h
  · exact { h with }

theorem storeVASTMessage (h : S.Sound i n) (fromhost : UInt64) (msg : Message) :
    S.Sound i (n.storeVASTMessage fromhost msg) := by
  rw [HostNet.storeVASTMessage]
  split
  · exact h
  · exact { h with }

theorem queueMessage (h : S.Sound i n) {target : UInt64} {msg : Message} {reliable : Bool}
    {type : VASTHeaderType} (hf : S.Queued i reliable target ⟨type, msg⟩) :
    S.Sound i (n.queueMessage target msg reliable type) := by
  refine { h with queued := fun r t frames ht f hmem => ?_ }
  rw [HostNet.queueMessage] at ht
  dsimp only at ht
  by_cases hr : r = reliable
  · subst hr
    rw [Function.update_self, ExtTreeMap.getElem?_insert] at ht
    split at ht
    · rename_i hcmp
      obtain rfl : target = t := Std.LawfulEqCmp.compare_eq_iff_eq.mp hcmp
      rw [← Option.some.inj ht, List.mem_append, List.mem_singleton] at hmem
      rcases hmem with hold | rfl
      · cases hb : (n.sendBuf r)[target]? with
        | none => simp [hb] at hold
        | some old => exact h.queued r target old hb f (by simpa [hb] using hold)
      · exact hf
    · exact h.queued r t frames ht f hmem
  · rw [Function.update_of_ne hr] at ht
    exact h.queued r t frames ht f hmem

theorem sendHandshake (h : S.Sound i n) (target : UInt64) : S.Sound i (n.sendHandshake target) := by
  rw [HostNet.sendHandshake]
  split
  · exact h
  · exact h.queueMessage ⟨fun ht => VASTHeaderType.noConfusion ht, fun ht => VASTHeaderType.noConfusion ht⟩

theorem validateConnection (h : S.Sound i n) (host : UInt64) : S.Sound i (n.validateConnection host).1 := by
  rw [HostNet.validateConnection]
  split
  · exact h
  · split
    · exact h
    · dsimp only
      have hc := h.connect host
      split
      · exact hc _ _
      · exact (hc _ _).sendHandshake host

/-- The message is put into the buffer with the id of the host where it names no sender. -/
theorem sendMessage (h : S.Sound i n) {target : UInt64} {msg : Message} {reliable : Bool}
    {type : VASTHeaderType}
    (hf : ∀ fromId, S.Queued i reliable target ⟨type, { msg with fromId }⟩) :
    S.Sound i (n.sendMessage target msg reliable type) := by
  have hmsg : S.Queued i reliable target
      ⟨type, if msg.fromId = 0 then { msg with fromId := n.id } else msg⟩ := by
    split
    · exact hf n.id
    · exact hf msg.fromId
  rw [HostNet.sendMessage]
  split
  · exact h
  · dsimp only
    split
    · exact h.storeVASTMessage _ _
    · split
      · exact h.validateConnection target
      · exact (h.validateConnection target).queueMessage hmsg

theorem sendRegular (h : S.Sound i n) (target : UInt64) (msg : Message) (reliable : Bool) :
    S.Sound i (n.sendMessage target msg reliable .regular) :=
  h.sendMessage fun _ => ⟨fun ht => VASTHeaderType.noConfusion ht, fun ht => VASTHeaderType.noConfusion ht⟩

theorem registerHostID (h : S.Sound i n) {id : UInt64} (hid : S.Owned i id) (hne : id ≠ 0) (isPublic : Bool) :
    S.Sound i (n.registerHostID id isPublic) := by
  rw [HostNet.registerHostID]
  split
  · exact h
  · exact { h with declared := fun h0 => absurd h0 hne, id := fun _ => hid }

theorem requestID (h : S.Sound i n) (hid : n.id = 0) (hentries : n.entries ≠ []) (now : UInt64) (pick : Nat) :
    S.Sound i (n.requestID now pick) := by
  rw [HostNet.requestID]
  generalize UInt64.ofInt ((500 * n.msPerTimestep).tdiv 1000) * n.sec2timestamp = timeout
  have hwait : S.Sound i { n with timeoutIDRequest := now + timeout } := { h with }
  refine (hwait.storeMapping _).sendMessage fun fromId =>
    ⟨fun _ => ⟨rfl, h.entries ▸ hentries, ?_⟩, fun ht => VASTHeaderType.noConfusion ht⟩
  rw [HostNet.selfAddr_storeMapping, ← h.declared hid, ← h.self]
  exact HostNet.at_idRequest n.selfAddr fromId

theorem isJoined (h : S.Sound i n) (now : UInt64) (pick : Nat) : S.Sound i (n.isJoined now pick) := by
  rw [HostNet.isJoined]
  split
  · exact h
  · rename_i hready
    obtain ⟨-, hid⟩ := not_or.mp hready
    split
    · rename_i hentries
      rw [h.self]
      exact h.registerHostID (.inl ⟨h.entries ▸ hentries, rfl⟩) (AddressBook.resolveHostID_ne_zero _) true
    · rename_i hentries
      split
      · exact h.requestID (not_not.mp hid) hentries now pick
      · exact h

theorem processIDRequest (h : S.Sound i n) {fromhost junk : UInt64} {f : VASTFrame}
    (hf : S.Arrived i n.book fromhost f) (htype : f.type = .idRequest) {r : UInt64 × Message}
    (hr : HostNet.processIDRequest f.restored.msg
      ((n.book.getRemoteAddress fromhost).getD ⟨0, 0, 0⟩) junk = r) (hne : r.1 ≠ 0) :
    S.Sound i ((n.switchID fromhost r.1).1.sendMessage r.1 r.2 true .idAssign) := by
  obtain ⟨k, hk, hreq⟩ := hf.sender
  obtain ⟨a, ha, hkey⟩ := hf.located
  have hask := hreq htype
  obtain ⟨hid, hmsg⟩ := HostNet.processIDRequest_spec hask.content
    ((n.book.getRemoteAddress fromhost).getD ⟨0, 0, 0⟩) junk
  rw [hr] at hid hmsg
  obtain ⟨m, hm⟩ := hmsg hne
  rw [AddressBook.getRemoteAddress, ha, Option.getD_some] at hid
  rw [hk, AddressBook.addrFromId_resolveHostID] at hkey
  have hassign : S.Assignable r.1 := by
    rw [hid]
    split
    · rename_i hhost
      exact .inl ⟨k, hask.entries, hhost.symm.trans (congrArg Prod.fst hkey), rfl⟩
    · exact .inr ⟨a, congrArg Prod.snd hkey, rfl⟩
  refine (h.switchID fromhost r.1).sendMessage fun fromId =>
    ⟨fun ht => VASTHeaderType.noConfusion ht, fun _ => ?_⟩
  have hat := HostNet.at_idAnswer m r.1
    (((n.book.getRemoteAddress fromhost).getD ⟨0, 0, 0⟩).host == (S.site k).self.host) fromId
  rw [← hm] at hat
  exact ⟨rfl, hassign, _, hat⟩

theorem processIDAssignment (h : S.Sound i n) {f : VASTFrame} {id : UInt64} (hf : S.Answers id f)
    (hat : S.At i id) : S.Sound i (n.processIDAssignment f.restored.msg) := by
  obtain ⟨flag, hm⟩ := hf.content
  rw [HostNet.processIDAssignment]
  split
  · exact h
  · dsimp only
    rw [(hm.extractId 0).1]
    exact h.registerHostID (.inr ⟨hf.assignable, hat⟩) hf.assignable.ne_zero _

theorem processVASTMessage (h : S.Sound i n) {fromhost : UInt64} {f : VASTFrame}
    (hf : S.Arrived i n.book fromhost f) (junk : UInt64) :
    S.Sound i (n.processVASTMessage junk fromhost f) := by
  rw [HostNet.processVASTMessage]
  split
  · exact h
  · cases ht : f.type with
    | idRequest =>
      dsimp only
      split
      · exact h
      · rename_i hne
        exact h.processIDRequest hf ht rfl hne
    | idAssign =>
      obtain ⟨id, hans, hat⟩ := hf.answer ht
      exact h.processIDAssignment hans hat
    | handshake =>
      dsimp only
      split
      · exact h
      · exact h.switchID fromhost _
    | regular => exact h.storeVASTMessage fromhost _

theorem process (h : S.Sound i n) (junk : UInt64) : S.Sound i (n.process junk) := by
  rw [HostNet.process]
  split
  · exact h
  · rename_i fromhost rest heq
    have hrest : S.Sound i { n with received := rest } :=
      { h with received := fun fromhost f hf => h.received fromhost f (heq ▸ List.mem_cons_of_mem _ hf) }
    exact hrest.storeVASTMessage fromhost _
  · rename_i fromhost f rest heq
    have hrest : S.Sound i { n with received := rest } :=
      { h with received := fun fromhost f hf => h.received fromhost f (heq ▸ List.mem_cons_of_mem _ hf) }
    exact hrest.processVASTMessage (h.received fromhost f (heq ▸ List.mem_cons_self)) junk

theorem book_socketConnected (n : HostNet) (id : UInt64) : (n.socketConnected id).book = n.book := by
  rw [HostNet.socketConnected]
  split <;> rfl

/-- A frame from host `k`. -/
theorem processInput (h : S.Sound i n) {k : ι} {f : VASTFrame} (hreq : f.type = .idRequest → S.Requests k f)
    (hans : f.type = .idAssign → ∃ id, S.Answers id f ∧ S.At i id) :
    S.Sound i (HostNet.processInput (S.site k).actual n f) := by
  have hhost := S.visible k
  rw [HostNet.processInput, if_neg (fun h0 => hhost h0.1)]
  have hb := (h.storeRemoteAddress (resolveHostID (S.site k).actual) (S.site k).actual).socketConnected
    (resolveHostID (S.site k).actual)
  rw [HostNet.msgReceived]
  apply Sound.socketConnected
  refine { hb with received := fun fromhost g hg => ?_ }
  rcases List.mem_append.mp hg with hold | hnew
  · exact hb.received fromhost g hold
  · obtain ⟨rfl, hsome⟩ := Prod.mk.inj (List.mem_singleton.mp hnew)
    cases Option.some.inj hsome
    refine ⟨⟨k, rfl, hreq⟩, ?_, hans⟩
    rw [book_socketConnected]
    exact h.book.located hhost

theorem handleInput (h : S.Sound i n) {k : ι} {frames : List VASTFrame}
    (hf : ∀ f ∈ frames, (f.type = .idRequest → S.Requests k f) ∧
      (f.type = .idAssign → ∃ id, S.Answers id f ∧ S.At i id)) :
    S.Sound i (n.handleInput (S.site k).actual frames) := by
  rw [HostNet.handleInput]
  induction frames generalizing n with
  | nil => exact h
  | cons f frames ih =>
    obtain ⟨hfirst, hrest⟩ := List.forall_mem_cons.mp hf
    exact ih (h.processInput hfirst.1 hfirst.2) hrest

theorem flush (h : S.Sound i n) : S.Sound i n.flush := by
  refine { h with queued := fun reliable target frames ht f hf => ?_ }
  rw [HostNet.flush] at ht
  simp only [ExtTreeMap.getElem?_map, Option.map_eq_some_iff] at ht
  obtain ⟨-, -, rfl⟩ := ht
  cases hf

theorem flushed (h : S.Sound i n) {addr : IPaddr} {frames : List VASTFrame}
    (hm : (addr, frames) ∈ n.flushed) : ∀ f ∈ frames, (f.type = .idRequest → S.Requests i f) ∧
      (f.type = .idAssign → ∃ id, S.Answers id f ∧
        (addr.key = (0, 0) ∨ addr.key = (AddressBook.addrFromId id).key)) := by
  rw [HostNet.flushed] at hm
  split at hm
  · cases hm
  intro f hf
  simp only [List.mem_append, List.mem_filterMap, List.mem_filter, Option.map_eq_some_iff,
    Prod.mk.injEq] at hm
  obtain ⟨⟨target, frames'⟩, ⟨hmem, -⟩, a, ha, rfl, rfl⟩ |
    ⟨⟨target, frames'⟩, ⟨hmem, -⟩, a, ha, rfl, rfl⟩ := hm
  · obtain ⟨hreq, hans⟩ :=
      h.queued true target frames' (ExtTreeMap.mem_toList_iff_getElem?_eq_some.mp hmem) f hf
    refine ⟨fun ht => (hreq ht).2, fun ht => ⟨target, (hans ht).2, ?_⟩⟩
    exact h.book target a (hans ht).2.assignable.ne_zero ha
  · obtain ⟨hreq, hans⟩ :=
      h.queued false target frames' (ExtTreeMap.mem_toList_iff_getElem?_eq_some.mp hmem) f hf
    exact ⟨fun ht => absurd (hreq ht).1 Bool.false_ne_true, fun ht => absurd (hans ht).1 Bool.false_ne_true⟩

theorem call (h : S.Sound i n) (c : HostCall) : S.Sound i (n.call c) := by
  cases c with
  | isJoined now pick => exact h.isJoined now pick
  | storeMapping addr => exact h.storeMapping addr
  | connect target host port => exact h.connect target host port
  | disconnect target => exact h.disconnect target
  | sendMessage target o reliable => exact h.sendRegular target o.msg reliable
  | process junk => exact h.process junk

theorem start (i : ι) : S.Sound i (HostNet.start (S.site i).self (S.site i).entries) := by
  refine socketConnected ⟨rfl, rfl, fun _ => rfl, fun h => absurd rfl h, ?_, ?_, ?_⟩ _
  · intro id a _ ha
    simp at ha
  · intro reliable target frames ht
    simp at ht
  · intro fromhost f hf
    cases hf

end Sound

structure NetworkSound (S : HostSites ι) (w : HostNetwork ι) : Prop where
  hosts : ∀ i, S.Sound i (w.hosts i)
  sent : ∀ d ∈ w.sent, ∃ k, d.source = (S.site k).actual ∧ ∀ f ∈ d.frames,
    (f.type = .idRequest → S.Requests k f) ∧ (f.type = .idAssign → ∃ id, S.Answers id f ∧
      (d.target.key = (0, 0) ∨ d.target.key = (AddressBook.addrFromId id).key))

theorem Owned.unique (hfound : S.Found) {i j : ι} {id : UInt64} (hi : S.Owned i id) (hj : S.Owned j id) :
    i = j := by
  have hself {a b : IPaddr} (h : resolveHostID a = resolveHostID b) : a.key = b.key :=
    Prod.ext (resolveHostID_inj h).1 (resolveHostID_inj h).2
  -- an entry point asks nobody, so no answer carries its id to another host
  have hentry {i j : ι} (he : (S.site i).entries = []) (hid : id = resolveHostID (S.site i).self)
      (hass : S.Assignable id) (hat : S.At j id) : i = j := by
    have hi := hfound.port i (hfound.entryPoint i he)
    obtain ⟨k, hk, hpub, hres⟩ | ⟨a, hport, hres⟩ := hass
    · have heq := hself (hid.symm.trans hres)
      have hik : i = k := S.apart i k (hi.symm.trans (heq.trans (hfound.port k hpub)))
      exact absurd he (hik ▸ hk)
    · apply S.apart i j
      rw [hat, ← hi, hself (hid.symm.trans hres), hres, AddressBook.addrFromId_resolveHostID]
      exact Prod.ext rfl hport
  obtain ⟨hei, hidi⟩ | ⟨hassi, hati⟩ := hi <;> obtain ⟨hej, hidj⟩ | ⟨hassj, hatj⟩ := hj
  · have hi' := hfound.port i (hfound.entryPoint i hei)
    have hj' := hfound.port j (hfound.entryPoint j hej)
    exact S.apart i j (hi'.symm.trans ((hself (hidi.symm.trans hidj)).trans hj'))
  · exact hentry hei hidi hassj hatj
  · exact (hentry hej hidj hassi hati).symm
  · exact S.apart i j (hati.trans hatj.symm)

variable [DecidableEq ι]

theorem NetworkSound.setHost {w : HostNetwork ι} (h : S.NetworkSound w) {i : ι} {n : HostNet}
    (hn : S.Sound i n) : S.NetworkSound (HostSites.setHost w i n) := by
  refine ⟨fun j => ?_, h.sent⟩
  rw [HostSites.setHost]
  dsimp only
  by_cases hj : j = i
  · subst hj
    rwa [Function.update_self]
  · rw [Function.update_of_ne hj]
    exact h.hosts j

theorem NetworkSound.step {w : HostNetwork ι} (h : S.NetworkSound w) (e : SiteEvent ι) :
    S.NetworkSound (S.step w e) := by
  cases e with
  | call i c => exact h.setHost ((h.hosts i).call c)
  | flush i =>
    refine { h.setHost (h.hosts i).flush with sent := fun d hd => ?_ }
    rcases List.mem_append.mp hd with hold | hnew
    · exact h.sent d hold
    · obtain ⟨e, he, rfl⟩ := List.mem_map.mp hnew
      exact ⟨i, rfl, (h.hosts i).flushed he⟩
  | deliver i k =>
    rw [HostSites.step]
    split
    · exact h
    · rename_i d hd
      split
      · rename_i hkey
        obtain ⟨s, hsource, hframes⟩ := h.sent d (List.mem_of_getElem? hd)
        have hat (id : UInt64) (haddr : d.target.key = (0, 0) ∨
            d.target.key = (AddressBook.addrFromId id).key) : S.At i id := by
          rcases haddr with h0 | hid
          · exact absurd (congrArg Prod.fst (hkey.symm.trans h0)) (S.visible i)
          · exact hkey.symm.trans hid
        apply h.setHost
        rw [hsource]
        refine (h.hosts i).handleInput fun f hf => ⟨(hframes f hf).1, fun ht => ?_⟩
        obtain ⟨id, hans, haddr⟩ := (hframes f hf).2 ht
        exact ⟨id, hans, hat id haddr⟩
      · exact h

theorem networkSound_run (S : HostSites ι) (es : List (SiteEvent ι)) : S.NetworkSound (S.run es) := by
  have hstart : S.NetworkSound S.initial := ⟨fun i => .start i, fun d hd => by cases hd⟩
  exact StepRun.always_of_step (fun w e hw => hw.step e) es hstart es (List.prefix_refl es)

theorem id_setHost (w : HostNetwork ι) (j : ι) {n : HostNet} (h : n.id = (w.hosts j).id) (i : ι) :
    ((HostSites.setHost w j n).hosts i).id = (w.hosts i).id := by
  rw [HostSites.setHost]
  dsimp only
  by_cases hij : i = j
  · subst hij
    rw [Function.update_self, h]
  · rw [Function.update_of_ne hij]

theorem id_step {w : HostNetwork ι} {i : ι} (h : (w.hosts i).id ≠ 0) (e : SiteEvent ι) :
    ((S.step w e).hosts i).id = (w.hosts i).id := by
  cases e with
  | call j c =>
    by_cases hij : j = i
    · subst hij
      exact id_setHost w j (HostNet.id_call h c) j
    · rw [HostSites.step, HostSites.setHost]
      exact congrArg HostNet.id (Function.update_of_ne (Ne.symm hij) _ _)
  | flush j =>
    have hflush : (w.hosts j).flush.id = (w.hosts j).id := rfl
    exact id_setHost w j hflush i
  | deliver j k =>
    rw [HostSites.step]
    split
    · rfl
    · split
      · exact id_setHost w j (HostNet.id_handleInput _ _ _) i
      · rfl

theorem id_run {es : List (SiteEvent ι)} {i : ι} (h : ((S.run es).hosts i).id ≠ 0) (fs : List (SiteEvent ι)) :
    ((S.run (es ++ fs)).hosts i).id = ((S.run es).hosts i).id := by
  induction fs using List.reverseRecOn with
  | nil => rw [List.append_nil]
  | append_singleton fs e ih =>
    rw [← List.append_assoc, run, List.foldl_append, ← run, List.foldl_cons, List.foldl_nil, ← ih]
    exact id_step (ih ▸ h) e

/-- An id stays with the host that has it and comes to no other. -/
theorem ids_distinct (S : HostSites ι) (hfound : S.Found) (es fs : List (SiteEvent ι)) (i : ι) :
    ((S.run es).hosts i).id = 0 ∨
      ((S.run (es ++ fs)).hosts i).id = ((S.run es).hosts i).id ∧
        ∀ j, ((S.run (es ++ fs)).hosts j).id = ((S.run es).hosts i).id → j = i := by
  rw [or_iff_not_imp_left]
  intro hi
  have hkept := id_run hi fs
  refine ⟨hkept, fun j hj => ?_⟩
  have h := (S.networkSound_run (es ++ fs)).hosts
  have howned := (h j).id (hj.symm ▸ hi)
  exact (hj.trans hkept.symm ▸ howned).unique hfound ((h i).id (hkept.symm ▸ hi))

/-- An entry point, a second one at another port of its address, a host that knows it, and one behind
a translator of addresses. -/
def quartet : HostSites (Fin 4) where
  site
    | 0 => ⟨⟨0x0A000001, 1037, 0⟩, ⟨0x0A000001, 1037, 0⟩, []⟩
    | 1 => ⟨⟨0x0A000001, 1038, 0⟩, ⟨0x0A000001, 1038, 0⟩, []⟩
    | 2 => ⟨⟨0x0A000002, 1037, 0⟩, ⟨0x0A000002, 1037, 0⟩, [⟨0x0A000001, 1037, 0⟩]⟩
    | 3 => ⟨⟨0xC0A80002, 1037, 0⟩, ⟨0x0A000003, 1037, 0⟩, [⟨0x0A000001, 1037, 0⟩]⟩
  apart := by decide
  visible := by decide

theorem quartet_found : quartet.Found := ⟨by decide, by decide⟩

def quartetJoining : List (SiteEvent (Fin 4)) :=
  [.call 0 (.isJoined 1 0), .call 1 (.isJoined 1 0), .call 2 (.isJoined 1 0), .flush 2, .deliver 0 0,
    .call 0 (.process 0), .flush 0, .deliver 2 1, .call 2 (.process 0),
    .call 3 (.isJoined 1 0), .flush 3, .deliver 0 2, .call 0 (.process 0), .flush 0, .deliver 3 3,
    .call 3 (.process 0)]

/-- All four have an id, and the translated host's own is no other's, also when all ask again. -/
theorem ids_distinct_quartet :
    (∀ i, ((quartet.run quartetJoining).hosts i).id ≠ 0) ∧
      ∀ j, ((quartet.run (quartetJoining ++ quartetJoining)).hosts j).id =
        ((quartet.run quartetJoining).hosts 3).id → j = 3 := by
  have hall : ∀ i, ((quartet.run quartetJoining).hosts i).id ≠ 0 := by decide +kernel
  exact ⟨hall, ((ids_distinct quartet quartet_found quartetJoining quartetJoining 3).resolve_left (hall 3)).2⟩

/-- Whom an id names: a host that has asked for it listens at the fixed port of the address in it, and
one without entry points has the address in it from itself. -/
theorem ids_located (S : HostSites ι) (es : List (SiteEvent ι)) (i : ι) :
    ((S.run es).hosts i).id = 0 ∨
      ((S.site i).entries = [] ∧ ((S.run es).hosts i).id = resolveHostID (S.site i).self) ∨
      ((AddressBook.addrFromId ((S.run es).hosts i).id).host = (S.site i).actual.host ∧
        (S.site i).actual.port = 1037) := by
  rw [or_iff_not_imp_left]
  intro hi
  obtain hself | ⟨-, hat⟩ := ((S.networkSound_run es).hosts i).id hi
  · exact .inl hself
  · exact .inr ⟨(congrArg Prod.fst hat).symm, congrArg Prod.snd hat⟩

/-- Where nobody's address is translated and all listen at the fixed port, the id is the host's own. -/
theorem ids_own (S : HostSites ι)
    (hall : ∀ i, (S.site i).self.key = (S.site i).actual.key ∧ (S.site i).actual.port = 1037)
    (es : List (SiteEvent ι)) (i : ι) :
    ((S.run es).hosts i).id = 0 ∨ ((S.run es).hosts i).id = resolveHostID (S.site i).self := by
  rw [or_iff_not_imp_left]
  intro hi
  obtain ⟨-, hid⟩ | ⟨hass, hat⟩ := ((S.networkSound_run es).hosts i).id hi
  · exact hid
  · obtain ⟨k, -, hpub, hk⟩ | ⟨a, hport, ha⟩ := hass
    · rw [hk, HostSites.At, AddressBook.addrFromId_resolveHostID] at hat
      have hik : i = k := by
        apply S.apart i k
        rw [hat, hpub, ← (hall k).2]
        rfl
      rw [hik] at hk ⊢
      exact hk
    · rw [ha, HostSites.At, AddressBook.addrFromId_resolveHostID] at hat
      rw [ha]
      apply AddressBook.resolveHostID_congr
      have hhost : (S.site i).actual.host = a.host := congrArg Prod.fst hat
      rw [(hall i).1]
      exact Prod.ext hhost.symm (hport.trans (hall i).2.symm)

/-- An entry point and a host that knows it. -/
def pair : HostSites Bool where
  site
    | false => ⟨⟨0x0A000001, 1037, 0⟩, ⟨0x0A000001, 1037, 0⟩, []⟩
    | true => ⟨⟨0x0A000002, 1037, 0⟩, ⟨0x0A000002, 1037, 0⟩, [⟨0x0A000001, 1037, 0⟩]⟩
  apart := by decide
  visible := by decide

def joining : List (SiteEvent Bool) :=
  [.call false (.isJoined 1 0), .call true (.isJoined 1 0), .flush true, .deliver false 0,
    .call false (.process 0), .flush false, .deliver true 1, .call true (.process 0)]

example : ((pair.run joining).hosts true).id = 0x0A000002040D0001 := by decide +kernel

theorem ids_own_pair : ((pair.run joining).hosts true).id = 0 ∨
    ((pair.run joining).hosts true).id = resolveHostID ⟨0x0A000002, 1037, 0⟩ :=
  ids_own pair (by decide) joining true

/-- As `pair`, with a second host at the address of the first one and another port. -/
def shared : HostSites (Fin 3) where
  site
    | 0 => ⟨⟨0x0A000001, 1037, 0⟩, ⟨0x0A000001, 1037, 0⟩, []⟩
    | 1 => ⟨⟨0x0A000002, 1037, 0⟩, ⟨0x0A000002, 1037, 0⟩, [⟨0x0A000001, 1037, 0⟩]⟩
    | 2 => ⟨⟨0x0A000002, 1038, 0⟩, ⟨0x0A000002, 1038, 0⟩, [⟨0x0A000001, 1037, 0⟩]⟩
  apart := by decide
  visible := by decide

-- host 2 asks, and the answer with its id goes to host 1
example : ((shared.run [.call 0 (.isJoined 1 0), .call 2 (.isJoined 1 0), .flush 2, .deliver 0 0,
    .call 0 (.process 0), .flush 0, .deliver 1 1, .call 1 (.process 0)]).hosts 1).id =
      resolveHostID (shared.site 2).self := by decide +kernel

end HostSites

end VastNC
