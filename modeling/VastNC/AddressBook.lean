import VastNC.Sender

/-! The two maps of `net_udp_handler` between host ids and addresses. A stored address is
replaced by one made from the id, with a fixed port. -/

namespace VastNC

/-- `IPaddr::operator<` looks at these two fields only. -/
def IPaddr.key (a : IPaddr) : UInt32 × UInt16 := (a.host, a.port)

theorem IPaddr.equals_iff {a b : IPaddr} : a.equals b = true ↔ a.key = b.key := by
  simp [equals, key]

structure AddressBook where
  remoteAddrs : Std.ExtTreeMap UInt64 IPaddr := ∅
  remoteIdsIPs : Std.ExtHashMap (UInt32 × UInt16) UInt64 := ∅

namespace AddressBook

def getRemoteAddress (b : AddressBook) (hostId : UInt64) : Option IPaddr := b.remoteAddrs[hostId]?

def getRemoteIDByIP (b : AddressBook) (addr : IPaddr) : UInt64 :=
  b.remoteIdsIPs[addr.key]?.getD netIdUnassigned

def addrFromId (hostId : UInt64) : IPaddr := ⟨(hostId >>> 32).toUInt32, 1037, 0⟩

/-- `operator[]` of the first comparison inserts the address `(0, 0)` for an unknown id. -/
def storeRemoteAddress (b : AddressBook) (hostId : UInt64) (addr : IPaddr) : AddressBook :=
  let found := b.remoteAddrs[hostId]?.getD ⟨0, 0, 0⟩
  let remoteAddrs := b.remoteAddrs.insert hostId found
  if found.equals addr then { b with remoteAddrs }
  else
    let addr := if hostId ≠ 0 ∧ (addrFromId hostId).equals addr = false then addrFromId hostId else addr
    ⟨remoteAddrs.insert hostId addr, b.remoteIdsIPs.insert addr.key hostId⟩

inductive Call where
  | storeRemoteAddress (addr : IPaddr)
  | getRemoteAddress (hostId : UInt64)
  | getRemoteIDByIP (addr : IPaddr)
  deriving DecidableEq

/-- The lookups find their key before they use `operator[]`, so they insert nothing. -/
def step (b : AddressBook) : Call → AddressBook
  | .storeRemoteAddress addr => b.storeRemoteAddress (resolveHostID addr) addr
  | .getRemoteAddress _ => b
  | .getRemoteIDByIP _ => b

def after (calls : List Call) : AddressBook := calls.foldl step {}

structure Consistent (b : AddressBook) : Prop where
  toId : ∀ (id : UInt64) (addr : IPaddr), b.remoteAddrs[id]? = some addr →
    b.remoteIdsIPs[addr.key]? = some id
  toAddr : ∀ (key : UInt32 × UInt16) (id : UInt64), b.remoteIdsIPs[key]? = some id →
    ∃ addr : IPaddr, b.remoteAddrs[id]? = some addr ∧ addr.key = key
  nonzero : ∀ (id : UInt64) (addr : IPaddr), b.remoteAddrs[id]? = some addr → addr.key ≠ (0, 0)

structure Answers (b : AddressBook) (addr : IPaddr) : Prop where
  address : ∃ a, b.getRemoteAddress (resolveHostID addr) = some a ∧ a.equals addr = true
  id : b.getRemoteIDByIP addr = resolveHostID addr

theorem resolveHostID_congr {a b : IPaddr} (h : a.key = b.key) : resolveHostID a = resolveHostID b := by
  simp only [IPaddr.key, Prod.mk.injEq] at h
  rw [resolveHostID, resolveHostID, h.1, h.2]

theorem resolveHostID_ne_zero (a : IPaddr) : resolveHostID a ≠ 0 := by
  intro h
  have hbit := congrArg (fun x => x.toBitVec.getLsbD 0) h
  simp [resolveHostID, netIdRelay] at hbit

theorem addrFromId_resolveHostID (a : IPaddr) : addrFromId (resolveHostID a) = ⟨a.host, 1037, 0⟩ := by
  have hh : (resolveHostID a >>> 32).toUInt32 = a.host := by
    apply UInt32.toBitVec_inj.mp
    apply BitVec.eq_of_getLsbD_eq
    intro i hi
    have hp : a.port.toBitVec.getLsbD (32 + i - 16) = false := BitVec.getLsbD_of_ge _ _ (by omega)
    simp [resolveHostID, netIdRelay, hi, show 32 + i < 64 by omega, hp]
  rw [addrFromId, hh]

theorem insert_insert (m : Std.ExtTreeMap UInt64 IPaddr) (id : UInt64) (x y : IPaddr) :
    (m.insert id x).insert id y = m.insert id y := by
  apply Std.ExtTreeMap.ext_getElem?
  intro g
  simp only [Std.ExtTreeMap.getElem?_insert]
  split <;> rfl

/-- The address that a store writes: the port is 1037, whatever was asked for. -/
theorem storeRemoteAddress_cases (b : AddressBook) {a : IPaddr} (ha : a.host ≠ 0) :
    (∃ x, b.remoteAddrs[resolveHostID a]? = some x ∧ x.key = a.key ∧
      b.storeRemoteAddress (resolveHostID a) a =
        { b with remoteAddrs := b.remoteAddrs.insert (resolveHostID a) x }) ∨
    ((∀ x, b.remoteAddrs[resolveHostID a]? = some x → x.key ≠ a.key) ∧
      ∃ y : IPaddr, y.host = a.host ∧ y.port = 1037 ∧ b.storeRemoteAddress (resolveHostID a) a =
        ⟨b.remoteAddrs.insert (resolveHostID a) y, b.remoteIdsIPs.insert y.key (resolveHostID a)⟩) := by
  by_cases he : (b.remoteAddrs[resolveHostID a]?.getD ⟨0, 0, 0⟩).equals a = true
  · left
    cases hx : b.remoteAddrs[resolveHostID a]? with
    | none =>
      rw [hx, Option.getD_none, IPaddr.equals_iff] at he
      exact absurd (congrArg Prod.fst he).symm ha
    | some x =>
      rw [hx, Option.getD_some] at he
      refine ⟨x, rfl, IPaddr.equals_iff.mp he, ?_⟩
      simp only [storeRemoteAddress, hx, Option.getD_some, he, if_true]
  · right
    refine ⟨fun x hx hk => he ?_, ?_⟩
    · rw [hx, Option.getD_some, IPaddr.equals_iff, hk]
    · rw [storeRemoteAddress]
      dsimp only
      rw [if_neg he, insert_insert, addrFromId_resolveHostID]
      by_cases hf : IPaddr.equals ⟨a.host, 1037, 0⟩ a = true
      · rw [if_neg (by simp [hf])]
        exact ⟨a, rfl, (congrArg Prod.snd (IPaddr.equals_iff.mp hf)).symm, rfl⟩
      · rw [if_pos ⟨resolveHostID_ne_zero a, by simpa using hf⟩]
        exact ⟨⟨a.host, 1037, 0⟩, rfl, rfl, rfl⟩

def Port1037 (b : AddressBook) : Prop :=
  ∀ (id : UInt64) (addr : IPaddr), b.remoteAddrs[id]? = some addr → addr.port = 1037

theorem Port1037.insert {b : AddressBook} (h : b.Port1037) {id : UInt64} {y : IPaddr}
    (hy : y.port = 1037) (ids : Std.ExtHashMap (UInt32 × UInt16) UInt64) :
    Port1037 ⟨b.remoteAddrs.insert id y, ids⟩ := by
  intro g x hx
  rw [Std.ExtTreeMap.getElem?_insert] at hx
  split at hx
  · rwa [← Option.some.inj hx]
  · exact h g x hx

theorem Port1037.store {b : AddressBook} (h : b.Port1037) {a : IPaddr} (ha : a.host ≠ 0) :
    (b.storeRemoteAddress (resolveHostID a) a).Port1037 := by
  obtain ⟨x, hx, -, heq⟩ | ⟨-, y, -, hy, heq⟩ := storeRemoteAddress_cases b ha
  · rw [heq]
    exact h.insert (h _ x hx) _
  · rw [heq]
    exact h.insert hy _

/-- The invariant of a run that stores addresses with port 1037 only. -/
structure Inv (b : AddressBook) (stored : IPaddr → Prop) : Prop where
  id : ∀ (id : UInt64) (addr : IPaddr), b.remoteAddrs[id]? = some addr → id = resolveHostID addr
  host : ∀ (id : UInt64) (addr : IPaddr), b.remoteAddrs[id]? = some addr → addr.host ≠ 0
  toId : ∀ (id : UInt64) (addr : IPaddr), b.remoteAddrs[id]? = some addr →
    b.remoteIdsIPs[addr.key]? = some id
  toAddr : ∀ (key : UInt32 × UInt16) (id : UInt64), b.remoteIdsIPs[key]? = some id →
    ∃ addr : IPaddr, b.remoteAddrs[id]? = some addr ∧ addr.key = key
  mem : ∀ a, stored a → resolveHostID a ∈ b.remoteAddrs

theorem insert_of_getElem? {m : Std.ExtTreeMap UInt64 IPaddr} {id : UInt64} {x : IPaddr}
    (h : m[id]? = some x) : m.insert id x = m := by
  apply Std.ExtTreeMap.ext_getElem?
  intro g
  rw [Std.ExtTreeMap.getElem?_insert]
  split
  · rename_i hg
    obtain rfl : id = g := by simpa using hg
    exact h.symm
  · rfl

theorem key_eq_of_resolveHostID {a b : IPaddr} (h : resolveHostID a = resolveHostID b) :
    a.key = b.key := by
  obtain ⟨hh, hp⟩ := resolveHostID_inj h
  rw [IPaddr.key, IPaddr.key, hh, hp]

theorem Inv.insert {b : AddressBook} {stored : IPaddr → Prop} (h : b.Inv stored) {a y : IPaddr}
    (hnone : b.remoteAddrs[resolveHostID a]? = none) (hkey : y.key = a.key) (hy : y.host ≠ 0) :
    Inv ⟨b.remoteAddrs.insert (resolveHostID a) y, b.remoteIdsIPs.insert y.key (resolveHostID a)⟩
      (fun x => stored x ∨ x = a) where
  id := by
    intro g x hx
    rw [Std.ExtTreeMap.getElem?_insert] at hx
    split at hx
    · rename_i hg
      rw [← Option.some.inj hx, ← show resolveHostID a = g by simpa using hg]
      exact resolveHostID_congr hkey.symm
    · exact h.id g x hx
  host := by
    intro g x hx
    rw [Std.ExtTreeMap.getElem?_insert] at hx
    split at hx
    · rwa [← Option.some.inj hx]
    · exact h.host g x hx
  toId := by
    intro g x hx
    dsimp only
    rw [Std.ExtTreeMap.getElem?_insert] at hx
    rw [Std.ExtHashMap.getElem?_insert]
    split at hx
    · rename_i hg
      rw [← Option.some.inj hx, if_pos (by simp), ← show resolveHostID a = g by simpa using hg]
    · rename_i hg
      rw [if_neg]
      · exact h.toId g x hx
      · intro hk
        have hxa : x.key = a.key := by rw [← hkey, show y.key = x.key by simpa using hk]
        exact hg (by rw [h.id g x hx, resolveHostID_congr hxa]; simp)
  toAddr := by
    intro key g hg
    dsimp only at hg ⊢
    rw [Std.ExtHashMap.getElem?_insert] at hg
    split at hg
    · rename_i hk
      refine ⟨y, ?_, by simpa using hk⟩
      rw [← Option.some.inj hg, Std.ExtTreeMap.getElem?_insert, if_pos (by simp)]
    · obtain ⟨x, hx, hxk⟩ := h.toAddr key g hg
      refine ⟨x, ?_, hxk⟩
      rw [Std.ExtTreeMap.getElem?_insert, if_neg, hx]
      intro hag
      rw [← show resolveHostID a = g by simpa using hag, hnone] at hx
      cases hx
  mem := by
    rintro z (hz | rfl)
    · simp [h.mem z hz]
    · simp

theorem Inv.store {b : AddressBook} {stored : IPaddr → Prop} (h : b.Inv stored) {a : IPaddr}
    (ha : a.host ≠ 0) (hp : a.port = 1037) :
    (b.storeRemoteAddress (resolveHostID a) a).Inv (fun x => stored x ∨ x = a) := by
  obtain ⟨x, hx, -, heq⟩ | ⟨hnew, y, hyh, hyp, heq⟩ := storeRemoteAddress_cases b ha
  · rw [heq, insert_of_getElem? hx]
    refine ⟨h.id, h.host, h.toId, h.toAddr, ?_⟩
    rintro z (hz | rfl)
    · exact h.mem z hz
    · rw [Std.ExtTreeMap.mem_iff_isSome_getElem?, hx]
      rfl
  · have hnone : b.remoteAddrs[resolveHostID a]? = none := by
      cases hx : b.remoteAddrs[resolveHostID a]? with
      | none => rfl
      | some x => exact absurd (key_eq_of_resolveHostID (h.id _ x hx)).symm (hnew x hx)
    have hkey : y.key = a.key := by rw [IPaddr.key, IPaddr.key, hyh, hyp, hp]
    rw [heq]
    exact h.insert hnone hkey (hyh ▸ ha)

theorem Inv.consistent {b : AddressBook} {stored : IPaddr → Prop} (h : b.Inv stored) : b.Consistent where
  toId := h.toId
  toAddr := h.toAddr
  nonzero := fun id addr ha hz => h.host id addr ha (congrArg Prod.fst hz)

theorem Inv.answers {b : AddressBook} {stored : IPaddr → Prop} (h : b.Inv stored) {a : IPaddr}
    (ha : stored a) : b.Answers a := by
  cases hx : b.remoteAddrs[resolveHostID a]? with
  | none =>
    have hm := h.mem a ha
    rw [Std.ExtTreeMap.mem_iff_isSome_getElem?, hx] at hm
    cases hm
  | some x =>
    have hk : x.key = a.key := (key_eq_of_resolveHostID (h.id _ x hx)).symm
    have hid := h.toId _ x hx
    rw [hk] at hid
    refine ⟨⟨x, hx, IPaddr.equals_iff.mpr hk⟩, ?_⟩
    rw [getRemoteIDByIP, hid, Option.getD_some]

section Runs

variable {calls : List Call}

theorem after_append_singleton (calls : List Call) (c : Call) :
    after (calls ++ [c]) = (after calls).step c := by
  rw [after, List.foldl_append]
  rfl

theorem after_port1037 (h : ∀ a, .storeRemoteAddress a ∈ calls → a.host ≠ 0) :
    (after calls).Port1037 := by
  induction calls using List.reverseRecOn with
  | nil => exact fun id addr ha => by simp [after] at ha
  | append_singleton calls c ih =>
    have hi := ih (fun a ha => h a (List.mem_append_left _ ha))
    rw [after_append_singleton]
    cases c with
    | storeRemoteAddress a => exact hi.store (h a (by simp))
    | getRemoteAddress id => exact hi
    | getRemoteIDByIP a => exact hi

theorem after_inv (h : ∀ a, .storeRemoteAddress a ∈ calls → a.host ≠ 0 ∧ a.port = 1037) :
    (after calls).Inv (fun a => .storeRemoteAddress a ∈ calls) := by
  induction calls using List.reverseRecOn with
  | nil =>
    refine ⟨fun id addr ha => ?_, fun id addr ha => ?_, fun id addr ha => ?_, fun key id ha => ?_,
      fun a ha => ?_⟩
    all_goals simp [after] at ha
  | append_singleton calls c ih =>
    have hi := ih (fun a ha => h a (List.mem_append_left _ ha))
    rw [after_append_singleton]
    cases c with
    | storeRemoteAddress a =>
      have ha := h a (by simp)
      simpa [step] using hi.store ha.1 ha.2
    | getRemoteAddress id => simpa [step] using hi
    | getRemoteIDByIP a => simpa [step] using hi

/-- The two maps stay inverse and answer for every stored address, in every state of a run,
exactly when all addresses that the run stores have port 1037. -/
theorem address_book_consistent_iff (calls : List Call)
    (h : ∀ a, .storeRemoteAddress a ∈ calls → a.host ≠ 0 ∧ a.port ≠ 0) :
    (∀ pre post, calls = pre ++ post →
      (after pre).Consistent ∧ ∀ a, .storeRemoteAddress a ∈ pre → (after pre).Answers a) ↔
      ∀ a, .storeRemoteAddress a ∈ calls → a.port = 1037 := by
  constructor
  · intro hall a ha
    obtain ⟨x, hx, heq⟩ := ((hall calls [] (by simp)).2 a ha).address
    have hport := after_port1037 (fun a ha => (h a ha).1) _ x hx
    rw [← hport]
    exact (congrArg Prod.snd (IPaddr.equals_iff.mp heq)).symm
  · rintro hport pre post rfl
    have hi : (after pre).Inv (fun a => .storeRemoteAddress a ∈ pre) := by
      apply after_inv
      intro a ha
      have hmem := List.mem_append_left post ha
      exact ⟨(h a hmem).1, hport a hmem⟩
    exact ⟨hi.consistent, fun a ha => hi.answers ha⟩

end Runs

def visitor : IPaddr := ⟨0x0A000001, 1037, 0⟩

def otherPort : IPaddr := ⟨0x0A000001, 1038, 0⟩

def visit : List Call := [.storeRemoteAddress visitor, .getRemoteIDByIP otherPort]

theorem address_book_consistent_visitor : (after visit).Answers visitor := by
  have hv : ∀ a, .storeRemoteAddress a ∈ visit → a = visitor := by simp [visit]
  refine ((address_book_consistent_iff visit (fun a ha => ?_)).mpr (fun a ha => ?_) _ []
    (List.append_nil _).symm).2 visitor (by simp [visit])
  · rw [hv a ha]
    decide
  · rw [hv a ha]
    rfl

/-- The id of `10.0.0.1:1038` is mapped to `10.0.0.1:1037`. -/
theorem address_book_wrong_port :
    otherPort.host ≠ 0 ∧ otherPort.port ≠ 0 ∧
      (after [.storeRemoteAddress otherPort]).getRemoteAddress (resolveHostID otherPort) = some visitor ∧
      ¬ (after [.storeRemoteAddress otherPort]).Answers otherPort := by
  have h : (after [.storeRemoteAddress otherPort]).getRemoteAddress (resolveHostID otherPort) =
      some visitor := by decide +kernel
  refine ⟨by decide, by decide, h, fun ha => ?_⟩
  obtain ⟨x, hx, heq⟩ := ha.address
  rw [h, Option.some.injEq] at hx
  subst hx
  exact absurd heq (by decide)

end AddressBook

end VastNC
