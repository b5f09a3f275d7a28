import VastNC.Types

/-! `VASTnet::getUniqueID`: the ids that entry points hand out. An id packs the public address,
a group and the group's counter; a run of calls on any set of hosts never repeats one. -/

namespace VastNC

def isEntryPoint (id : UInt64) : Bool := (0x0FFFF &&& id) == netIdRelay

def extractHost (id : UInt64) : Int32 := ((id >>> 32) &&& 0xFFFFFFFF).toUInt32.toInt32

def resolvePort (hostId : UInt64) : UInt64 := (hostId &&& 0x00000000FFFF0000) >>> 16

def extractIDGroup (id : UInt64) : Int := ((0x03 : UInt64) &&& (id >>> 14)).toNat

def resolveAssignedID (hostId : UInt64) : UInt64 := hostId &&& ((0xFFFF : UInt64) >>> 2)

/-- What `getUniqueID` reads and writes of a `VASTnet`. -/
structure IdAssigner where
  id : UInt64
  publicIP : IPaddr
  idCounter : Std.ExtTreeMap Int UInt64 := ∅

namespace IdAssigner

def packId (addr : IPaddr) (idGroup : Int) (number : UInt64) : UInt64 :=
  (addr.host.toUInt64 <<< 32) ||| (addr.port.toUInt64 <<< 16) |||
    (UInt64.ofInt idGroup <<< 14) ||| number

/-- The counter as the call finds it: a group that is not in the map starts behind the relay. -/
def counter (v : IdAssigner) (idGroup : Int) : UInt64 := v.idCounter[idGroup]?.getD (netIdRelay + 1)

def getUniqueID (v : IdAssigner) (idGroup : Int) : UInt64 × IdAssigner :=
  if isEntryPoint v.id = false then (netIdUnassigned, v)
  else if idGroup < 0 ∨ 4 ≤ idGroup then (netIdUnassigned, v)
  else
    let number := v.counter idGroup
    if number ≤ 0 ∨ 16384 ≤ number then
      (netIdUnassigned, { v with idCounter := v.idCounter.insert idGroup number })
    else
      (packId v.publicIP idGroup number,
        { v with idCounter := v.idCounter.insert idGroup (number + 1) })

def assign {T : Type*} [DecidableEq T] (hosts : T → IdAssigner) :
    List (T × Int) → List UInt64 × (T → IdAssigner)
  | [] => ([], hosts)
  | (t, idGroup) :: calls =>
    let r := (hosts t).getUniqueID idGroup
    let rest := assign (Function.update hosts t r.2) calls
    (r.1 :: rest.1, rest.2)

section Fields

variable {addr : IPaddr} {g : Nat} {number : UInt64}

theorem toNat_packId (hg : g < 4) (hn : number.toNat < 2 ^ 14) : (packId addr g number).toNat =
    ((addr.host.toNat * 2 ^ 16 + addr.port.toNat) * 4 + g) * 2 ^ 14 + number.toNat := by
  have hh := addr.host.toNat_lt
  have hp := addr.port.toNat_lt
  have hgn : (UInt64.ofInt (g : Int)).toNat = g := by
    simp [UInt64.ofInt]
    omega
  have h32 : addr.host.toNat <<< 32 % 2 ^ 64 = addr.host.toNat <<< 32 := by
    rw [Nat.shiftLeft_eq]
    omega
  have h16 : addr.port.toNat <<< 16 % 2 ^ 64 = addr.port.toNat <<< 16 := by
    rw [Nat.shiftLeft_eq]
    omega
  have h14 : g <<< 14 % 2 ^ 64 = g <<< 14 := by
    rw [Nat.shiftLeft_eq]
    omega
  -- each field lies below the ones packed so far, so the bits never meet
  have hhost : addr.host.toNat <<< 32 ||| addr.port.toNat <<< 16 =
      (addr.host.toNat * 2 ^ 16 + addr.port.toNat) <<< 16 := by
    rw [← Nat.shiftLeft_add_eq_or_of_lt (by rw [Nat.shiftLeft_eq]; omega)]
    simp only [Nat.shiftLeft_eq]
    omega
  have hgroup : (addr.host.toNat * 2 ^ 16 + addr.port.toNat) <<< 16 ||| g <<< 14 =
      ((addr.host.toNat * 2 ^ 16 + addr.port.toNat) * 4 + g) <<< 14 := by
    rw [← Nat.shiftLeft_add_eq_or_of_lt (by rw [Nat.shiftLeft_eq]; omega)]
    simp only [Nat.shiftLeft_eq]
    omega
  have h := Nat.shiftLeft_add_eq_or_of_lt hn
    ((addr.host.toNat * 2 ^ 16 + addr.port.toNat) * 4 + g)
  simp only [packId, UInt64.toNat_or, UInt64.toNat_shiftLeft, UInt32.toNat_toUInt64,
    UInt16.toNat_toUInt64, hgn, UInt64.reduceToNat, Nat.reduceMod, h32, h16, h14, hhost, hgroup, ← h]
  rw [Nat.shiftLeft_eq]

theorem extractHost_packId (hg : g < 4) (hn : number.toNat < 2 ^ 14) :
    (extractHost (packId addr g number)).toUInt32 = addr.host := by
  have hp := addr.port.toNat_lt
  have hh := addr.host.toNat_lt
  apply UInt32.toNat_inj.mp
  have hm : (4294967295 : Nat) = 2 ^ 32 - 1 := rfl
  simp only [extractHost, UInt32.toUInt32_toInt32, UInt64.toNat_toUInt32, UInt64.toNat_and,
    UInt64.toNat_shiftRight, toNat_packId hg hn, UInt64.reduceToNat, Nat.reduceMod, hm,
    Nat.and_two_pow_sub_one_eq_mod, Nat.shiftRight_eq_div_pow]
  omega

theorem resolvePort_packId (hg : g < 4) (hn : number.toNat < 2 ^ 14) :
    resolvePort (packId addr g number) = addr.port.toUInt64 := by
  have hp := addr.port.toNat_lt
  apply UInt64.toNat_inj.mp
  have hm : (4294901760 : Nat) / 2 ^ 16 = 2 ^ 16 - 1 := rfl
  simp only [resolvePort, UInt64.toNat_shiftRight, UInt64.toNat_and, toNat_packId hg hn,
    UInt64.reduceToNat, Nat.reduceMod, UInt16.toNat_toUInt64]
  rw [Nat.shiftRight_and_distrib, Nat.shiftRight_eq_div_pow, Nat.shiftRight_eq_div_pow, hm,
    Nat.and_two_pow_sub_one_eq_mod]
  omega

theorem extractIDGroup_packId (hg : g < 4) (hn : number.toNat < 2 ^ 14) :
    extractIDGroup (packId addr g number) = g := by
  have hm : (3 : Nat) = 2 ^ 2 - 1 := rfl
  simp only [extractIDGroup, UInt64.toNat_and, UInt64.toNat_shiftRight, toNat_packId hg hn,
    UInt64.reduceToNat, Nat.reduceMod, Nat.and_comm 3, hm, Nat.and_two_pow_sub_one_eq_mod,
    Nat.shiftRight_eq_div_pow]
  omega

theorem resolveAssignedID_packId (hg : g < 4) (hn : number.toNat < 2 ^ 14) :
    resolveAssignedID (packId addr g number) = number := by
  apply UInt64.toNat_inj.mp
  have hm : 65535 >>> 2 = 2 ^ 14 - 1 := rfl
  simp only [resolveAssignedID, UInt64.toNat_and, UInt64.toNat_shiftRight, toNat_packId hg hn,
    UInt64.reduceToNat, Nat.reduceMod, hm, Nat.and_two_pow_sub_one_eq_mod]
  omega

theorem isEntryPoint_packId (hg : g < 4) (hn : number.toNat < 2 ^ 14) (h2 : 2 ≤ number.toNat) :
    isEntryPoint (packId addr g number) = false := by
  have hm : (65535 : Nat) = 2 ^ 16 - 1 := rfl
  have hne : (0x0FFFF &&& packId addr g number).toNat ≠ netIdRelay.toNat := by
    simp only [UInt64.toNat_and, toNat_packId hg hn, UInt64.reduceToNat, Nat.and_comm 65535, hm,
      Nat.and_two_pow_sub_one_eq_mod, netIdRelay]
    omega
  simpa [isEntryPoint] using fun h => hne (congrArg UInt64.toNat h)

end Fields

def Served (v : IdAssigner) (idGroup : Int) : Prop :=
  isEntryPoint v.id = true ∧ 0 ≤ idGroup ∧ idGroup < 4

section Call

variable {v : IdAssigner} {idGroup : Int}

theorem getUniqueID_refused (h : ¬ v.Served idGroup) : v.getUniqueID idGroup = (0, v) := by
  rw [getUniqueID]
  split
  · rfl
  · rename_i hid
    rw [if_pos]
    · rfl
    · by_contra hr
      exact h ⟨by simpa using hid, by omega, by omega⟩

theorem getUniqueID_served (h : v.Served idGroup) : v.getUniqueID idGroup =
    if v.counter idGroup ≤ 0 ∨ 16384 ≤ v.counter idGroup then
      (0, { v with idCounter := v.idCounter.insert idGroup (v.counter idGroup) })
    else (packId v.publicIP idGroup (v.counter idGroup),
      { v with idCounter := v.idCounter.insert idGroup (v.counter idGroup + 1) }) := by
  obtain ⟨hid, hge, hlt⟩ := h
  rw [getUniqueID, if_neg (by simp [hid]), if_neg (by omega)]
  rfl

theorem getUniqueID_host (v : IdAssigner) (idGroup : Int) :
    (v.getUniqueID idGroup).2.id = v.id ∧ (v.getUniqueID idGroup).2.publicIP = v.publicIP := by
  by_cases h : v.Served idGroup
  · rw [getUniqueID_served h]
    split <;> exact ⟨rfl, rfl⟩
  · rw [getUniqueID_refused h]
    exact ⟨rfl, rfl⟩

theorem counter_insert (v : IdAssigner) (g g' : Int) (number : UInt64) :
    IdAssigner.counter { v with idCounter := v.idCounter.insert g number } g' =
      if g = g' then number else v.counter g' := by
  simp only [counter, Std.ExtTreeMap.getElem?_insert, compare_eq_iff_eq]
  split <;> rfl

theorem counter_getUniqueID {n : Nat} (h : v.Served idGroup)
    (hn : (v.counter idGroup).toNat = min 16384 (2 + n)) :
    (v.getUniqueID idGroup).1 =
        (if n < 16382 then packId v.publicIP idGroup (v.counter idGroup) else 0) ∧
      ((v.getUniqueID idGroup).2.counter idGroup).toNat = min 16384 (2 + (n + 1)) := by
  have hz : (v.counter idGroup ≤ 0 ∨ 16384 ≤ v.counter idGroup) ↔ ¬ n < 16382 := by
    rw [UInt64.le_iff_toNat_le, UInt64.le_iff_toNat_le, hn]
    simp only [UInt64.reduceToNat]
    omega
  rw [getUniqueID_served h]
  by_cases hlt : n < 16382
  · rw [if_neg (by tauto), if_pos hlt]
    refine ⟨rfl, ?_⟩
    rw [counter_insert, if_pos rfl, UInt64.toNat_add, hn]
    simp only [UInt64.reduceToNat]
    omega
  · rw [if_pos (by tauto), if_neg hlt]
    refine ⟨rfl, ?_⟩
    rw [counter_insert, if_pos rfl, hn]
    omega

theorem counter_getUniqueID_ne {g : Int} (h : idGroup ≠ g) :
    (v.getUniqueID idGroup).2.counter g = v.counter g := by
  by_cases hs : v.Served idGroup
  · rw [getUniqueID_served hs]
    split <;> rw [counter_insert, if_neg h]
  · rw [getUniqueID_refused hs]

end Call

section Runs

variable {T : Type*} [DecidableEq T] {hosts : T → IdAssigner}

theorem assign_append (hosts : T → IdAssigner) (pre post : List (T × Int)) :
    assign hosts (pre ++ post) = ((assign hosts pre).1 ++ (assign (assign hosts pre).2 post).1,
      (assign (assign hosts pre).2 post).2) := by
  induction pre generalizing hosts with
  | nil => rfl
  | cons c pre ih =>
    rw [List.cons_append, assign, ih]
    rfl

theorem length_assign (hosts : T → IdAssigner) (calls : List (T × Int)) :
    (assign hosts calls).1.length = calls.length := by
  induction calls generalizing hosts with
  | nil => rfl
  | cons c calls ih => rw [assign, List.length_cons, ih, List.length_cons]

/-- The hosts after the calls: the addresses have not changed and every counter stands behind
the calls made for its group. -/
structure Counted (hosts : T → IdAssigner) (calls : List (T × Int)) (now : T → IdAssigner) : Prop where
  id : ∀ t, (now t).id = (hosts t).id
  publicIP : ∀ t, (now t).publicIP = (hosts t).publicIP
  counter : ∀ t g, (hosts t).Served g → ((now t).counter g).toNat = min 16384 (2 + calls.count (t, g))

theorem Counted.served {calls : List (T × Int)} {now : T → IdAssigner} (h : Counted hosts calls now)
    (t : T) (g : Int) : (now t).Served g ↔ (hosts t).Served g := by
  rw [Served, Served, h.id]

theorem Counted.step {calls : List (T × Int)} {now : T → IdAssigner} (h : Counted hosts calls now)
    (t : T) (g : Int) :
    Counted hosts (calls ++ [(t, g)]) (Function.update now t ((now t).getUniqueID g).2) where
  id := by
    intro u
    by_cases hu : u = t
    · subst hu
      rw [Function.update_self, (getUniqueID_host _ _).1, h.id]
    · rw [Function.update_of_ne hu, h.id]
  publicIP := by
    intro u
    by_cases hu : u = t
    · subst hu
      rw [Function.update_self, (getUniqueID_host _ _).2, h.publicIP]
    · rw [Function.update_of_ne hu, h.publicIP]
  counter := by
    intro u g' hs
    have hc := h.counter u g' hs
    rw [List.count_append, List.count_singleton]
    by_cases hu : u = t
    · subst hu
      rw [Function.update_self]
      by_cases hg : g = g'
      · subst hg
        simpa using (counter_getUniqueID ((h.served u g).mpr hs) hc).2
      · rw [counter_getUniqueID_ne hg, hc]
        simp [hg]
    · rw [Function.update_of_ne hu, hc]
      simp [Ne.symm hu]

theorem assign_counted (hnew : ∀ t, (hosts t).idCounter = ∅) (calls : List (T × Int)) :
    Counted hosts calls (assign hosts calls).2 := by
  induction calls using List.reverseRecOn with
  | nil =>
    refine ⟨fun _ => rfl, fun _ => rfl, fun t g _ => ?_⟩
    simp [assign, counter, hnew, netIdRelay]
  | append_singleton calls c ih =>
    rw [assign_append]
    exact ih.step c.1 c.2

theorem assign_next (hnew : ∀ t, (hosts t).idCounter = ∅) (pre : List (T × Int)) (t : T) (g : Int) :
    (((assign hosts pre).2 t).getUniqueID g).1 =
      if isEntryPoint (hosts t).id = true ∧ 0 ≤ g ∧ g < 4 ∧ pre.count (t, g) < 16382 then
        packId (hosts t).publicIP g (((assign hosts pre).2 t).counter g)
      else 0 := by
  have hc := assign_counted hnew pre
  by_cases hs : (hosts t).Served g
  · have hn := (counter_getUniqueID ((hc.served t g).mpr hs) (hc.counter t g hs)).1
    obtain ⟨hid, hge, hlt⟩ := hs
    rw [hn, hc.publicIP]
    simp only [hid, hge, hlt, true_and]
  · rw [getUniqueID_refused (fun h => hs ((hc.served t g).mp h)), if_neg]
    exact fun h => hs ⟨h.1, h.2.1, h.2.2.1⟩

/-- The fields of an id that the `k`-th call for a group of the host returns. -/
structure Unpacks (v : IdAssigner) (g : Int) (k : Nat) (id : UInt64) : Prop where
  host : (extractHost id).toUInt32 = v.publicIP.host
  port : resolvePort id = v.publicIP.port.toUInt64
  group : extractIDGroup id = g
  number : (resolveAssignedID id).toNat = 2 + k
  notRelay : isEntryPoint id = false

theorem unpacks_packId {v : IdAssigner} {g : Int} {k : Nat} {number : UInt64} (hge : 0 ≤ g)
    (hlt : g < 4) (hk : k < 16382) (hn : number.toNat = 2 + k) :
    Unpacks v g k (packId v.publicIP g number) ∧
      resolveAssignedID (packId v.publicIP g number) = number ∧ packId v.publicIP g number ≠ 0 := by
  obtain ⟨n, rfl⟩ := Int.eq_ofNat_of_zero_le hge
  have hn4 : n < 4 := by omega
  have h14 : number.toNat < 2 ^ 14 := by omega
  have hr : resolveAssignedID (packId v.publicIP n number) = number :=
    resolveAssignedID_packId hn4 h14
  refine ⟨⟨extractHost_packId hn4 h14, resolvePort_packId hn4 h14, extractIDGroup_packId hn4 h14,
    by rw [hr, hn], isEntryPoint_packId hn4 h14 (by omega)⟩, hr, fun hz => ?_⟩
  rw [hz] at hr
  have h0 : number.toNat = 0 := by rw [← hr]; rfl
  omega

theorem assign_next_unpacks (hnew : ∀ t, (hosts t).idCounter = ∅) {pre : List (T × Int)} {t : T}
    {g : Int} (h : isEntryPoint (hosts t).id = true ∧ 0 ≤ g ∧ g < 4 ∧ pre.count (t, g) < 16382) :
    Unpacks (hosts t) g (pre.count (t, g)) (((assign hosts pre).2 t).getUniqueID g).1 ∧
      resolveAssignedID (((assign hosts pre).2 t).getUniqueID g).1 =
        ((assign hosts pre).2 t).counter g ∧ (((assign hosts pre).2 t).getUniqueID g).1 ≠ 0 := by
  have hn := (assign_counted hnew pre).counter t g ⟨h.1, h.2.1, h.2.2.1⟩
  rw [assign_next hnew, if_pos h]
  exact unpacks_packId h.2.1 h.2.2.1 h.2.2.2 (by omega)

theorem assign_next_ne_zero_iff (hnew : ∀ t, (hosts t).idCounter = ∅) (pre : List (T × Int)) (t : T)
    (g : Int) : (((assign hosts pre).2 t).getUniqueID g).1 ≠ 0 ↔
      isEntryPoint (hosts t).id = true ∧ 0 ≤ g ∧ g < 4 ∧ pre.count (t, g) < 16382 := by
  constructor
  · intro hne
    by_contra h
    exact hne (by rw [assign_next hnew, if_neg h])
  · intro h
    exact (assign_next_unpacks hnew h).2.2

theorem assign_unpacks (hnew : ∀ t, (hosts t).idCounter = ∅) (calls : List (T × Int)) :
    ∀ id ∈ (assign hosts calls).1, id ≠ 0 →
      ∃ t g k, k < calls.count (t, g) ∧ Unpacks (hosts t) g k id := by
  induction calls using List.reverseRecOn with
  | nil => simp [assign]
  | append_singleton calls c ih =>
    intro id hid hne
    rw [assign_append, List.mem_append] at hid
    rcases hid with hid | hid
    · obtain ⟨t, g, k, hk, hu⟩ := ih id hid hne
      exact ⟨t, g, k, by rw [List.count_append]; omega, hu⟩
    · obtain rfl := List.mem_singleton.mp hid
      have hs := (assign_next_ne_zero_iff hnew calls c.1 c.2).mp hne
      exact ⟨c.1, c.2, calls.count c, by simp, (assign_next_unpacks hnew hs).1⟩

theorem nodup_assign (hnew : ∀ t, (hosts t).idCounter = ∅)
    (hdistinct : ∀ t u, (hosts t).publicIP.host = (hosts u).publicIP.host →
      (hosts t).publicIP.port = (hosts u).publicIP.port → t = u) (calls : List (T × Int)) :
    ((assign hosts calls).1.filter (· ≠ 0)).Nodup := by
  induction calls using List.reverseRecOn with
  | nil => simp [assign]
  | append_singleton calls c ih =>
    rw [assign_append, List.filter_append]
    refine List.nodup_append'.mpr ⟨ih, (List.nodup_singleton _).filter _, ?_⟩
    intro id hold hnext
    obtain ⟨hmem, hne⟩ := List.mem_filter.mp hold
    obtain rfl := List.mem_singleton.mp (List.mem_of_mem_filter hnext)
    have hne := of_decide_eq_true hne
    obtain ⟨t, g, k, hk, hu⟩ := assign_unpacks hnew calls _ hmem hne
    have hs := (assign_next_ne_zero_iff hnew calls c.1 c.2).mp hne
    have hv := (assign_next_unpacks hnew hs).1
    -- equal ids name the same host and group, but the counter has moved on
    have hport : (hosts t).publicIP.port = (hosts c.1).publicIP.port := by
      apply UInt16.toNat_inj.mp
      rw [← UInt16.toNat_toUInt64, ← UInt16.toNat_toUInt64, ← hu.port, ← hv.port]
    obtain rfl : t = c.1 := hdistinct t c.1 (by rw [← hu.host, ← hv.host]) hport
    obtain rfl : g = c.2 := hu.group.symm.trans hv.group
    have hkn : 2 + k = 2 + calls.count c := hu.number.symm.trans hv.number
    have hlt : k < calls.count c := hk
    omega

/-- Ids are never given twice and never name an entry point; the fields of an id are the host's
address, the group and the counter, and a group has 16382 of them. -/
theorem getUniqueID_unique (hosts : T → IdAssigner) (hnew : ∀ t, (hosts t).idCounter = ∅)
    (hdistinct : ∀ t u, (hosts t).publicIP.host = (hosts u).publicIP.host →
      (hosts t).publicIP.port = (hosts u).publicIP.port → t = u) (calls : List (T × Int)) :
    ((assign hosts calls).1.filter (· ≠ 0)).Nodup ∧
    (∀ id ∈ (assign hosts calls).1, id ≠ 0 → isEntryPoint id = false) ∧
    ∀ pre t g post, calls = pre ++ (t, g) :: post →
      ∃ id, (assign hosts calls).1[pre.length]? = some id ∧
        (id ≠ 0 ↔ isEntryPoint (hosts t).id = true ∧ 0 ≤ g ∧ g < 4 ∧ pre.count (t, g) < 16382) ∧
        (id ≠ 0 → (extractHost id).toUInt32 = (hosts t).publicIP.host ∧
          resolvePort id = (hosts t).publicIP.port.toUInt64 ∧ extractIDGroup id = g ∧
          resolveAssignedID id = ((assign hosts pre).2 t).counter g ∧
          (resolveAssignedID id).toNat = 2 + pre.count (t, g)) := by
  refine ⟨nodup_assign hnew hdistinct calls, fun id hid hne => ?_, ?_⟩
  · obtain ⟨t, g, k, -, hu⟩ := assign_unpacks hnew calls id hid hne
    exact hu.notRelay
  · rintro pre t g post rfl
    refine ⟨(((assign hosts pre).2 t).getUniqueID g).1, ?_, assign_next_ne_zero_iff hnew pre t g, ?_⟩
    · rw [assign_append, List.getElem?_append_right (by rw [length_assign]), length_assign,
        Nat.sub_self]
      rfl
    · intro hne
      obtain ⟨hu, hnumber, -⟩ := assign_next_unpacks hnew ((assign_next_ne_zero_iff hnew pre t g).mp hne)
      exact ⟨hu.host, hu.port, hu.group, hnumber, hu.number⟩

def twoPorts (second : Bool) : IdAssigner :=
  let addr : IPaddr := ⟨0x0A000001, if second then 1038 else 1037, 0⟩
  ⟨resolveHostID addr, addr, ∅⟩

theorem getUniqueID_unique_ports :
    ((assign twoPorts [(true, 0), (false, 0), (true, 7), (true, 0)]).1.filter (· ≠ 0)).Nodup := by
  refine (getUniqueID_unique twoPorts (fun _ => rfl) (fun t u _ hport => ?_) _).1
  revert t u
  decide

end Runs

end IdAssigner

end VastNC
