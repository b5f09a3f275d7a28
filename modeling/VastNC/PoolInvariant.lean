import VastNC.Listener
import VastNC.WireFormat

/-! The pool of the coding host over whole runs: one host at a time, and every pooled
packet goes into at most one coded message. -/

namespace VastNC

open FallibleRun

section Pool

variable {pool : PacketPool} {m n p q : UDPNCMessage} {key key1 key2 : UInt64}

theorem getElem?_erase_pair :
    ((pool.erase key1).erase key2)[key]? = some n ↔
      key ≠ key1 ∧ key ≠ key2 ∧ pool[key]? = some n := by
  rw [Std.ExtTreeMap.getElem?_erase, Std.ExtTreeMap.getElem?_erase]
  by_cases h2 : key2 = key
  · simp [h2]
  · by_cases h1 : key1 = key
    · simp [h1]
    · simp [h1, h2, Ne.symm h1, Ne.symm h2]

theorem getElem?_pooledWith (h : Admissible m) (hn : (pooledWith pool m)[key]? = some n) :
    (n = m ∧ m.pktIds = [key]) ∨ (m.pktIds ≠ [key] ∧ pool[key]? = some n) ∨
      (maxPacketSize ≤ m.sizeOf ∧ pool[key]? = some n) := by
  by_cases hz : m.sizeOf < maxPacketSize
  · obtain ⟨⟨pktId, fromId, addr, hu, -⟩, -⟩ := h
    rw [pooledWith, if_pos hz, Std.ExtTreeMap.getElem?_insert, hu.pktIds, List.headD_cons] at hn
    by_cases hk : pktId = key
    · rw [if_pos (by simp [hk]), Option.some.injEq] at hn
      exact .inl ⟨hn.symm, by rw [hu.pktIds, hk]⟩
    · rw [if_neg (by simpa using hk)] at hn
      refine .inr (.inl ⟨?_, hn⟩)
      rw [hu.pktIds]
      simpa using hk
  · rw [pooledWith, if_neg hz] at hn
    exact .inr (.inr ⟨by omega, hn⟩)

/-- Two hosts in the pool behind an admission: one of the two packets is the new one,
so what is left when both are gone is of the old host. -/
theorem oneHost_erase_pair (h : Admissible m) (hone : OneHost pool)
    (h1 : (pooledWith pool m)[key1]? = some p) (h2 : (pooledWith pool m)[key2]? = some q)
    (hne : p.fromIds ≠ q.fromIds) : OneHost (((pooledWith pool m).erase key1).erase key2) := by
  obtain ⟨f, hf⟩ := hone
  have hnew : m.pktIds = [key1] ∨ m.pktIds = [key2] := by
    rcases getElem?_pooledWith h h1 with ⟨-, hk⟩ | ⟨-, ho1⟩ | ⟨-, ho1⟩
    · exact .inl hk
    all_goals
      rcases getElem?_pooledWith h h2 with ⟨-, hk⟩ | ⟨-, ho2⟩ | ⟨-, ho2⟩
      · exact .inr hk
      all_goals exact absurd ((hf _ _ ho1).trans (hf _ _ ho2).symm) hne
  refine ⟨f, fun key n hn => ?_⟩
  obtain ⟨hk1, hk2, hn⟩ := getElem?_erase_pair.mp hn
  rcases getElem?_pooledWith h hn with ⟨-, hk⟩ | ⟨-, ho⟩ | ⟨-, ho⟩
  · rcases hnew with hw | hw
    · exact absurd (by simpa using hk.symm.trans hw) hk1
    · exact absurd (by simpa using hk.symm.trans hw) hk2
  · exact hf _ _ ho
  · exact hf _ _ ho

end Pool

theorem ListenerStep.inv {K : Kodo} {l l' : Listener} {m : UDPNCMessage}
    (h : ListenerStep K l m l') (hp : PoolEntries l.recoder.packetPool)
    (hone : OneHost l.recoder.packetPool) :
    PoolEntries l'.recoder.packetPool ∧ OneHost l'.recoder.packetPool := by
  cases h with
  | ignored _ heq =>
    rw [heq]
    exact ⟨hp, hone⟩
  | pooled hm hone' hpool _ =>
    rw [hpool]
    exact ⟨hm.poolEntries hp, hone'⟩
  | coded hm key1 key2 p q c h1 h2 _ hne _ _ hpool _ _ =>
    rw [hpool]
    refine ⟨fun key n hn => ?_, oneHost_erase_pair hm hone h1 h2 hne⟩
    exact hm.poolEntries hp key n (getElem?_erase_pair.mp hn).2.2

/-- A listener with a ledger of occurrences: `stamps` gives for an id the number of the
datagram that was last pooled under it, and `used` lists the stamps of the packets that
went into coded messages. -/
structure Ledger where
  listener : Listener
  arrived : List UDPNCMessage := []
  stamps : UInt64 → Option Nat := fun _ => none
  used : List (Option Nat) := []

def restamp (stamps : UInt64 → Option Nat) (m : UDPNCMessage) (now : Nat) : UInt64 → Option Nat :=
  if m.fromIds ≠ [netIdUnassigned] ∧ m.getMessageSize ≠ 0 ∧ m.sizeOf < maxPacketSize then
    Function.update stamps (m.pktIds.headD 0) (some now)
  else stamps

def Ledger.record (g : Ledger) (m : UDPNCMessage) (l : Listener) : Ledger :=
  let stamps := restamp g.stamps m g.arrived.length
  let appended := l.msgs.drop g.listener.msgs.length
  { listener := l
    arrived := g.arrived ++ [m]
    stamps
    used := g.used ++ (appended.flatMap (fun c => c.pktIds)).map stamps }

def Ledger.step (K : Kodo) (g : Ledger) (d : Datagram) : Except Fault Ledger :=
  match g.listener.processInput K d with
  | .error f => .error f
  | .ok l => .ok (g.record d.parse.msg l)

structure Stamped (pool : PacketPool) (arrived : List UDPNCMessage) (stamps : UInt64 → Option Nat)
    (used : List (Option Nat)) : Prop where
  pooled : ∀ (key : UInt64) (m : UDPNCMessage), pool[key]? = some m →
    ∃ t, stamps key = some t ∧ some t ∉ used ∧ arrived[t]? = some m
  named : ∀ key t, stamps key = some t → ∃ m, arrived[t]? = some m ∧ m.pktIds = [key]
  spent : ∀ o ∈ used, ∃ t < arrived.length, o = some t
  nodup : used.Nodup

namespace Stamped

variable {pool : PacketPool} {arrived : List UDPNCMessage} {stamps : UInt64 → Option Nat}
  {used : List (Option Nat)} {m : UDPNCMessage}

theorem getElem?_arrived {t : Nat} {n : UDPNCMessage} (m : UDPNCMessage)
    (h : arrived[t]? = some n) : (arrived ++ [m])[t]? = some n := by
  rw [List.getElem?_append_left (List.getElem?_eq_some_iff.mp h).1, h]

theorem arrive (h : Stamped pool arrived stamps used) (m : UDPNCMessage) :
    Stamped pool (arrived ++ [m]) stamps used where
  pooled key n hn := by
    obtain ⟨t, ht, hu, ha⟩ := h.pooled key n hn
    exact ⟨t, ht, hu, getElem?_arrived m ha⟩
  named key t ht := by
    obtain ⟨n, ha, hk⟩ := h.named key t ht
    exact ⟨n, getElem?_arrived m ha, hk⟩
  spent o ho := by
    obtain ⟨t, ht, he⟩ := h.spent o ho
    exact ⟨t, by simp only [List.length_append, List.length_singleton]; omega, he⟩
  nodup := h.nodup

theorem restamp_eq (hm : Admissible m) (hz : m.sizeOf < maxPacketSize) (now : Nat) :
    restamp stamps m now = Function.update stamps (m.pktIds.headD 0) (some now) := by
  obtain ⟨⟨pktId, fromId, addr, hu, hf⟩, hps⟩ := hm
  refine if_pos ⟨?_, by omega, hz⟩
  rw [hu.fromIds]
  simpa using hf

theorem enter (h : Stamped pool arrived stamps used) (hm : Admissible m) :
    Stamped (pooledWith pool m) (arrived ++ [m]) (restamp stamps m arrived.length) used := by
  by_cases hz : m.sizeOf < maxPacketSize
  · rw [restamp_eq hm hz]
    have ha := h.arrive m
    have hlast : (arrived ++ [m])[arrived.length]? = some m := by simp
    have hfresh : some arrived.length ∉ used := by
      intro ho
      obtain ⟨t, ht, he⟩ := h.spent _ ho
      rw [Option.some.injEq] at he
      omega
    have hids : ∀ key, m.pktIds = [key] ↔ key = m.pktIds.headD 0 := by
      obtain ⟨⟨pktId, fromId, addr, hu, -⟩, -⟩ := hm
      intro key
      rw [hu.pktIds, List.headD_cons]
      simp [eq_comm]
    refine ⟨fun key n hn => ?_, fun key t ht => ?_, ha.spent, h.nodup⟩
    · rcases getElem?_pooledWith hm hn with ⟨rfl, hk⟩ | ⟨hk, ho⟩ | ⟨hbig, -⟩
      · rw [(hids key).mp hk, Function.update_self]
        exact ⟨_, rfl, hfresh, hlast⟩
      · rw [Function.update_of_ne (mt (hids key).mpr hk)]
        exact ha.pooled key n ho
      · omega
    · by_cases hk : key = m.pktIds.headD 0
      · rw [hk, Function.update_self, Option.some.injEq] at ht
        rw [← ht]
        exact ⟨m, hlast, (hids key).mpr hk⟩
      · rw [Function.update_of_ne hk] at ht
        exact ha.named key t ht
  · have hs : restamp stamps m arrived.length = stamps := if_neg (by tauto)
    rw [pooledWith, if_neg hz, hs]
    exact h.arrive m

theorem stamps_inj (h : Stamped pool arrived stamps used) {key key' : UInt64} {t : Nat}
    (hk : stamps key = some t) (hk' : stamps key' = some t) : key = key' := by
  obtain ⟨m, ha, hm⟩ := h.named key t hk
  obtain ⟨m', ha', hm'⟩ := h.named key' t hk'
  rw [ha, Option.some.injEq] at ha'
  rw [ha', hm', List.cons.injEq] at hm
  exact hm.1.symm

theorem consume (h : Stamped pool arrived stamps used) {key1 key2 : UInt64} {p q : UDPNCMessage}
    (h1 : pool[key1]? = some p) (h2 : pool[key2]? = some q) (hne : key1 ≠ key2) :
    Stamped ((pool.erase key1).erase key2) arrived stamps (used ++ [stamps key1, stamps key2]) := by
  obtain ⟨t1, hs1, hu1, ha1⟩ := h.pooled key1 p h1
  obtain ⟨t2, hs2, hu2, ha2⟩ := h.pooled key2 q h2
  have ht : t1 ≠ t2 := by
    rintro rfl
    exact hne (h.stamps_inj hs1 hs2)
  refine ⟨fun key n hn => ?_, h.named, fun o ho => ?_, ?_⟩
  · obtain ⟨hk1, hk2, hn⟩ := getElem?_erase_pair.mp hn
    obtain ⟨t, hs, hu, ha⟩ := h.pooled key n hn
    refine ⟨t, hs, fun hin => ?_, ha⟩
    rw [hs1, hs2, List.mem_append, List.mem_pair, Option.some.injEq, Option.some.injEq] at hin
    rcases hin with hin | rfl | rfl
    · exact hu hin
    · exact hk1 (h.stamps_inj hs hs1)
    · exact hk2 (h.stamps_inj hs hs2)
  · rw [List.mem_append, List.mem_pair] at ho
    rcases ho with ho | rfl | rfl
    · exact h.spent o ho
    · exact ⟨t1, (List.getElem?_eq_some_iff.mp ha1).1, hs1⟩
    · exact ⟨t2, (List.getElem?_eq_some_iff.mp ha2).1, hs2⟩
  · rw [hs1, hs2, List.nodup_append]
    refine ⟨h.nodup, by simpa using ht, ?_⟩
    intro a ha b hb
    rw [List.mem_pair] at hb
    rintro rfl
    rcases hb with rfl | rfl
    · exact hu1 ha
    · exact hu2 ha

end Stamped

namespace Ledger

variable {K : Kodo} {g : Ledger} {d : Datagram}

structure Inv (g : Ledger) : Prop where
  entries : PoolEntries g.listener.recoder.packetPool
  oneHost : OneHost g.listener.recoder.packetPool
  stamped : Stamped g.listener.recoder.packetPool g.arrived g.stamps g.used

theorem start_inv (padding : BitVec 4) : Inv { listener := .start padding } where
  entries key m hm := by simp [Listener.start] at hm
  oneHost := ⟨0, fun key m hm => by simp [Listener.start] at hm⟩
  stamped := ⟨fun key m hm => by simp [Listener.start] at hm, by simp, by simp, List.nodup_nil⟩

theorem step_eq {l : Listener} (h : g.listener.processInput K d = .ok l) :
    g.step K d = .ok (g.record d.parse.msg l) := by
  simp only [step, h]

theorem step_inv (hg : g.Inv) (hd : d.Complete) (hc : d.header.encPacketCount.toNat = 1) :
    ∃ g', g.step K d = .ok g' ∧ g.listener.processInput K d = .ok g'.listener ∧
      ListenerStep K g.listener d.parse.msg g'.listener ∧ g'.Inv := by
  obtain ⟨hs, hv, -, -, hr⟩ := hd.spec
  obtain ⟨l, hl, hstep⟩ := Listener.processInput_uncoded (K := K) hg.entries hs hv hc hr
  obtain ⟨he, ho⟩ := hstep.inv hg.entries hg.oneHost
  refine ⟨g.record d.parse.msg l, step_eq hl, hl, hstep, he, ho, ?_⟩
  simp only [record]
  cases hstep with
  | ignored hm heq =>
    have hst : restamp g.stamps d.parse.msg g.arrived.length = g.stamps := if_neg (by tauto)
    simp only [heq, hst, List.drop_length, List.flatMap_nil, List.map_nil, List.append_nil]
    exact hg.stamped.arrive d.parse.msg
  | pooled hm hone hpool hmsgs =>
    simp only [hpool, hmsgs, List.drop_length, List.flatMap_nil, List.map_nil, List.append_nil]
    exact hg.stamped.enter hm
  | coded hm key1 key2 p q c h1 h2 hkeys hne hids hcomb hpool hcount hmsgs =>
    simp only [hpool, hmsgs, List.drop_left, List.flatMap_cons, List.flatMap_nil, hids,
      List.append_nil, List.map_cons, List.map_nil]
    exact (hg.stamped.enter hm).consume h1 h2 hkeys

theorem run_listener {ds : List Datagram} {g' : Ledger} (h : run (step K) g ds = .ok g') :
    run (Listener.processInput K) g.listener ds = .ok g'.listener := by
  induction ds generalizing g with
  | nil =>
    obtain rfl : g = g' := by simpa [run] using h
    rfl
  | cons d ds ih =>
    cases hl : g.listener.processInput K d with
    | error f => simp [run, step, hl] at h
    | ok l =>
      rw [run_cons (step_eq hl)] at h
      rw [run_cons hl]
      exact ih h

end Ledger

/-- Runs of the coding host on complete datagrams of one id each. -/
theorem pool_invariant (K : Kodo) (padding : BitVec 4) (ds : List Datagram)
    (hds : ∀ d ∈ ds, d.Complete ∧ d.header.encPacketCount.toNat = 1) :
    ∃ g : Ledger, run (Ledger.step K) { listener := .start padding } ds = .ok g ∧
      run (Listener.processInput K) (.start padding) ds = .ok g.listener ∧
      OneHost g.listener.recoder.packetPool ∧
      (∀ (key : UInt64) (m : UDPNCMessage), g.listener.recoder.packetPool[key]? = some m →
        m.pktIds = [key] ∧ (∃ f, m.fromIds = [f] ∧ f ≠ netIdUnassigned) ∧ 0 < m.getMessageSize ∧
          ∃ w n, m.serialize = .ok (w, n) ∧ w.length < maxPacketSize ∧ n < maxPacketSize) ∧
      (g.used.Nodup ∧ none ∉ g.used) ∧
      ∀ d : Datagram, d.Complete → d.header.encPacketCount.toNat = 1 →
        ∃ l', g.listener.processInput K d = .ok l' ∧ ListenerStep K g.listener d.parse.msg l' := by
  have htotal : ∃ g, run (Ledger.step K) { listener := .start padding } ds = .ok g ∧ g.Inv := by
    refine run_total Ledger.Inv _ (fun g d hg hd => ?_) (Ledger.start_inv padding) hds
    obtain ⟨g', h, -, -, hg'⟩ := Ledger.step_inv (K := K) hg hd.1 hd.2
    exact ⟨g', h, hg'⟩
  obtain ⟨g, hrun, hg⟩ := htotal
  refine ⟨g, hrun, Ledger.run_listener hrun, hg.oneHost, fun key m hm => ?_,
    ⟨hg.stamped.nodup, ?_⟩, fun d hd hc => ?_⟩
  · have he := hg.entries key m hm
    obtain ⟨f, a, hu, hf⟩ := he.uncoded
    obtain ⟨w, hw, hl⟩ := hu.serialize
    have hz := he.sizeOf
    exact ⟨hu.pktIds, ⟨f, hu.fromIds, hf⟩, he.packetsize, w, m.sizeOf, hw, by omega, hz⟩
  · intro hn
    obtain ⟨t, -, ht⟩ := hg.stamped.spent none hn
    cases ht
  · obtain ⟨g', -, hl, hstep, -⟩ := Ledger.step_inv (K := K) hg hd hc
    exact ⟨g'.listener, hl, hstep⟩

theorem pool_invariant_two_hosts :
    ∃ g : Ledger, run (Ledger.step Kodo.elimination) { listener := .start 0 }
        [(samplePacket 7 5 ⟨0x0A000001, 1037, 0⟩).datagram,
          (samplePacket 8 6 ⟨0x0A000002, 1037, 0⟩).datagram] = .ok g ∧
      OneHost g.listener.recoder.packetPool ∧ g.used.Nodup := by
  have hone (pktId fromId : UInt64) (addr : IPaddr) :
      (samplePacket pktId fromId addr).datagram.Complete ∧
        (samplePacket pktId fromId addr).datagram.header.encPacketCount.toNat = 1 := by
    obtain ⟨hc, hh, -⟩ := UDPNCMessage.datagram_spec (samplePacket_sized pktId fromId addr) rfl
    exact ⟨hc, by rw [hh]; rfl⟩
  obtain ⟨g, hrun, -, ho, -, hu, -⟩ := pool_invariant Kodo.elimination 0 _
    (List.forall_mem_cons.mpr ⟨hone 7 5 ⟨0x0A000001, 1037, 0⟩,
      List.forall_mem_cons.mpr ⟨hone 8 6 ⟨0x0A000002, 1037, 0⟩, List.forall_mem_nil _⟩⟩)
  exact ⟨g, hrun, ho, hu.1⟩

end VastNC
