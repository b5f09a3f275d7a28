import VastNC.Consumer
import VastNC.Lib.FallibleRun

/-! Delivery of one sender's packets across the wrap of the 8-bit ordering number, with
loss, duplication and reordering on the way. -/

namespace VastNC

open FallibleRun

/-- The packets that a sender numbers `0, 1, 2, …` for the host `publicIP`; packet `s`
carries `s` modulo `256`. -/
structure StreamTo (publicIP : IPaddr) (fromId : UInt64) (stream : Nat → UDPNCMessage) : Prop where
  pktIds : ∀ s, (stream s).pktIds.length ≤ 1
  fromIds : ∀ s, (stream s).fromIds = [fromId]
  toAddrs : ∀ s, ∃ addr, (stream s).toAddrs = [addr] ∧ publicIP.equals addr = true
  ordering : ∀ s, (stream s).getOrdering = UInt8.ofNat s

inductive Arrival where
  | packet (s : Nat) (socketAddr : IPaddr)
  | other (m : UDPNCMessage) (socketAddr : IPaddr)

structure Receipt where
  recvdOrdering : Orderings := ∅
  handed : List Nat := []

namespace Receipt

def step (publicIP : IPaddr) (stream : Nat → UDPNCMessage) (t : Receipt) :
    Arrival → Except Fault Receipt
  | .packet s socketAddr =>
    match Consumer.processInput publicIP t.recvdOrdering (stream s) socketAddr with
    | .ok r => .ok ⟨r.recvdOrdering, if r.handed.isSome then t.handed ++ [s] else t.handed⟩
    | .error f => .error f
  | .other m socketAddr =>
    match Consumer.processInput publicIP t.recvdOrdering m socketAddr with
    | .ok r => .ok { t with recvdOrdering := r.recvdOrdering }
    | .error f => .error f

def highest (t : Receipt) : Option Nat := t.handed.max?

def data (stream : Nat → UDPNCMessage) (t : Receipt) : List Nat :=
  t.handed.filter (fun s => (stream s).getMessageSize ≠ 0)

end Receipt

def Near (fromId : UInt64) (t : Receipt) : Arrival → Prop
  | .packet s _ => ∀ h, t.highest = some h → s ≤ h + 100 ∧ h ≤ s + 100
  | .other m _ => m.fromIds.head? ≠ some fromId

/-- No keepalive comes late, and no late data packet was numbered before the last wrap. -/
def Regular (stream : Nat → UDPNCMessage) (t : Receipt) : Arrival → Prop
  | .packet s _ => ∀ h, t.highest = some h →
      if (stream s).getMessageSize = 0 then h ≤ s else s ≤ h → s / 256 = h / 256
  | .other _ _ => True

section Delivery

variable {publicIP : IPaddr} {fromId : UInt64} {stream : Nat → UDPNCMessage}

/-- The stored ordering is that of the highest packet handed over, and the data packets
went out in increasing order. -/
structure Receipt.Inv (fromId : UInt64) (stream : Nat → UDPNCMessage) (t : Receipt) : Prop where
  stored : t.recvdOrdering[fromId]? = t.highest.map UInt8.ofNat
  increasing : (t.data stream).Pairwise (· < ·)

theorem ofNat_lt_iff (a b : Nat) : UInt8.ofNat a < UInt8.ofNat b ↔ a % 256 < b % 256 := by
  simp [UInt8.lt_iff_toNat_lt]

theorem newer_of_accepted {h s : Nat} (h1 : s ≤ h + 100) (h2 : h ≤ s + 100)
    (hblock : s ≤ h → s / 256 = h / 256)
    (hacc : UInt8.ofNat h < UInt8.ofNat s ∨
      (lowestResetPacketOrderingNumber ≤ UInt8.ofNat h ∧
        UInt8.ofNat s < highestResetAcceptingOrderingNumber)) : h < s := by
  have hlow : lowestResetPacketOrderingNumber ≤ UInt8.ofNat h ↔ 240 ≤ h % 256 := by
    simp [lowestResetPacketOrderingNumber, UInt8.le_iff_toNat_le]
  have hhigh : UInt8.ofNat s < highestResetAcceptingOrderingNumber ↔ s % 256 < 10 := by
    simp [highestResetAcceptingOrderingNumber, UInt8.lt_iff_toNat_lt]
  rw [ofNat_lt_iff, hlow, hhigh] at hacc
  by_contra hle
  have hb := hblock (by omega)
  omega

theorem highest_append {t : Receipt} {s : Nat} (hs : ∀ h, t.highest = some h → h ≤ s)
    (recvd : Orderings) : Receipt.highest ⟨recvd, t.handed ++ [s]⟩ = some s := by
  have hm : ∀ x ∈ t.handed, x ≤ s := by
    intro x hx
    cases hh : t.handed.max? with
    | none => simp [List.max?_eq_none_iff.mp hh] at hx
    | some h => exact (List.max?_eq_some_iff.mp hh).2 x hx |>.trans (hs h hh)
  rw [Receipt.highest, List.max?_eq_some_iff]
  refine ⟨by simp, fun x hx => ?_⟩
  rcases List.mem_append.mp hx with hx | hx
  · exact hm x hx
  · exact (List.mem_singleton.mp hx).le

theorem step_packet_inv (hst : StreamTo publicIP fromId stream) (hid : fromId ≠ netIdUnassigned)
    {t t' : Receipt} {s : Nat} {socketAddr : IPaddr} (hi : t.Inv fromId stream)
    (hnear : Near fromId t (.packet s socketAddr)) (hreg : Regular stream t (.packet s socketAddr))
    (h : t.step publicIP stream (.packet s socketAddr) = .ok t') : t'.Inv fromId stream := by
  obtain ⟨addr, ha, hp⟩ := hst.toAddrs s
  obtain ⟨r, hr, -, hcases⟩ := Consumer.orderInput_spec t.recvdOrdering socketAddr (hst.fromIds s)
  rw [← Consumer.processInput_mine (hst.pktIds s) ha hp] at hr
  simp only [Receipt.step, hr, Except.ok.injEq] at h
  rcases hcases with ⟨hacc, hhand, hord⟩ | ⟨-, rfl⟩
  · rw [hhand] at h
    subst h
    -- what is handed over is at least the highest number so far, and a data packet is above it
    have hnew : ∀ n, t.highest = some n → n ≤ s ∧ ((stream s).getMessageSize ≠ 0 → n < s) := by
      intro n hn
      obtain ⟨h1, h2⟩ := hnear n hn
      have hb := hreg n hn
      by_cases hz : (stream s).getMessageSize = 0
      · rw [if_pos hz] at hb
        exact ⟨hb, fun hne => absurd hz hne⟩
      · rw [if_neg hz] at hb
        have hlt : n < s := by
          rcases Consumer.acceptOrdering_isSome_iff.mp hacc with hz' | hf | hlast
          · exact absurd hz' hz
          · exact absurd hf hid
          · have hl := hlast (UInt8.ofNat n) (by rw [hi.stored, hn]; rfl)
            rw [hst.ordering s] at hl
            exact newer_of_accepted h1 h2 hb hl
        exact ⟨hlt.le, fun _ => hlt⟩
    refine ⟨?_, ?_⟩
    · rw [Option.isSome_some, if_pos rfl, highest_append (fun n hn => (hnew n hn).1), hord,
        hst.ordering s]
      rfl
    · simp only [Receipt.data, Option.isSome_some, if_true, List.filter_append]
      by_cases hz : (stream s).getMessageSize = 0
      · simpa [hz, Receipt.data] using hi.increasing
      · have hsing : [s].filter (fun s => (stream s).getMessageSize ≠ 0) = [s] := by simp [hz]
        rw [hsing, List.pairwise_append]
        refine ⟨hi.increasing, List.pairwise_singleton _ _, fun x hx y hy => ?_⟩
        rw [List.mem_singleton.mp hy]
        have hx' : x ∈ t.handed := List.mem_of_mem_filter hx
        cases hh : t.highest with
        | none => simp [List.max?_eq_none_iff.mp hh] at hx'
        | some n =>
          have hle := (List.max?_eq_some_iff.mp hh).2 x hx'
          have hlt := (hnew n hh).2 hz
          omega
  · subst h
    exact hi

theorem step_other_inv {t t' : Receipt} {m : UDPNCMessage} {socketAddr : IPaddr}
    (hi : t.Inv fromId stream) (hnear : Near fromId t (.other m socketAddr))
    (h : t.step publicIP stream (.other m socketAddr) = .ok t') : t'.Inv fromId stream := by
  cases hr : Consumer.processInput publicIP t.recvdOrdering m socketAddr with
  | error f => simp [Receipt.step, hr] at h
  | ok r =>
    simp only [Receipt.step, hr, Except.ok.injEq] at h
    subst h
    exact ⟨(Consumer.processInput_frame hr hnear).trans hi.stored, hi.increasing⟩

/-- At most once and never backwards, in every run whose steps are regular. -/
theorem delivery_increasing (hst : StreamTo publicIP fromId stream)
    (hid : fromId ≠ netIdUnassigned) (arrivals : List Arrival) (t : Receipt)
    (hrun : run (Receipt.step publicIP stream) {} arrivals = .ok t)
    (hall : Along (Receipt.step publicIP stream)
      (fun t a => Near fromId t a ∧ Regular stream t a) {} arrivals) :
    (t.data stream).Pairwise (· < ·) ∧ (t.data stream).Nodup := by
  have hinit : Receipt.Inv fromId stream {} := ⟨by simp [Receipt.highest], List.Pairwise.nil⟩
  have hinv := run_along (Receipt.Inv fromId stream) (fun t a t' hi hc h => by
    cases a with
    | packet s socketAddr => exact step_packet_inv hst hid hi hc.1 hc.2 h
    | other m socketAddr => exact step_other_inv hi hc.1 h) hinit hall hrun
  exact ⟨hinv.increasing, hinv.increasing.imp (fun hab => Nat.ne_of_lt hab)⟩

end Delivery

def sampleStream (s : Nat) : UDPNCMessage :=
  .single ⟨startBits, 0, 1#4, 0, 0, 0, 0, endBits⟩ (UInt64.ofNat s) 5 ⟨0x0A000001, 1037, 0⟩
    (UInt8.ofNat s) [1]

theorem sampleStream_streamTo : StreamTo ⟨0x0A000001, 1037, 0⟩ 5 sampleStream where
  pktIds _ := le_rfl
  fromIds _ := rfl
  toAddrs _ := ⟨_, rfl, rfl⟩
  ordering _ := rfl

theorem near_of_highest {fromId : UInt64} {t : Receipt} {h s : Nat} (socketAddr : IPaddr)
    (hh : t.highest = some h) (h1 : s ≤ h + 100) (h2 : h ≤ s + 100) :
    Near fromId t (.packet s socketAddr) := by
  intro n hn
  rw [hh, Option.some.injEq] at hn
  omega

theorem delivery_increasing_at_wrap :
    ∃ t, run (Receipt.step ⟨0x0A000001, 1037, 0⟩ sampleStream) {}
        [.packet 255 ⟨0, 0, 0⟩, .packet 256 ⟨0, 0, 0⟩, .packet 256 ⟨0, 0, 0⟩] = .ok t ∧
      t.data sampleStream = [255, 256] ∧ (t.data sampleStream).Pairwise (· < ·) := by
  let t1 : Receipt := ⟨((∅ : Orderings).insert 5 255).insert 5 255, [255]⟩
  let t2 : Receipt := ⟨(t1.recvdOrdering.insert 5 0).insert 5 0, [255, 256]⟩
  have h1 : Receipt.step ⟨0x0A000001, 1037, 0⟩ sampleStream {} (.packet 255 ⟨0, 0, 0⟩) = .ok t1 := rfl
  have h2 : Receipt.step ⟨0x0A000001, 1037, 0⟩ sampleStream t1 (.packet 256 ⟨0, 0, 0⟩) = .ok t2 := rfl
  have h3 : Receipt.step ⟨0x0A000001, 1037, 0⟩ sampleStream t2 (.packet 256 ⟨0, 0, 0⟩) = .ok t2 := rfl
  have hrun : run (Receipt.step ⟨0x0A000001, 1037, 0⟩ sampleStream) {}
      [.packet 255 ⟨0, 0, 0⟩, .packet 256 ⟨0, 0, 0⟩, .packet 256 ⟨0, 0, 0⟩] = .ok t2 := by
    rw [run_cons h1, run_cons h2, run_cons h3]
    rfl
  have hreg {t : Receipt} {h s : Nat} (hh : t.highest = some h) (hs : s ≤ h → s / 256 = h / 256) :
      Regular sampleStream t (.packet s ⟨0, 0, 0⟩) := by
    intro n hn
    rw [hh, Option.some.injEq] at hn
    subst hn
    rw [if_neg (show (sampleStream s).getMessageSize ≠ 0 from Nat.one_ne_zero)]
    exact hs
  refine ⟨t2, hrun, rfl, (delivery_increasing sampleStream_streamTo (by decide) _ t2 hrun ?_).1⟩
  refine .cons h1 ⟨fun n hn => by simp [Receipt.highest] at hn,
    fun n hn => by simp [Receipt.highest] at hn⟩ (.cons h2 ⟨?_, ?_⟩ (.cons h3 ⟨?_, ?_⟩ trivial))
  · exact near_of_highest (h := 255) _ rfl (by omega) (by omega)
  · exact hreg (h := 255) rfl (by omega)
  · exact near_of_highest (h := 256) _ rfl (by omega) (by omega)
  · exact hreg (h := 256) rfl (by omega)

/-- A copy of packet 255 that comes behind packet 256 is handed over again. -/
theorem delivery_repeats_at_wrap :
    ∃ t, run (Receipt.step ⟨0x0A000001, 1037, 0⟩ sampleStream) {}
        [.packet 255 ⟨0, 0, 0⟩, .packet 256 ⟨0, 0, 0⟩, .packet 255 ⟨0, 0, 0⟩] = .ok t ∧
      Along (Receipt.step ⟨0x0A000001, 1037, 0⟩ sampleStream) (Near 5) {}
        [.packet 255 ⟨0, 0, 0⟩, .packet 256 ⟨0, 0, 0⟩, .packet 255 ⟨0, 0, 0⟩] ∧
      t.data sampleStream = [255, 256, 255] ∧ ¬ (t.data sampleStream).Nodup := by
  let t1 : Receipt := ⟨((∅ : Orderings).insert 5 255).insert 5 255, [255]⟩
  let t2 : Receipt := ⟨(t1.recvdOrdering.insert 5 0).insert 5 0, [255, 256]⟩
  let t3 : Receipt := ⟨t2.recvdOrdering.insert 5 255, [255, 256, 255]⟩
  have h1 : Receipt.step ⟨0x0A000001, 1037, 0⟩ sampleStream {} (.packet 255 ⟨0, 0, 0⟩) = .ok t1 := rfl
  have h2 : Receipt.step ⟨0x0A000001, 1037, 0⟩ sampleStream t1 (.packet 256 ⟨0, 0, 0⟩) = .ok t2 := rfl
  have h3 : Receipt.step ⟨0x0A000001, 1037, 0⟩ sampleStream t2 (.packet 255 ⟨0, 0, 0⟩) = .ok t3 := rfl
  refine ⟨t3, ?_, ?_, rfl, ?_⟩
  · rw [run_cons h1, run_cons h2, run_cons h3]
    rfl
  · refine .cons h1 (fun n hn => by simp [Receipt.highest] at hn)
      (.cons h2 ?_ (.cons h3 ?_ trivial))
    · exact near_of_highest (h := 255) _ rfl (by omega) (by omega)
    · exact near_of_highest (h := 256) _ rfl (by omega) (by omega)
  · have hd : t3.data sampleStream = [255, 256, 255] := rfl
    rw [hd]
    simp

end VastNC
