import VastNC.AreaAgreement
import VastNC.Lib.Narrowing

/-! `SYNC_CLOCK`: a client asks the gateway for its time and adjusts its own to it, with any number of
requests under way. -/

namespace VastNC

open Narrowing

namespace AreaClient

variable {c : AreaClient} {clock sent gateway : UInt64}

theorem toNat_ofInt (x : Int) : ((UInt64.ofInt x).toNat : Int) = x % 2 ^ 64 := by
  have hlt : x % 2 ^ 64 < 2 ^ 64 := Int.emod_lt_of_pos x (by decide)
  have hle : 0 ≤ x % 2 ^ 64 := Int.emod_nonneg x (by decide)
  rw [UInt64.ofInt, UInt64.toNat_ofNat', Nat.mod_eq_of_lt (by omega), Int.toNat_of_nonneg hle]

theorem toBitVec_ofInt (i : Int32) : (UInt64.ofInt i.toInt).toBitVec = i.toBitVec.signExtend 64 := by
  apply BitVec.eq_of_toNat_eq
  have h : ((BitVec.ofInt 64 i.toInt).toNat : Int) = i.toInt % 2 ^ 64 := by
    rw [BitVec.toNat_ofInt, Int.toNat_of_nonneg (Int.emod_nonneg _ (by decide))]
    rfl
  have h' := toNat_ofInt i.toInt
  exact Int.ofNat_inj.mp (h'.trans h.symm)

/-- Either way round the difference is taken, the adjustment is its low half. -/
theorem toBitVec_syncClock (c : AreaClient) (clock sent gateway : UInt64) :
    (c.syncClock clock sent gateway).timeAdjust.toBitVec = c.timeAdjust.toBitVec +
      (gateway + (c.getTimestamp clock - sent) / 2 - c.getTimestamp clock).toBitVec.setWidth 32 := by
  have hlow (x : UInt64) : x.toInt64.toInt32.toBitVec = x.toBitVec.setWidth 32 :=
    BitVec.signExtend_eq_setWidth_of_le _ (by decide)
  simp only [syncClock]
  split
  · rw [Int32.toBitVec_add, hlow]
  · rw [Int32.toBitVec_add, Int32.toBitVec_neg, hlow, ← BitVec.setWidth_neg_of_le (by decide), ← UInt64.toBitVec_neg]
    congr 3
    grind

/-- Two readings of an adjusted clock differ by the time between them and by what the adjustment has moved. -/
theorem toNat_elapsed (clock clock' : UInt64) (a b : Int32) :
    (((clock + UInt64.ofInt a.toInt) - (clock' + UInt64.ofInt b.toInt)).toNat : Int) =
      ((clock - clock').toNat + (a.toInt - b.toInt)) % 2 ^ 64 := by
  have hsub : (clock + UInt64.ofInt a.toInt) - (clock' + UInt64.ofInt b.toInt) =
      (clock - clock') + UInt64.ofInt (a.toInt - b.toInt) := by
    rw [Int.sub_eq_add_neg, UInt64.ofInt_add, UInt64.ofInt_neg]
    grind
  rw [hsub, UInt64.toNat_add, Int.natCast_mod, Int.natCast_add, toNat_ofInt]
  exact Int.add_emod_emod _ _ _

/-- The signed 64-bit value of a word is that of some `int`. -/
def IntValue (x : UInt64) : Prop := -2 ^ 31 ≤ x.toInt64.toInt ∧ x.toInt64.toInt < 2 ^ 31

instance (x : UInt64) : Decidable (IntValue x) := inferInstanceAs (Decidable (_ ∧ _))

theorem setWidth_eq_iff (x y z : UInt64) : (z + x).toBitVec.setWidth 32 = (z + y).toBitVec.setWidth 32 ↔
    x.toNat % 2 ^ 32 = y.toNat % 2 ^ 32 := by
  have hadd (x : UInt64) : (z + x).toBitVec.setWidth 32 = z.toBitVec.setWidth 32 + x.toBitVec.setWidth 32 :=
    BitVec.setWidth_add _ _ (by decide)
  rw [hadd, hadd, add_right_inj, ← BitVec.toNat_inj, BitVec.toNat_setWidth, BitVec.toNat_setWidth]
  rfl

/-- The adjusted time is `gateway + target` after the reply exactly when an `int` can hold the adjustment for
it and the latency is `target`, up to what an `int` cannot tell apart. -/
theorem getTimestamp_syncClock_iff (c : AreaClient) (clock sent gateway target : UInt64) :
    (c.syncClock clock sent gateway).getTimestamp clock = gateway + target ↔
      IntValue (gateway + target - clock) ∧
      ((c.getTimestamp clock - sent) / 2).toNat % 2 ^ 32 = target.toNat % 2 ^ 32 := by
  let latency := (c.getTimestamp clock - sent) / 2
  have hdue : gateway + latency - c.getTimestamp clock =
      (gateway - clock + latency) - UInt64.ofInt c.timeAdjust.toInt := by
    simp only [getTimestamp]
    grind
  have htarget : gateway + target - clock = gateway - clock + target := by grind
  have hiff : (c.syncClock clock sent gateway).getTimestamp clock = gateway + target ↔
      UInt64.ofInt (c.syncClock clock sent gateway).timeAdjust.toInt = gateway - clock + target := by
    rw [getTimestamp]
    constructor
    · intro h
      rw [← htarget, ← h]
      grind
    · intro h
      rw [h]
      grind
  rw [hiff, htarget, ← UInt64.toBitVec_inj, toBitVec_ofInt, toBitVec_syncClock]
  show (_ + (gateway + latency - c.getTimestamp clock).toBitVec.setWidth 32).signExtend 64 = _ ↔ _
  rw [hdue, UInt64.toBitVec_sub, toBitVec_ofInt, accumulate_iff (by decide) (by decide), setWidth_eq_iff]
  rfl

end AreaClient

/-- A request under way carries the adjusted time it was sent at. For the proofs it also has the local time
and the adjustment that this came from. -/
structure SyncRequest where
  sentTime : UInt64
  sentAt : UInt64
  adjustAt : Int32
  deriving DecidableEq

structure SyncReply where
  request : SyncRequest
  gatewayTime : UInt64
  deriving DecidableEq

inductive SyncEvent where
  | tick (client gateway : UInt64)
  | request
  | answer (i : Nat)
  | reply (i : Nat)

/-- `clock` is the client's, which its adjustment does not change, and `gatewayClock` what the gateway's
`getTimestamp` returns. -/
structure SyncSystem where
  client : AreaClient
  clock : UInt64
  gatewayClock : UInt64
  requests : List SyncRequest := []
  replies : List SyncReply := []

namespace SyncSystem

def handle (s : SyncSystem) (r : SyncReply) : SyncSystem :=
  { s with client := s.client.syncClock s.clock r.request.sentTime r.gatewayTime }

/-- Messages are delivered in any order; the clocks go on as they like. -/
def step (s : SyncSystem) : SyncEvent → SyncSystem
  | .tick client gateway => { s with clock := s.clock + client, gatewayClock := s.gatewayClock + gateway }
  | .request =>
    let q : SyncRequest := ⟨s.client.getTimestamp s.clock, s.clock, s.client.timeAdjust⟩
    { s with requests := s.requests ++ [q] }
  | .answer i =>
    match s.requests[i]? with
    | some q => { s with requests := s.requests.eraseIdx i, replies := s.replies ++ [⟨q, s.gatewayClock⟩] }
    | none => s
  | .reply i =>
    match s.replies[i]? with
    | some r => { s.handle r with replies := s.replies.eraseIdx i }
    | none => s

def run (s : SyncSystem) (events : List SyncEvent) : SyncSystem := events.foldl step s

def elapsed (s : SyncSystem) (r : SyncReply) : UInt64 := s.clock - r.request.sentAt

/-- After reply `i` the adjusted time is the gateway's, and half of the time that the request was under way. -/
def Exact (s : SyncSystem) (i : Nat) (r : SyncReply) : Prop :=
  (s.step (.reply i)).client.getTimestamp (s.step (.reply i)).clock = r.gatewayTime + s.elapsed r / 2

instance (s : SyncSystem) (i : Nat) (r : SyncReply) : Decidable (s.Exact i r) := inferInstanceAs (Decidable (_ = _))

def drift (s : SyncSystem) (r : SyncReply) : Int := s.client.timeAdjust.toInt - r.request.adjustAt.toInt

/-- No other reply has moved the clock meanwhile, or by a millisecond that is lost when the time is halved. -/
def Steady (s : SyncSystem) (r : SyncReply) : Prop :=
  s.drift r = 0 ∨ (s.drift r = 1 ∧ (s.elapsed r).toNat % 2 = 0) ∨ (s.drift r = -1 ∧ (s.elapsed r).toNat % 2 = 1)

instance (s : SyncSystem) (r : SyncReply) : Decidable (s.Steady r) := inferInstanceAs (Decidable (_ ∨ _))

def Adjustable (s : SyncSystem) (r : SyncReply) : Prop :=
  AreaClient.IntValue (r.gatewayTime + s.elapsed r / 2 - s.clock)

instance (s : SyncSystem) (r : SyncReply) : Decidable (s.Adjustable r) :=
  inferInstanceAs (Decidable (AreaClient.IntValue _))

def SyncRequest.Stamped (q : SyncRequest) : Prop := q.sentTime = q.sentAt + UInt64.ofInt q.adjustAt.toInt

/-- Every message under way carries the adjusted time of its sending. -/
structure Stamps (s : SyncSystem) : Prop where
  requests : ∀ q ∈ s.requests, SyncRequest.Stamped q
  replies : ∀ r ∈ s.replies, SyncRequest.Stamped r.request

variable {s : SyncSystem} {r : SyncReply}

theorem Stamps.step (hs : s.Stamps) (e : SyncEvent) : (s.step e).Stamps := by
  cases e with
  | tick client gateway => exact ⟨hs.requests, hs.replies⟩
  | request =>
    refine ⟨?_, hs.replies⟩
    intro q hq
    rcases List.mem_append.mp hq with hq | hq
    · exact hs.requests q hq
    · rw [List.mem_singleton] at hq
      rw [hq]
      rfl
  | answer i =>
    cases hi : s.requests[i]? with
    | none => simpa only [SyncSystem.step, hi] using hs
    | some q =>
      have hq := List.mem_of_getElem? hi
      simp only [SyncSystem.step, hi]
      refine ⟨fun x hx => hs.requests x (List.mem_of_mem_eraseIdx hx), ?_⟩
      intro r hr
      rcases List.mem_append.mp hr with hr | hr
      · exact hs.replies r hr
      · rw [List.mem_singleton] at hr
        rw [hr]
        exact hs.requests q hq
  | reply i =>
    cases hi : s.replies[i]? with
    | none => simpa only [SyncSystem.step, hi] using hs
    | some r =>
      simp only [SyncSystem.step, hi]
      exact ⟨hs.requests, fun x hx => hs.replies x (List.mem_of_mem_eraseIdx hx)⟩

theorem Stamps.run (hs : s.Stamps) (events : List SyncEvent) : (s.run events).Stamps := by
  induction events generalizing s with
  | nil => exact hs
  | cons e events ih => exact ih (hs.step e)

/-- Halving hides what the clock has moved exactly when it is steady. -/
theorem steady_iff (h : SyncRequest.Stamped r.request) : s.Steady r ↔
    ((s.client.getTimestamp s.clock - r.request.sentTime) / 2).toNat % 2 ^ 32 = (s.elapsed r / 2).toNat % 2 ^ 32 := by
  have ha := s.client.timeAdjust.toInt_lt
  have ha' := s.client.timeAdjust.le_toInt
  have hb := r.request.adjustAt.toInt_lt
  have hb' := r.request.adjustAt.le_toInt
  have hlt := (s.elapsed r).toNat_lt
  have helapsed := AreaClient.toNat_elapsed s.clock r.request.sentAt s.client.timeAdjust r.request.adjustAt
  have hlatency : (s.client.getTimestamp s.clock - r.request.sentTime).toNat =
      (((s.elapsed r).toNat : Int) + s.drift r) % 2 ^ 64 := by
    rw [show r.request.sentTime = _ from h]
    exact helapsed
  rw [UInt64.toNat_div, UInt64.toNat_div, show (2 : UInt64).toNat = 2 from rfl]
  generalize (s.client.getTimestamp s.clock - r.request.sentTime).toNat = x at hlatency
  simp only [Steady, drift] at hlatency ⊢
  generalize (s.elapsed r).toNat = d at hlatency hlt ⊢
  omega

theorem exact_iff {i : Nat} (h : SyncRequest.Stamped r.request) (hi : s.replies[i]? = some r) :
    s.Exact i r ↔ s.Steady r ∧ s.Adjustable r := by
  rw [steady_iff h, and_comm, Exact]
  simp only [step, hi]
  exact AreaClient.getTimestamp_syncClock_iff s.client s.clock r.request.sentTime r.gatewayTime (s.elapsed r / 2)

/-- In every run that starts with nothing under way, the reply handled next is exact if and only if the clock
has been steady since its request, and the adjustment is one that an `int` holds. -/
theorem clock_sync_iff (client : AreaClient) (clock gatewayClock : UInt64) (events : List SyncEvent) (i : Nat)
    (r : SyncReply) (h : (run { client, clock, gatewayClock } events).replies[i]? = some r) :
    (run { client, clock, gatewayClock } events).Exact i r ↔
      (run { client, clock, gatewayClock } events).Steady r ∧
      (run { client, clock, gatewayClock } events).Adjustable r := by
  have hstart : Stamps { client, clock, gatewayClock } := ⟨by simp, by simp⟩
  exact exact_iff ((hstart.run events).replies r (List.mem_of_getElem? h)) h

theorem clock_sync_single :
    (run { client := { sub := {} }, clock := 0, gatewayClock := 10000 }
      [.request, .tick 100 100, .answer 0, .tick 100 100]).Exact 0 ⟨⟨0, 0, 0⟩, 10100⟩ :=
  (clock_sync_iff { sub := {} } 0 10000 [.request, .tick 100 100, .answer 0, .tick 100 100] 0 ⟨⟨0, 0, 0⟩, 10100⟩
    (by decide +kernel)).mpr ⟨by decide +kernel, by decide +kernel⟩

/-- Of two requests sent together, the second one's reply takes the first one's adjustment for latency. -/
theorem overlap_not_exact : ¬ ∀ (client : AreaClient) (clock gatewayClock : UInt64) (events : List SyncEvent)
    (i : Nat) (r : SyncReply), (run { client, clock, gatewayClock } events).replies[i]? = some r →
    (run { client, clock, gatewayClock } events).Exact i r := by
  intro h
  have hx := h { sub := {} } 0 10000
    [.request, .request, .tick 100 100, .answer 0, .answer 0, .tick 100 100, .reply 0] 0 ⟨⟨0, 0, 0⟩, 10100⟩
    (by decide +kernel)
  exact absurd hx (by decide +kernel)

end SyncSystem

end VastNC
