import VastNC.Sender
import VastNC.Lib.FallibleRun

/-! Streams of several senders that reach this host in order and lose at most nine packets
in a row are delivered without a further loss. -/

namespace VastNC

open FallibleRun

/-- `packets` is what a sender sent to `publicIP`, in order, over a sequence of calls of
`send_helper` that starts with no number taken for this destination. -/
def SentTo (publicIP : IPaddr) (fromId : UInt64) (packets : List UDPNCMessage) : Prop :=
  ∃ (s s' : Sender) (qs : List SendRequest) (ms : List UDPNCMessage), s.myID = fromId ∧
    s.sendOrdering[resolveHostID publicIP]? = none ∧ s.sendAll qs = .ok (s', ms) ∧
    packets = ms.filter (fun m => publicIP.equals (m.toAddrs.headD default))

/-- Packet `i` of a sender, or a packet that is addressed to somebody else first. -/
inductive Incoming where
  | stream (fromId : UInt64) (i : Nat) (m : UDPNCMessage) (socketAddr : IPaddr)
  | foreign (m : UDPNCMessage) (socketAddr : IPaddr)

namespace Incoming

def message : Incoming → UDPNCMessage × IPaddr
  | .stream _ _ m socketAddr => (m, socketAddr)
  | .foreign m socketAddr => (m, socketAddr)

def streamed : Incoming → Option (UDPNCMessage × IPaddr)
  | .stream _ _ m socketAddr => some (m, socketAddr)
  | .foreign _ _ => none

def index (fromId : UInt64) : Incoming → Option Nat
  | .stream f i _ _ => if f = fromId then some i else none
  | .foreign _ _ => none

def Genuine (publicIP : IPaddr) (streams : UInt64 → List UDPNCMessage) : Incoming → Prop
  | .stream f i m _ => f ≠ netIdUnassigned ∧
      ∃ sent addr, (streams f)[i]? = some sent ∧ m = { sent with socketAddr := addr }
  | .foreign m _ => m.pktIds.length ≤ 1 ∧
      ∀ addr, m.toAddrs.head? = some addr → publicIP.equals addr = false

end Incoming

structure Inbox where
  recvdOrdering : Orderings := ∅
  handed : List (UDPNCMessage × IPaddr) := []

def Inbox.step (publicIP : IPaddr) (b : Inbox) (e : Incoming) : Except Fault Inbox :=
  match Consumer.processInput publicIP b.recvdOrdering e.message.1 e.message.2 with
  | .ok r => .ok ⟨r.recvdOrdering, b.handed ++ r.handed.toList⟩
  | .error f => .error f

/-- The next packet of a sender skips at most nine. -/
def Follows (i j : Nat) : Prop := i < j ∧ j ≤ i + 10

section Streams

variable {publicIP : IPaddr} {streams : UInt64 → List UDPNCMessage}

theorem SentTo.packet {fromId : UInt64} {packets : List UDPNCMessage} {i : Nat} {m : UDPNCMessage}
    (h : SentTo publicIP fromId packets) (hi : packets[i]? = some m) :
    m.pktIds.length = 1 ∧ m.fromIds = [fromId] ∧
      (∃ addr, m.toAddrs = [addr] ∧ publicIP.equals addr = true) ∧
      m.getOrdering = UInt8.ofNat i := by
  obtain ⟨s, s', qs, ms, hid, hord, hall, rfl⟩ := h
  have hh := Sender.sendAll_stream (k := 0) hall (by rw [hord]; rfl) hi
  rw [hid, Nat.zero_add] at hh
  exact hh

theorem accepted_of_follows {recvd : Orderings} {fromId : UInt64} {m : UDPNCMessage} {i j : Nat}
    (hr : recvd[fromId]? = some (UInt8.ofNat i)) (hm : m.getOrdering = UInt8.ofNat j)
    (hf : Follows i j) : (Consumer.acceptOrdering recvd fromId m).isSome = true := by
  rw [Consumer.acceptOrdering_isSome_iff]
  refine .inr (.inr fun last hlast => ?_)
  rw [hr, Option.some.injEq] at hlast
  rw [← hlast, hm]
  simp only [UInt8.lt_iff_toNat_lt, UInt8.le_iff_toNat_le, UInt8.toNat_ofNat',
    lowestResetPacketOrderingNumber, highestResetAcceptingOrderingNumber]
  obtain ⟨h1, h2⟩ := hf
  change _ ∨ 240 ≤ _ ∧ _ < 10
  omega

def Tracks (recvd : Orderings) (last : UInt64 → Option Nat) : Prop :=
  ∀ f, recvd[f]? = (last f).map UInt8.ofNat

def Chained (last : UInt64 → Option Nat) (es : List Incoming) : Prop :=
  ∀ f, ((last f).toList ++ es.filterMap (Incoming.index f)).IsChain Follows

theorem step_stream (hsent : ∀ f, SentTo publicIP f (streams f)) {b : Inbox}
    {last : UInt64 → Option Nat} {f : UInt64} {i : Nat} {m : UDPNCMessage} {socketAddr : IPaddr}
    {es : List Incoming} (htr : Tracks b.recvdOrdering last)
    (hg : Incoming.Genuine publicIP streams (.stream f i m socketAddr))
    (hch : Chained last (.stream f i m socketAddr :: es)) :
    ∃ b', b.step publicIP (.stream f i m socketAddr) = .ok b' ∧
      b'.handed = b.handed ++ [(m, socketAddr)] ∧
      Tracks b'.recvdOrdering (Function.update last f (some i)) ∧
      Chained (Function.update last f (some i)) es := by
  have hm : m.pktIds.length = 1 ∧ m.fromIds = [f] ∧
      (∃ addr, m.toAddrs = [addr] ∧ publicIP.equals addr = true) ∧
      m.getOrdering = UInt8.ofNat i := by
    obtain ⟨-, sent, addr, hi, rfl⟩ := hg
    have hpkt := (hsent f).packet hi
    exact hpkt
  obtain ⟨hids, hfrom, ⟨addr, ha, hp⟩, hord⟩ := hm
  obtain ⟨r, hr, hother, hcases⟩ := Consumer.orderInput_spec b.recvdOrdering socketAddr hfrom
  rw [← Consumer.processInput_mine hids.le ha hp] at hr
  have hchf := hch f
  simp only [List.filterMap_cons, Incoming.index, if_true] at hchf
  have hacc : (Consumer.acceptOrdering b.recvdOrdering f m).isSome = true := by
    cases hl : last f with
    | none =>
      rw [Consumer.acceptOrdering_isSome_iff]
      refine .inr (.inr fun x hx => ?_)
      simp [htr f, hl] at hx
    | some n =>
      rw [hl] at hchf
      have hfol : Follows n i := (List.isChain_cons_cons.mp hchf).1
      exact accepted_of_follows (by rw [htr f, hl]; rfl) hord hfol
  rcases hcases with ⟨-, hhand, hrec⟩ | ⟨hrej, -⟩
  · refine ⟨⟨r.recvdOrdering, b.handed ++ r.handed.toList⟩, ?_, by rw [hhand]; rfl, fun g => ?_,
      fun g => ?_⟩
    · simp only [Inbox.step, Incoming.message, hr]
    · by_cases hgf : g = f
      · rw [hgf, hrec, Function.update_self, hord]
        rfl
      · rw [Function.update_of_ne hgf, hother g hgf, htr g]
    · by_cases hgf : g = f
      · rw [hgf, Function.update_self]
        exact hchf.right_of_append
      · have hchg := hch g
        simp only [List.filterMap_cons, Incoming.index, if_neg (Ne.symm hgf)] at hchg
        rwa [Function.update_of_ne hgf]
  · rw [hacc] at hrej
    cases hrej

theorem step_foreign {b : Inbox} {m : UDPNCMessage} {socketAddr : IPaddr}
    (hg : Incoming.Genuine publicIP streams (.foreign m socketAddr)) :
    b.step publicIP (.foreign m socketAddr) = .ok b := by
  have hr := Consumer.processInput_notMine b.recvdOrdering socketAddr hg.1 hg.2
  simp only [Inbox.step, Incoming.message, hr, Option.toList_none, List.append_nil]

theorem run_streams (hsent : ∀ f, SentTo publicIP f (streams f)) {es : List Incoming} {b : Inbox}
    (last : UInt64 → Option Nat) (htr : Tracks b.recvdOrdering last)
    (hg : ∀ e ∈ es, e.Genuine publicIP streams) (hch : Chained last es) :
    ∃ recvd, run (Inbox.step publicIP) b es = .ok ⟨recvd, b.handed ++ es.filterMap Incoming.streamed⟩ := by
  induction es generalizing b last with
  | nil => exact ⟨b.recvdOrdering, by simp [run]⟩
  | cons e es ih =>
    have hge := hg e List.mem_cons_self
    have hges := fun x hx => hg x (List.mem_cons_of_mem _ hx)
    cases e with
    | stream f i m socketAddr =>
      obtain ⟨b', hb, hh, htr', hch'⟩ := step_stream hsent htr hge hch
      obtain ⟨recvd, hrun⟩ := ih _ htr' hges hch'
      refine ⟨recvd, ?_⟩
      rw [run_cons hb, hrun, hh, List.append_assoc]
      rfl
    | foreign m socketAddr =>
      rw [run_cons (step_foreign hge)]
      exact ih last htr hges hch

/-- Nothing is lost that arrives, whatever other senders and other destinations do. -/
theorem no_false_rejection (hsent : ∀ f, SentTo publicIP f (streams f)) (es : List Incoming)
    (hgen : ∀ e ∈ es, e.Genuine publicIP streams)
    (hchain : ∀ f, (es.filterMap (Incoming.index f)).IsChain Follows) :
    (∃ recvd, run (Inbox.step publicIP) {} es = .ok ⟨recvd, es.filterMap Incoming.streamed⟩) ∧
    ∀ (recvd : Orderings) (m : UDPNCMessage) (socketAddr : IPaddr) (r : Consumed),
      (∀ addr, m.toAddrs.head? = some addr → publicIP.equals addr = false) →
      Consumer.processInput publicIP recvd m socketAddr = .ok r →
      r.handed = none ∧ r.recvdOrdering = recvd := by
  constructor
  · obtain ⟨recvd, hrun⟩ := run_streams hsent (b := {}) (fun _ => none) (fun f => by simp) hgen
      (fun f => by simpa using hchain f)
    exact ⟨recvd, by simpa using hrun⟩
  · intro recvd m socketAddr r ha hr
    by_cases hids : 1 < m.pktIds.length
    · simp [Consumer.processInput, hids] at hr
    · rw [Consumer.processInput_notMine recvd socketAddr (by omega) ha, Except.ok.injEq] at hr
      rw [← hr]
      exact ⟨rfl, rfl⟩

end Streams

def sampleRequests : List SendRequest :=
  [⟨some [1], 0x0A000001, 1037, 0⟩, ⟨none, 0x0A000001, 1037, 0⟩, ⟨some [2], 0x0A000001, 1037, 0⟩]

theorem no_false_rejection_two_packets :
    ∃ (m m' : UDPNCMessage) (recvd : Orderings),
      run (Inbox.step ⟨0x0A000001, 1037, 0⟩) {}
        [.stream 5 0 m ⟨0, 0, 0⟩, .stream 5 2 m' ⟨0, 0, 0⟩] =
          .ok ⟨recvd, [(m, ⟨0, 0, 0⟩), (m', ⟨0, 0, 0⟩)]⟩ := by
  have hlen : returns (Sender.sendAll { myID := 5 } sampleRequests) (fun r =>
      (r.2.filter (fun m => IPaddr.equals ⟨0x0A000001, 1037, 0⟩
        (m.toAddrs.headD default))).length == 3) = true := by decide +kernel
  obtain ⟨r, hall, hl⟩ := returns_iff.mp hlen
  let packets := r.2.filter (fun m => IPaddr.equals ⟨0x0A000001, 1037, 0⟩ (m.toAddrs.headD default))
  have hl' : packets.length = 3 := beq_iff_eq.mp hl
  obtain ⟨m, hm⟩ : ∃ m, packets[0]? = some m := ⟨_, List.getElem?_eq_getElem (by omega)⟩
  obtain ⟨m', hm'⟩ : ∃ m, packets[2]? = some m := ⟨_, List.getElem?_eq_getElem (by omega)⟩
  let streams : UInt64 → List UDPNCMessage := fun f => if f = 5 then packets else []
  have hsent : ∀ f, SentTo ⟨0x0A000001, 1037, 0⟩ f (streams f) := by
    intro f
    by_cases hf : f = 5
    · refine ⟨{ myID := 5 }, r.1, sampleRequests, r.2, hf.symm, by simp, hall, ?_⟩
      simp [streams, hf, packets]
    · exact ⟨{ myID := f }, { myID := f }, [], [], rfl, by simp, rfl, by simp [streams, hf]⟩
  have hgen : ∀ e ∈ [Incoming.stream 5 0 m ⟨0, 0, 0⟩, Incoming.stream 5 2 m' ⟨0, 0, 0⟩],
      e.Genuine ⟨0x0A000001, 1037, 0⟩ streams := by
    intro e he
    simp only [List.mem_cons, List.not_mem_nil, or_false] at he
    rcases he with rfl | rfl
    · exact ⟨by decide, m, m.socketAddr, hm, rfl⟩
    · exact ⟨by decide, m', m'.socketAddr, hm', rfl⟩
  have hchain : ∀ f, ([Incoming.stream 5 0 m ⟨0, 0, 0⟩, Incoming.stream 5 2 m' ⟨0, 0, 0⟩].filterMap
      (Incoming.index f)).IsChain Follows := by
    intro f
    by_cases hf : 5 = f
    · simp [Incoming.index, hf, Follows]
    · simp [Incoming.index, hf]
  obtain ⟨recvd, hrun⟩ := (no_false_rejection hsent _ hgen hchain).1
  exact ⟨m, m', recvd, hrun⟩

end VastNC
