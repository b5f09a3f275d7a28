import Mathlib.Data.Multiset.Count
import Mathlib.Data.Multiset.MapFold

/-! Two parties that hand one object to each other by messages, each with countdowns of its own. An owner
that sees the object leave its side hands it over after a while and takes it back when no answer
comes; who sees the object on its side for long claims it. Where messages, positions and ticks are
fast enough for the countdowns, at most one of the two is the owner. -/

namespace Handover

inductive Side where
  | a
  | b
  deriving DecidableEq

namespace Side

def other : Side → Side
  | a => b
  | b => a

@[simp] theorem other_other (x : Side) : x.other.other = x := by cases x <;> rfl

theorem ne_other (x : Side) : x ≠ x.other := by cases x <;> decide

theorem eq_or_eq_other (x y : Side) : y = x ∨ y = x.other := by cases x <;> cases y <;> decide

end Side

/-- How long an owner waits outside, how long for an answer, and how long a party waits inside. -/
structure Timing where
  hold : Nat
  transit : Nat
  idle : Nat

/-- The most that a message takes, that a party is behind with the place of the object, and that lies
between two ticks. -/
structure Bounds where
  delay : Nat
  lag : Nat
  period : Nat

namespace Bounds

/-- The time within which an owner that has lost sight of the object hands it over. -/
def settle (b : Bounds) (T : Timing) : Nat := b.lag + b.delay + 2 * b.period + T.hold

structure Suffice (b : Bounds) (T : Timing) : Prop where
  answered : 2 * b.delay < T.transit
  arrived : b.settle T + b.delay < T.idle
  seen : b.settle T + b.lag + b.period ≤ T.idle

end Bounds

structure Record where
  owner : Bool
  leaving : Option Nat
  pending : Option Nat
  claiming : Option Nat

inductive Letter where
  | token (target : Side)
  | ack (target : Side)

def Letter.isToken : Letter → Bool
  | token _ => true
  | ack _ => false

/-- A message in flight carries the time at which it was sent. -/
structure State where
  record : Side → Option Record
  flight : Multiset (Nat × Letter)
  lastTick : Side → Nat
  clock : Nat

/-- The object is on the side of `x` from `e` to `w`. -/
def Within (place : Nat → Side) (x : Side) (e w : Nat) : Prop := ∀ u, e ≤ u → u ≤ w → place u = x

/-- Within a time of `d` the object does not leave a side and come back. -/
def Steady (place : Nat → Side) (d : Nat) : Prop :=
  ∀ u w, u ≤ w → w ≤ u + d → place w = place u → Within place (place u) u w

/-- What a party sees is where the object was a short time before. -/
def Seen (b : Bounds) (place : Nat → Side) (x : Side) (now : Nat) (inside : Bool) : Prop :=
  ∃ u, u ≤ now ∧ now ≤ u + b.lag ∧ (inside = true ↔ place u = x)

/-- What a tick makes of a record, and what it sends; `inside` is whether the party sees the object on
its side. -/
inductive Turn (T : Timing) (now : Nat) (other : Side) (inside : Bool) :
    Option Record → Option Record → Multiset (Nat × Letter) → Prop
  | absent : Turn T now other inside none none 0
  | forget {r : Record} (owner : r.owner = false) : Turn T now other inside (some r) none 0
  | keep {r r' : Record} (owner : r.owner = true) (seen : inside = true) (owner' : r'.owner = true)
      (leaving : r'.leaving = none) (pending : r'.pending = r.pending ∨ r'.pending = none)
      (claiming : r'.claiming = r.claiming ∨ r'.claiming = none) :
      Turn T now other inside (some r) (some r') 0
  | wait {r r' : Record} (owner : r.owner = true) (owner' : r'.owner = true)
      (leaving : r.leaving = none ∧ r'.leaving = some (now + T.hold) ∨
        ∃ due, r.leaving = some due ∧ now < due ∧ r'.leaving = some due)
      (pending : r'.pending = r.pending ∨ r'.pending = none)
      (claiming : r'.claiming = r.claiming ∨ r'.claiming = none) :
      Turn T now other inside (some r) (some r') 0
  | hand {r r' : Record} (owner : r.owner = true) (owner' : r'.owner = false) (leaving : r'.leaving = none)
      (pending : r'.pending = some (now + T.transit)) (claiming : r'.claiming = r.claiming) :
      Turn T now other inside (some r) (some r') {(now, .token other)}
  | idle {r r' : Record} (owner : r.owner = false) (owner' : r'.owner = false)
      (leaving : r'.leaving = r.leaving) (pending : r'.pending = r.pending)
      (claiming : r'.claiming = if inside then some (r.claiming.getD (now + T.idle)) else none) :
      Turn T now other inside (some r) (some r') 0
  | claim {r r' : Record} {due : Nat} (owner : r.owner = false) (late : due ≤ now)
      (reason : r.claiming = some due ∨ r.pending = some due) (owner' : r'.owner = true)
      (leaving : r'.leaving = r.leaving) (pending : r'.pending = none) (claiming : r'.claiming = none) :
      Turn T now other inside (some r) (some r') 0

namespace State

def owns (s : State) (x : Side) : Nat := ((s.record x).any Record.owner).toNat

/-- The owners, and the messages that make one. -/
def tokens (s : State) : Nat := s.owns .a + s.owns .b + s.flight.countP fun m => m.2.isToken = true

/-- The time of a step: no earlier than the step before, with no message or tick that is late. -/
structure InTime (b : Bounds) (s : State) (now : Nat) : Prop where
  clock : s.clock ≤ now
  delivered : ∀ m ∈ s.flight, now ≤ m.1 + b.delay
  ticked : ∀ x, now ≤ s.lastTick x + b.period

def turned (s : State) (x : Side) (now : Nat) (r : Option Record) (out : Multiset (Nat × Letter)) :
    State where
  record := Function.update s.record x r
  flight := s.flight + out
  lastTick := Function.update s.lastTick x now
  clock := now

def received (s : State) (x : Side) (now : Nat) (r : Option Record) (flight : Multiset (Nat × Letter)) :
    State where
  record := Function.update s.record x r
  flight := flight
  lastTick := s.lastTick
  clock := now

end State

/-- Whoever takes the object over answers, once or more. -/
inductive Step (T : Timing) (b : Bounds) (place : Nat → Side) (now : Nat) (s : State) : State → Prop
  | pass : Step T b place now s { s with clock := now }
  | tick {x : Side} {inside : Bool} {r : Option Record} {out : Multiset (Nat × Letter)}
      (seen : s.record x ≠ none → Seen b place x now inside)
      (turn : Turn T now x.other inside (s.record x) r out) :
      Step T b place now s (s.turned x now r out)
  | token {x : Side} {sent : Nat} {r : Record} {rest : Multiset (Nat × Letter)} {acks : Multiset Side}
      (flight : s.flight = (sent, .token x) ::ₘ rest) (record : s.record x = some r)
      (acked : x.other ∈ acks) :
      Step T b place now s (s.received x now (some { r with owner := true, claiming := none })
        (rest + acks.map fun y => (now, Letter.ack y)))
  | lost {x : Side} {sent : Nat} {rest : Multiset (Nat × Letter)}
      (flight : s.flight = (sent, .token x) ::ₘ rest) (record : s.record x = none) :
      Step T b place now s { s with flight := rest, clock := now }
  | ack {x : Side} {sent : Nat} {rest : Multiset (Nat × Letter)}
      (flight : s.flight = (sent, .ack x) ::ₘ rest) :
      Step T b place now s (s.received x now ((s.record x).map fun r => { r with pending := none }) rest)

/-- Before the deadline of what `x` has handed over runs out it is answered, unless there is nobody who
could answer. -/
def Answered (T : Timing) (b : Bounds) (s : State) (x y : Side) (due : Nat) : Prop :=
  ∃ sent, due = sent + T.transit ∧ ((sent, .token y) ∈ s.flight ∨
    (∃ later, later ≤ sent + b.delay ∧ (later, .ack x) ∈ s.flight) ∨ s.record y = none ∧ s.tokens = 0)

/-- What holds while `x` counts down to `due`. The object has been on its side since `e`, so `y` hands it
over in time where it is the owner. -/
structure Countdown (T : Timing) (b : Bounds) (place : Nat → Side) (s : State) (x y : Side) (due : Nat) :
    Prop where
  window : ∃ e w, e ≤ w ∧ w ≤ s.lastTick x ∧ s.lastTick x ≤ w + b.lag ∧ e + T.idle ≤ due ∧
    due ≤ e + b.lag + T.idle ∧ Within place x e w
  owner : ∀ e w, due ≤ e + b.lag + T.idle → Within place x e w → ∀ q, s.record y = some q → q.owner = true →
    w < e + b.settle T ∨ s.lastTick y ≤ w ∧ (s.lastTick y ≤ e + b.lag + b.delay ∨
      ∃ d, q.leaving = some d ∧ d ≤ e + b.lag + b.delay + b.period + T.hold ∧ s.lastTick y ≤ d)
  inbound : ∀ e w, due ≤ e + b.lag + T.idle → Within place x e w → ∀ sent, (sent, .token x) ∈ s.flight →
    w < e + b.settle T ∨ sent ≤ e + b.settle T
  outbound : ∀ sent, (sent, .token y) ∈ s.flight → sent + T.idle ≤ due

structure Party (T : Timing) (b : Bounds) (place : Nat → Side) (s : State) (x y : Side) (r : Record) :
    Prop where
  settled : r.owner = true → r.claiming = none
  leaving : ∀ due, r.leaving = some due → due ≤ s.lastTick x + T.hold
  pending : ∀ due, r.pending = some due → Answered T b s x y due
  claiming : ∀ due, r.claiming = some due → Countdown T b place s x y due

structure Inv (T : Timing) (b : Bounds) (place : Nat → Side) (s : State) : Prop where
  ticked : ∀ x, s.lastTick x ≤ s.clock
  sent : ∀ m ∈ s.flight, m.1 ≤ s.clock
  one : s.tokens ≤ 1
  both : (∀ x, s.record x ≠ none) → s.tokens = 1
  party : ∀ x r, s.record x = some r → Party T b place s x x.other r

variable {T : Timing} {b : Bounds} {place : Nat → Side} {s s' : State} {x y : Side} {now due : Nat}
  {inside : Bool} {r : Record} {r' : Option Record} {out : Multiset (Nat × Letter)}

namespace State

theorem tokens_side (x : Side) : s.tokens =
    s.owns x + s.owns x.other + s.flight.countP fun m => m.2.isToken = true := by
  cases x with
  | a => rfl
  | b => rw [tokens, Nat.add_comm (s.owns .a)]; rfl

theorem owns_some (h : s.record x = some r) : s.owns x = r.owner.toNat := by rw [owns, h, Option.any_some]

theorem owns_none (h : s.record x = none) : s.owns x = 0 := by rw [owns, h]; rfl

theorem record_turned : (s.turned x now r' out).record x = r' := Function.update_self ..

theorem owns_turned : (s.turned x now r' out).owns x = (r'.any Record.owner).toNat := by
  rw [owns, record_turned]

theorem record_received {flight : Multiset (Nat × Letter)} : (s.received x now r' flight).record x = r' :=
  Function.update_self ..

theorem owns_received {flight : Multiset (Nat × Letter)} :
    (s.received x now r' flight).owns x = (r'.any Record.owner).toNat := by
  rw [owns, record_received]

theorem record_turned_other : (s.turned x now r' out).record x.other = s.record x.other :=
  Function.update_of_ne x.ne_other.symm _ _

theorem lastTick_turned_other : (s.turned x now r' out).lastTick x.other = s.lastTick x.other :=
  Function.update_of_ne x.ne_other.symm _ _

theorem record_received_other {flight : Multiset (Nat × Letter)} :
    (s.received x now r' flight).record x.other = s.record x.other :=
  Function.update_of_ne x.ne_other.symm _ _

theorem received_self {flight : Multiset (Nat × Letter)} :
    s.received x now (s.record x) flight = { s with flight := flight, clock := now } := by
  rw [received, Function.update_eq_self]

theorem tokens_turned : (s.turned x now r' out).tokens + s.owns x =
    s.tokens + (r'.any Record.owner).toNat + out.countP fun m => m.2.isToken = true := by
  have hother : (s.turned x now r' out).owns x.other = s.owns x.other := by
    rw [owns, owns, record_turned_other]
  rw [tokens_side x, tokens_side x, owns_turned, hother]
  show _ + (s.flight + out).countP _ + _ = _
  rw [Multiset.countP_add]
  omega

theorem tokens_received {flight : Multiset (Nat × Letter)} : (s.received x now r' flight).tokens =
    (r'.any Record.owner).toNat + s.owns x.other + flight.countP fun m => m.2.isToken = true := by
  have hother : (s.received x now r' flight).owns x.other = s.owns x.other := by
    rw [owns, owns, record_received_other]
  rw [tokens_side x, owns_received, hother]
  rfl

theorem token_pos {sent : Nat} (h : (sent, .token x) ∈ s.flight) : 0 < s.tokens := by
  have hpos : 0 < s.flight.countP fun m => m.2.isToken = true := Multiset.countP_pos.mpr ⟨_, h, rfl⟩
  rw [tokens]
  omega

theorem tokens_eq_zero (hx : s.owns x = 0) (hy : s.owns x.other = 0)
    (h : ∀ sent z, (sent, .token z) ∉ s.flight) : s.tokens = 0 := by
  have hcount : (s.flight.countP fun m => m.2.isToken = true) = 0 := by
    refine Multiset.countP_eq_zero.mpr fun m hm ht => ?_
    obtain ⟨sent, letter⟩ := m
    cases letter with
    | token z => exact h sent z hm
    | ack z => cases ht
  rw [tokens_side x, hx, hy, hcount]

end State

/-- What the invariant of `x` says of `y` and of the messages is not lost where both change little. -/
theorem Countdown.frame (h : Countdown T b place s x y due) (hx : s'.lastTick x = s.lastTick x)
    (hy : s'.lastTick y = s.lastTick y)
    (howner : ∀ q', s'.record y = some q' → q'.owner = true →
      ∃ q, s.record y = some q ∧ q.owner = true ∧ q.leaving = q'.leaving)
    (hflight : ∀ sent z, (sent, .token z) ∈ s'.flight → (sent, .token z) ∈ s.flight) :
    Countdown T b place s' x y due where
  window := by rw [hx]; exact h.window
  owner := by
    intro e w hdue hin q' hq' ho'
    obtain ⟨q, hq, ho, hl⟩ := howner q' hq' ho'
    rw [hy, ← hl]
    exact h.owner e w hdue hin q hq ho
  inbound e w hdue hin sent hm := h.inbound e w hdue hin sent (hflight sent x hm)
  outbound sent hm := h.outbound sent (hflight sent y hm)

theorem Answered.frame (h : Answered T b s x y due) (htoken : ∀ sent, (sent, .token y) ∈ s.flight →
      (sent, .token y) ∈ s'.flight ∨ ∃ later, later ≤ sent + b.delay ∧ (later, .ack x) ∈ s'.flight)
    (hack : ∀ sent, (sent, .ack x) ∈ s.flight → (sent, .ack x) ∈ s'.flight)
    (hnone : s.record y = none → s.tokens = 0 → s'.record y = none ∧ s'.tokens = 0) :
    Answered T b s' x y due := by
  obtain ⟨sent, hdue, hm | ⟨later, hle, hm⟩ | ⟨hy, hz⟩⟩ := h
  · exact ⟨sent, hdue, (htoken sent hm).imp_right .inl⟩
  · exact ⟨sent, hdue, .inr (.inl ⟨later, hle, hack later hm⟩)⟩
  · exact ⟨sent, hdue, .inr (.inr (hnone hy hz))⟩

/-- Whose countdown is at its end is alone. -/
theorem Inv.alone_of_claiming (h : Inv T b place s) (hb : b.Suffice T) (ht : s.InTime b now)
    (hr : s.record x = some r) (ho : r.owner = false) (hlate : due ≤ now) (hc : r.claiming = some due) :
    s.record x.other = none ∧ s.tokens = 0 := by
  have hself : s.owns x = 0 := by rw [State.owns_some hr, ho, Bool.toNat_false]
  have hticked := ht.ticked x
  have hother := ht.ticked x.other
  have hsettle := hb.seen
  have harrived := hb.arrived
  rw [Bounds.settle] at hsettle harrived
  have hcount := (h.party x r hr).claiming due hc
  obtain ⟨e, w, -, -, hlag, hidle, hdue, hin⟩ := hcount.window
  have hlong : e + b.settle T ≤ w := by
    rw [Bounds.settle]
    omega
  -- the window reaches so far that the other side has handed over, and the message has arrived
  have hnot : s.owns x.other = 0 := by
    cases hq : s.record x.other with
    | none => exact State.owns_none hq
    | some q =>
      rw [State.owns_some hq, Bool.toNat_eq_zero]
      by_contra hown
      rw [Bool.not_eq_false] at hown
      rcases hcount.owner e w hdue hin q hq hown with hw | ⟨-, hl | ⟨d, -, hd, hl⟩⟩
      · omega
      · omega
      · omega
  have hz : s.tokens = 0 := by
    refine State.tokens_eq_zero hself hnot fun sent z hm => ?_
    have hdel := ht.delivered _ hm
    dsimp only at hdel
    rcases Side.eq_or_eq_other x z with rfl | rfl
    · rcases hcount.inbound e w hdue hin sent hm with hw | hl
      · omega
      · rw [Bounds.settle] at hl
        omega
    · have hout := hcount.outbound sent hm
      omega
  refine ⟨?_, hz⟩
  by_contra hq
  have hboth := h.both fun z => by
    rcases Side.eq_or_eq_other x z with rfl | rfl
    · rw [hr]
      exact Option.some_ne_none r
    · exact hq
  omega

/-- Who claims the object is alone. -/
theorem Inv.alone (h : Inv T b place s) (hb : b.Suffice T) (ht : s.InTime b now) (hr : s.record x = some r)
    (ho : r.owner = false) (hlate : due ≤ now) (hreason : r.claiming = some due ∨ r.pending = some due) :
    s.record x.other = none ∧ s.tokens = 0 := by
  rcases hreason with hc | hc
  · exact h.alone_of_claiming hb ht hr ho hlate hc
  · have hanswered := hb.answered
    obtain ⟨sent, rfl, hm | ⟨later, hle, hm⟩ | hnone⟩ := (h.party x r hr).pending due hc
    · have hdel := ht.delivered _ hm
      dsimp only at hdel
      omega
    · have hdel := ht.delivered _ hm
      dsimp only at hdel
      omega
    · exact hnone

/-- A tick sends a token only, and only where it hands over. -/
theorem Turn.sends {before : Option Record} (h : Turn T now y inside before r' out) {m : Nat × Letter}
    (hm : m ∈ out) :
    m = (now, .token y) ∧ ∃ q, before = some q ∧ q.owner = true := by
  cases h with
  | hand ho => exact ⟨Multiset.mem_singleton.mp hm, _, rfl, ho⟩
  | _ => exact absurd hm (Multiset.notMem_zero m)

section Other

variable (h : Countdown T b place s x y due) (hxy : x ≠ y) (ht : s.InTime b now)
  (hseen : s.record y ≠ none → Seen b place y now inside)
  (hturn : Turn T now x inside (s.record y) r' out)

include h ht in
/-- At the next tick of `y` there is still an owner's deadline, if the window reaches there. -/
theorem Countdown.owner_now {e w : Nat} (hdue : due ≤ e + b.lag + T.idle) (hin : Within place x e w)
    (hr : s.record y = some r) (ho : r.owner = true) : w < e + b.settle T ∨
      now ≤ e + b.lag + b.delay + b.period ∧ s.lastTick y ≤ e + b.lag + b.delay ∨
      ∃ d, r.leaving = some d ∧ d ≤ e + b.lag + b.delay + b.period + T.hold ∧ s.lastTick y ≤ d := by
  have hticked := ht.ticked y
  rcases h.owner e w hdue hin r hr ho with hw | ⟨-, hl | hd⟩
  · exact .inl hw
  · exact .inr (.inl ⟨by omega, hl⟩)
  · exact .inr (.inr hd)

include h hxy ht hseen hturn in
theorem Countdown.owner_turned
    (hleaving : ∀ q, s.record y = some q → ∀ d, q.leaving = some d → d ≤ s.lastTick y + T.hold)
    (hown : r'.any Record.owner = true → (s.record y).any Record.owner = true) {e w : Nat}
    (hdue : due ≤ e + b.lag + T.idle) (hin : Within place x e w) {q' : Record} (hq' : r' = some q')
    (ho' : q'.owner = true) : w < e + b.settle T ∨ now ≤ w ∧ (now ≤ e + b.lag + b.delay ∨
      ∃ d, q'.leaving = some d ∧ d ≤ e + b.lag + b.delay + b.period + T.hold ∧ now ≤ d) := by
  have hticked := ht.ticked y
  have hsettle : b.settle T = b.lag + b.delay + 2 * b.period + T.hold := rfl
  have hbefore := fun q => h.owner_now (r := q) ht hdue hin
  subst hq'
  generalize hq : s.record y = q at hturn hown
  cases hturn with
  | hand ho hno => rw [hno] at ho'; cases ho'
  | idle ho hno => rw [hno] at ho'; cases ho'
  | claim ho =>
    rw [Option.any_some, Option.any_some, ho'] at hown
    rw [hown rfl] at ho
    cases ho
  | @keep r₁ r₂ ho hinside ho₂ hl =>
    -- the object is seen on the side of `y`, which it is not in the window
    obtain ⟨u, hu, hlag, hplace⟩ := hseen (by rw [hq]; exact Option.some_ne_none _)
    have hside : place u = y := hplace.mp hinside
    have hout : u < e ∨ w < u := by
      by_contra hno
      exact hxy ((hin u (by omega) (by omega)).symm.trans hside)
    rcases hbefore r₁ hq ho with hw | ⟨hnow, -⟩ | ⟨d, -, hd, hlt⟩
    · exact .inl hw
    · by_cases hw : now ≤ w
      · exact .inr ⟨hw, .inl (by omega)⟩
      · exact .inl (by omega)
    · by_cases hw : now ≤ w
      · exact .inr ⟨hw, .inl (by omega)⟩
      · exact .inl (by omega)
  | @wait r₁ r₂ ho ho₂ hl =>
    rcases hbefore r₁ hq ho with hw | ⟨hnow, hlast⟩ | ⟨d, hd, hle, hlt⟩
    · exact .inl hw
    · by_cases hw : now ≤ w
      · refine .inr ⟨hw, .inr ?_⟩
        rcases hl with ⟨-, hl⟩ | ⟨d, hd, hlt, hl⟩
        · exact ⟨now + T.hold, hl, by omega, by omega⟩
        · have hle := hleaving r₁ hq d hd
          exact ⟨d, hl, by omega, hlt.le⟩
      · exact .inl (by omega)
    · by_cases hw : now ≤ w
      · refine .inr ⟨hw, .inr ?_⟩
        rcases hl with ⟨hnone, -⟩ | ⟨d', hd', hlt', hl⟩
        · rw [hnone] at hd
          cases hd
        · obtain rfl : d' = d := Option.some.inj (hd'.symm.trans hd)
          exact ⟨d', hl, hle, hlt'.le⟩
      · exact .inl (by omega)

include h hxy ht hseen hturn in
/-- The other side's countdown goes on, where `y` does not become an owner by its tick. -/
theorem Countdown.tick_other
    (hleaving : ∀ q, s.record y = some q → ∀ d, q.leaving = some d → d ≤ s.lastTick y + T.hold)
    (hown : r'.any Record.owner = true → (s.record y).any Record.owner = true) :
    Countdown T b place (s.turned y now r' out) x y due := by
  have hx : (s.turned y now r' out).lastTick x = s.lastTick x := Function.update_of_ne hxy _ _
  have hy : (s.turned y now r' out).lastTick y = now := Function.update_self ..
  have hticked := ht.ticked y
  have hsettle : b.settle T = b.lag + b.delay + 2 * b.period + T.hold := rfl
  refine ⟨by rw [hx]; exact h.window, fun e w hdue hin q' hq' ho' => ?_, fun e w hdue hin sent hm => ?_,
    fun sent hm => ?_⟩
  · rw [hy]
    exact h.owner_turned hxy ht hseen hturn hleaving hown hdue hin (State.record_turned.symm.trans hq') ho'
  · rcases Multiset.mem_add.mp hm with hm | hm
    · exact h.inbound e w hdue hin sent hm
    · obtain ⟨he, q, hq, ho⟩ := hturn.sends hm
      obtain rfl : sent = now := (Prod.mk.inj he).1
      rcases h.owner e w hdue hin q hq ho with hw | ⟨-, hl | ⟨d, -, hd, hlt⟩⟩
      · exact .inl hw
      · exact .inr (by omega)
      · exact .inr (by omega)
  · rcases Multiset.mem_add.mp hm with hm | hm
    · exact h.outbound sent hm
    · exact absurd (Letter.token.inj (Prod.mk.inj (hturn.sends hm).1).2).symm hxy

end Other

/-- The countdown of `x` goes on or begins, as `x` sees the object on its side. -/
theorem Countdown.tick_self (h : Inv T b place s) (hsteady : Steady place (b.lag + b.period))
    (ht : s.InTime b now) (hr : s.record x = some r) (hseen : Seen b place x now true) :
    Countdown T b place (s.turned x now r' 0) x x.other (r.claiming.getD (now + T.idle)) := by
  have hx : (s.turned x now r' 0).lastTick x = now := Function.update_self ..
  have hflight : (s.turned x now r' 0).flight = s.flight := Multiset.add_zero _
  obtain ⟨u, hu, hlag, hplace⟩ := hseen
  have hside : place u = x := hplace.mp rfl
  cases hc : r.claiming with
  | none =>
    rw [Option.getD_none]
    have hclock := ht.clock
    refine ⟨⟨u, u, Nat.le_refl u, by rw [hx]; exact hu, by rw [hx]; exact hlag, by omega, by omega, ?_⟩,
      ?_, ?_, ?_⟩
    · intro v hle hge
      rw [Nat.le_antisymm hge hle]
      exact hside
    · intro e w hdue hin q hq ho
      have hlast := h.ticked x.other
      rw [State.lastTick_turned_other, Bounds.settle]
      by_cases hw : s.lastTick x.other ≤ w
      · exact .inr ⟨hw, .inl (by omega)⟩
      · exact .inl (by omega)
    · intro e w hdue hin sent hm
      have hsent := h.sent _ (hflight ▸ hm)
      dsimp only at hsent
      rw [Bounds.settle]
      exact .inr (by omega)
    · intro sent hm
      have hsent := h.sent _ (hflight ▸ hm)
      dsimp only at hsent
      omega
  | some due =>
    rw [Option.getD_some]
    have hcount := (h.party x r hr).claiming due hc
    obtain ⟨e, w, hew, hw, hback, hidle, hdue, hin⟩ := hcount.window
    have hlast := ht.ticked x
    have hold := ht.clock
    have hclock := h.ticked x
    have hwin : ∃ w', e ≤ w' ∧ w' ≤ now ∧ now ≤ w' + b.lag ∧ Within place x e w' := by
      by_cases hwu : w ≤ u
      · -- between what was seen at the last tick and now the object has not been away
        have hstay := hsteady w u hwu (by omega) (by rw [hside, hin w hew (Nat.le_refl w)])
        rw [hin w hew (Nat.le_refl w)] at hstay
        refine ⟨u, by omega, hu, hlag, fun v hev hvu => ?_⟩
        by_cases hvw : v ≤ w
        · exact hin v hev hvw
        · exact hstay v (by omega) hvu
      · exact ⟨w, hew, by omega, by omega, hin⟩
    obtain ⟨w', hew', hw', hback', hin'⟩ := hwin
    refine ⟨⟨e, w', hew', by rw [hx]; exact hw', by rw [hx]; exact hback', hidle, hdue, hin'⟩, ?_, ?_, ?_⟩
    · rw [State.lastTick_turned_other, State.record_turned_other]
      exact hcount.owner
    · rw [hflight]
      exact hcount.inbound
    · rw [hflight]
      exact hcount.outbound

theorem Answered.tick_self (h : Answered T b s x x.other due)
    (hown : r'.any Record.owner = (s.record x).any Record.owner) :
    Answered T b (s.turned x now r' 0) x x.other due := by
  have hflight : (s.turned x now r' 0).flight = s.flight := Multiset.add_zero _
  refine h.frame (fun sent hm => .inl (hflight ▸ hm)) (fun sent hm => hflight ▸ hm) fun hnone hz => ⟨?_, ?_⟩
  · exact State.record_turned_other.trans hnone
  · have htokens : (s.turned x now r' 0).tokens + s.owns x = _ := State.tokens_turned
    rw [hown, State.owns, Multiset.countP_zero] at htokens
    omega

/-- A party that stays what it was goes on waiting for its answer, if it does. -/
theorem Party.pending_turned {q : Record} (hp : Party T b place s x x.other r) (hr : s.record x = some r)
    (hown : q.owner = r.owner) (hpending : q.pending = r.pending ∨ q.pending = none)
    (hd : q.pending = some due) :
    Answered T b (s.turned x now (some q) 0) x x.other due := by
  rcases hpending with he | he
  · refine (hp.pending due (he ▸ hd)).tick_self ?_
    rw [hr, Option.any_some, Option.any_some, hown]
  · rw [he] at hd
    cases hd

theorem Party.claiming_none {q : Record} (hp : Party T b place s x y r) (ho : r.owner = true)
    (hclaiming : q.claiming = r.claiming ∨ q.claiming = none) : q.claiming = none :=
  hclaiming.elim (fun he => he.trans (hp.settled ho)) id

section Tick

variable (h : Inv T b place s) (hb : b.Suffice T) (hsteady : Steady place (b.lag + b.period))
  (ht : s.InTime b now) (hseen : s.record x ≠ none → Seen b place x now inside)
  (hturn : Turn T now x.other inside (s.record x) r' out)

include h hb ht hturn in
/-- Only who is alone becomes an owner by a tick. -/
theorem Inv.tokens_turned : (s.turned x now r' out).tokens = s.tokens ∧
      (r'.any Record.owner = true → (s.record x).any Record.owner = true) ∨
    (s.turned x now r' out).tokens = 1 ∧ s.record x.other = none := by
  have htokens : (s.turned x now r' out).tokens + s.owns x = _ := State.tokens_turned
  have hcount :
      (Multiset.countP (fun m : Nat × Letter => m.2.isToken = true) {(now, .token x.other)}) = 1 := rfl
  rw [State.owns] at htokens
  generalize hq : s.record x = q at hturn htokens
  cases hturn with
  | absent => exact .inl ⟨by simpa using htokens, id⟩
  | @forget r ho =>
    rw [Option.any_some, ho] at htokens
    exact .inl ⟨by simpa using htokens, fun hno => Bool.noConfusion hno⟩
  | @keep r r' ho _ ho' =>
    rw [Option.any_some, Option.any_some, ho, ho', Multiset.countP_zero] at htokens
    exact .inl ⟨by omega, fun _ => ho⟩
  | @wait r r' ho ho' =>
    rw [Option.any_some, Option.any_some, ho, ho', Multiset.countP_zero] at htokens
    exact .inl ⟨by omega, fun _ => ho⟩
  | @hand r r' ho ho' =>
    rw [Option.any_some, Option.any_some, ho, ho', hcount, Bool.toNat_true, Bool.toNat_false] at htokens
    exact .inl ⟨by omega, fun _ => ho⟩
  | @idle r r' ho ho' =>
    rw [Option.any_some, Option.any_some, ho, ho', Multiset.countP_zero] at htokens
    exact .inl ⟨by omega, fun hown => absurd (ho'.symm.trans hown) Bool.false_ne_true⟩
  | @claim r r' due ho hlate hreason ho' =>
    obtain ⟨hother, hz⟩ := h.alone hb ht hq ho hlate hreason
    rw [Option.any_some, Option.any_some, ho, ho', hz, Multiset.countP_zero] at htokens
    exact .inr ⟨by simpa using htokens, hother⟩

include h hsteady ht hseen hturn in
theorem Inv.party_turned {q : Record} (hq : r' = some q) :
    Party T b place (s.turned x now r' out) x x.other q := by
  have hlast : (s.turned x now r' out).lastTick x = now := Function.update_self ..
  have hold := (h.ticked x).trans ht.clock
  subst hq
  generalize hr : s.record x = before at hturn
  cases hturn with
  | @keep r q ho hinside ho' hleaving hpending hclaiming =>
    have hp := h.party x r hr
    have hnone := hp.claiming_none ho hclaiming
    refine ⟨fun _ => hnone, fun due hd => ?_,
      fun due hd => hp.pending_turned hr (ho'.trans ho.symm) hpending hd, fun due hd => ?_⟩
    · rw [hleaving] at hd
      cases hd
    · rw [hnone] at hd
      cases hd
  | @wait r q ho ho' hleaving hpending hclaiming =>
    have hp := h.party x r hr
    have hnone := hp.claiming_none ho hclaiming
    refine ⟨fun _ => hnone, fun due hd => ?_,
      fun due hd => hp.pending_turned hr (ho'.trans ho.symm) hpending hd, fun due hd => ?_⟩
    · rw [hlast]
      rcases hleaving with ⟨-, hl⟩ | ⟨due', hl', -, hl⟩
      · exact (Option.some.inj (hd.symm.trans hl)).le
      · have hle := hp.leaving due' hl'
        rw [Option.some.inj (hd.symm.trans hl)]
        omega
    · rw [hnone] at hd
      cases hd
  | @hand r q ho ho' hleaving hpending hclaiming =>
    have hnone := (h.party x r hr).settled ho
    refine ⟨fun hown => absurd (ho'.symm.trans hown) Bool.false_ne_true, fun due hd => ?_, fun due hd => ?_,
      fun due hd => ?_⟩
    · rw [hleaving] at hd
      cases hd
    · refine ⟨now, Option.some.inj (hd.symm.trans hpending), .inl ?_⟩
      exact Multiset.mem_add.mpr (.inr (Multiset.mem_singleton_self _))
    · rw [hclaiming, hnone] at hd
      cases hd
  | @idle r q ho ho' hleaving hpending hclaiming =>
    have hp := h.party x r hr
    refine ⟨fun hown => absurd (ho'.symm.trans hown) Bool.false_ne_true, fun due hd => ?_,
      fun due hd => hp.pending_turned hr (ho'.trans ho.symm) (.inl hpending) hd, fun due hd => ?_⟩
    · have hle := hp.leaving due (hleaving ▸ hd)
      rw [hlast]
      omega
    · have hsaw := hseen (hr ▸ Option.some_ne_none r)
      cases inside with
      | false =>
        rw [hclaiming, if_neg Bool.false_ne_true] at hd
        cases hd
      | true =>
        rw [hclaiming, if_pos rfl] at hd
        rw [← Option.some.inj hd]
        exact .tick_self h hsteady ht hr hsaw
  | @claim r q due' ho hlate hreason ho' hleaving hpending hclaiming =>
    refine ⟨fun _ => hclaiming, fun due hd => ?_, fun due hd => ?_, fun due hd => ?_⟩
    · have hle := (h.party x r hr).leaving due (hleaving ▸ hd)
      rw [hlast]
      omega
    · rw [hpending] at hd
      cases hd
    · rw [hclaiming] at hd
      cases hd

include h hb ht hseen hturn in
theorem Inv.party_turned_other {q : Record} (hq : s.record x.other = some q) :
    Party T b place (s.turned x now r' out) x.other x q := by
  have hp := h.party x.other q hq
  rw [Side.other_other] at hp
  have hlast : (s.turned x now r' out).lastTick x.other = s.lastTick x.other := State.lastTick_turned_other
  have htokens := h.tokens_turned hb ht hturn
  refine ⟨hp.settled, fun due hd => ?_, fun due hd => ?_, fun due hd => ?_⟩
  · rw [hlast]
    exact hp.leaving due hd
  · refine (hp.pending due hd).frame (fun sent hm => .inl (Multiset.mem_add.mpr (.inl hm)))
      (fun sent hm => Multiset.mem_add.mpr (.inl hm)) fun hnone hz => ?_
    rcases htokens with ⟨he, -⟩ | ⟨-, hno⟩
    · refine ⟨State.record_turned.trans ?_, he.trans hz⟩
      rw [hnone] at hturn
      cases hturn
      rfl
    · rw [hno] at hq
      cases hq
  · rcases htokens with ⟨-, hown⟩ | ⟨-, hno⟩
    · exact (hp.claiming due hd).tick_other x.ne_other.symm ht hseen hturn
        (fun r hr d hl => (h.party x r hr).leaving d hl) hown
    · rw [hno] at hq
      cases hq

include h hb hsteady ht hseen hturn in
theorem Inv.tick : Inv T b place (s.turned x now r' out) := by
  have htokens := h.tokens_turned hb ht hturn
  have hone := h.one
  have hclock := ht.clock
  have hrecord : (s.turned x now r' out).record x = r' := State.record_turned
  have hother : (s.turned x now r' out).record x.other = s.record x.other := State.record_turned_other
  refine ⟨fun z => ?_, fun m hm => ?_, ?_, fun hall => ?_, fun z q hz => ?_⟩
  · rcases Side.eq_or_eq_other x z with rfl | rfl
    · exact (Function.update_self z now s.lastTick).le
    · rw [State.lastTick_turned_other]
      exact (h.ticked x.other).trans hclock
  · rcases Multiset.mem_add.mp hm with hm | hm
    · exact (h.sent m hm).trans hclock
    · rw [(hturn.sends hm).1]
      exact Nat.le_refl now
  · rcases htokens with ⟨he, -⟩ | ⟨he, -⟩
    · exact he.trans_le hone
    · exact he.le
  · rcases htokens with ⟨he, -⟩ | ⟨he, -⟩
    · rw [he]
      refine h.both fun z => ?_
      rcases Side.eq_or_eq_other x z with rfl | rfl
      · intro hnone
        rw [hnone] at hturn
        cases hturn
        exact hall z hrecord
      · exact fun hnone => hall _ (hother.trans hnone)
    · exact he
  · rcases Side.eq_or_eq_other x z with rfl | rfl
    · exact h.party_turned hsteady ht hseen hturn (hrecord.symm.trans hz)
    · rw [Side.other_other]
      exact h.party_turned_other hb ht hseen hturn (hother.symm.trans hz)

end Tick

section Deliver

variable {sent : Nat} {rest : Multiset (Nat × Letter)}

theorem Inv.pass (h : Inv T b place s) (ht : s.InTime b now) : Inv T b place { s with clock := now } where
  ticked x := (h.ticked x).trans ht.clock
  sent m hm := (h.sent m hm).trans ht.clock
  one := h.one
  both := h.both
  party x r hr := by
    have hp := h.party x r hr
    refine ⟨hp.settled, hp.leaving, fun due hd => ?_, fun due hd => ?_⟩
    · exact (hp.pending due hd).frame (fun sent hm => .inl hm) (fun sent hm => hm) fun hnone hz => ⟨hnone, hz⟩
    · exact (hp.claiming due hd).frame rfl rfl (fun q hq ho => ⟨q, hq, ho, rfl⟩) fun sent z hm => hm

/-- A token in flight is the only one. -/
theorem Inv.token_alone (h : Inv T b place s) (hflight : s.flight = (sent, .token x) ::ₘ rest) :
    s.owns x = 0 ∧ s.owns x.other = 0 ∧ (rest.countP fun m => m.2.isToken = true) = 0 := by
  have hone := h.one
  rw [State.tokens_side x, hflight, Multiset.countP_cons_of_pos rest (by rfl)] at hone
  omega

theorem mem_of_token_mem {acks : Multiset Side} {later : Nat} {z : Side}
    (hm : (later, .token z) ∈ rest + acks.map fun y => (now, Letter.ack y)) : (later, .token z) ∈ rest := by
  rcases Multiset.mem_add.mp hm with hm | hm
  · exact hm
  · obtain ⟨y, -, he⟩ := Multiset.mem_map.mp hm
    cases he

/-- Who takes the object over is the only owner then. -/
theorem Inv.tokens_received {acks : Multiset Side} (h : Inv T b place s)
    (hflight : s.flight = (sent, .token x) ::ₘ rest) {q : Record} (hq : q.owner = true) :
    (s.received x now (some q) (rest + acks.map fun y => (now, Letter.ack y))).tokens = 1 := by
  obtain ⟨-, hy, hrest⟩ := h.token_alone hflight
  have hcount : (Multiset.countP (fun m : Nat × Letter => m.2.isToken = true)
      (acks.map fun y => (now, Letter.ack y))) = 0 := by
    refine Multiset.countP_eq_zero.mpr fun m hm hto => ?_
    obtain ⟨y, -, rfl⟩ := Multiset.mem_map.mp hm
    cases hto
  rw [State.tokens_received, hy, Multiset.countP_add, hrest, hcount, Option.any_some, hq]
  rfl

theorem Inv.token {acks : Multiset Side} (h : Inv T b place s) (ht : s.InTime b now)
    (hflight : s.flight = (sent, .token x) ::ₘ rest) (hr : s.record x = some r) (hacked : x.other ∈ acks) :
    Inv T b place (s.received x now (some { r with owner := true, claiming := none })
      (rest + acks.map fun y => (now, Letter.ack y))) := by
  have hmem : (sent, Letter.token x) ∈ s.flight := hflight ▸ Multiset.mem_cons_self _ _
  have hclock := ht.clock
  have hdel := ht.delivered _ hmem
  have hpos := State.token_pos hmem
  dsimp only at hdel
  have hkeep (m : Nat × Letter) (hm : m ∈ s.flight) (hne : m ≠ (sent, .token x)) :
      m ∈ rest + acks.map fun y => (now, Letter.ack y) := by
    rw [hflight, Multiset.mem_cons] at hm
    exact Multiset.mem_add.mpr (.inl (hm.resolve_left hne))
  have hback (later : Nat) (z : Side)
      (hm : (later, .token z) ∈ rest + acks.map fun y => (now, Letter.ack y)) :
      (later, .token z) ∈ s.flight := hflight ▸ Multiset.mem_cons_of_mem (mem_of_token_mem hm)
  have htokens : (s.received x now (some { r with owner := true, claiming := none })
      (rest + acks.map fun y => (now, Letter.ack y))).tokens = 1 := h.tokens_received hflight rfl
  refine ⟨fun z => (h.ticked z).trans hclock, fun m hm => ?_, htokens.le, fun _ => htokens, fun z q hz => ?_⟩
  · rcases Multiset.mem_add.mp hm with hm | hm
    · exact (h.sent m (hflight ▸ Multiset.mem_cons_of_mem hm)).trans hclock
    · obtain ⟨y, -, rfl⟩ := Multiset.mem_map.mp hm
      exact Nat.le_refl now
  · rcases Side.eq_or_eq_other x z with rfl | rfl
    · rw [State.record_received, Option.some.injEq] at hz
      subst hz
      have hp := h.party z r hr
      refine ⟨fun _ => rfl, hp.leaving, fun due hd => ?_, fun due hd => by cases hd⟩
      refine (hp.pending due hd).frame (fun later hm => .inl (hkeep _ hm ?_)) (fun later hm => hkeep _ hm ?_)
        fun _ hz => by omega
      · exact fun he => z.ne_other (Letter.token.inj (Prod.mk.inj he).2).symm
      · exact fun he => by cases he
    · rw [State.record_received_other] at hz
      rw [Side.other_other]
      have hp := h.party x.other q hz
      rw [Side.other_other] at hp
      refine ⟨hp.settled, hp.leaving, fun due hd => ?_, fun due hd => ?_⟩
      · refine (hp.pending due hd).frame (fun later hm => ?_)
          (fun later hm => hkeep _ hm fun he => by cases he) fun _ hz => by omega
        by_cases he : (later, Letter.token x) = (sent, .token x)
        · -- the message that is answered now
          refine .inr ⟨now, by rw [(Prod.mk.inj he).1]; exact hdel, ?_⟩
          exact Multiset.mem_add.mpr (.inr (Multiset.mem_map.mpr ⟨x.other, hacked, rfl⟩))
        · exact .inl (hkeep _ hm he)
      · have hcount := hp.claiming due hd
        refine ⟨hcount.window, fun e w hdue hin q' hq' ho' => ?_,
          fun e w hdue hin later hm => hcount.inbound e w hdue hin later (hback later _ hm),
          fun later hm => hcount.outbound later (hback later _ hm)⟩
        have hlate := hcount.outbound sent hmem
        have hlast := h.ticked x
        show w < e + b.settle T ∨ s.lastTick x ≤ w ∧ (s.lastTick x ≤ _ ∨ _)
        rw [Bounds.settle]
        by_cases hw : s.lastTick x ≤ w
        · exact .inr ⟨hw, .inl (by omega)⟩
        · exact .inl (by omega)

theorem Inv.lost (h : Inv T b place s) (ht : s.InTime b now) (hflight : s.flight = (sent, .token x) ::ₘ rest)
    (hr : s.record x = none) : Inv T b place { s with flight := rest, clock := now } := by
  obtain ⟨hx, hy, hrest⟩ := h.token_alone hflight
  have hpos := State.token_pos (hflight ▸ Multiset.mem_cons_self (sent, Letter.token x) rest)
  have hsub (m : Nat × Letter) (hm : m ∈ rest) : m ∈ s.flight := hflight ▸ Multiset.mem_cons_of_mem hm
  have htokens : ({ s with flight := rest, clock := now } : State).tokens = 0 := by
    rw [State.tokens_side x]
    exact congrArg₂ (· + ·) (congrArg₂ (· + ·) hx hy) hrest
  refine ⟨fun z => (h.ticked z).trans ht.clock, fun m hm => (h.sent m (hsub m hm)).trans ht.clock,
    htokens.trans_le (Nat.zero_le 1), fun hall => absurd hr (hall x), fun z q hz => ?_⟩
  have hp := h.party z q hz
  refine ⟨hp.settled, hp.leaving, fun due hd => ?_, fun due hd => ?_⟩
  · obtain ⟨later, hdue, -⟩ := hp.pending due hd
    rcases Side.eq_or_eq_other x z with rfl | rfl
    · rw [show s.record z = some q from hz] at hr
      cases hr
    · exact ⟨later, hdue, .inr (.inr ⟨by rw [Side.other_other]; exact hr, htokens⟩)⟩
  · exact (hp.claiming due hd).frame rfl rfl (fun q hq ho => ⟨q, hq, ho, rfl⟩) fun later z hm => hsub _ hm

theorem Inv.ack (h : Inv T b place s) (ht : s.InTime b now) (hflight : s.flight = (sent, .ack x) ::ₘ rest) :
    Inv T b place (s.received x now ((s.record x).map fun r => { r with pending := none }) rest) := by
  have hsub (m : Nat × Letter) (hm : m ∈ rest) : m ∈ s.flight := hflight ▸ Multiset.mem_cons_of_mem hm
  have hkeep (m : Nat × Letter) (hm : m ∈ s.flight) (hne : m ≠ (sent, .ack x)) : m ∈ rest := by
    rw [hflight, Multiset.mem_cons] at hm
    exact hm.resolve_left hne
  have htokens : (s.received x now ((s.record x).map fun r => { r with pending := none }) rest).tokens =
      s.tokens := by
    rw [State.tokens_received, State.tokens_side x, hflight,
      Multiset.countP_cons_of_neg rest (by simp [Letter.isToken]), State.owns, Option.any_map]
    rfl
  refine ⟨fun z => (h.ticked z).trans ht.clock, fun m hm => (h.sent m (hsub m hm)).trans ht.clock,
    htokens.trans_le h.one, fun hall => ?_, fun z q hz => ?_⟩
  · rw [htokens]
    refine h.both fun z hnone => hall z ?_
    rcases Side.eq_or_eq_other x z with rfl | rfl
    · rw [State.record_received, hnone]
      rfl
    · rw [State.record_received_other, hnone]
  · rcases Side.eq_or_eq_other x z with rfl | rfl
    · rw [State.record_received, Option.map_eq_some_iff] at hz
      obtain ⟨r, hr, rfl⟩ := hz
      have hp := h.party z r hr
      refine ⟨hp.settled, hp.leaving, fun due hd => (by cases hd), fun due hd => ?_⟩
      refine (hp.claiming due hd).frame rfl rfl (fun q hq ho => ?_) fun later y hm => hsub _ hm
      rw [State.record_received_other] at hq
      exact ⟨q, hq, ho, rfl⟩
    · rw [State.record_received_other] at hz
      rw [Side.other_other]
      have hp := h.party x.other q hz
      rw [Side.other_other] at hp
      refine ⟨hp.settled, hp.leaving, fun due hd => ?_, fun due hd => ?_⟩
      · refine (hp.pending due hd).frame (fun later hm => .inl (hkeep _ hm fun he => by cases he))
          (fun later hm => hkeep _ hm fun he => ?_) fun hnone hz => ⟨?_, htokens.trans hz⟩
        · exact x.ne_other (Letter.ack.inj (Prod.mk.inj he).2).symm
        · rw [State.record_received, hnone]
          rfl
      · refine (hp.claiming due hd).frame rfl rfl (fun q hq ho => ?_) fun later y hm => hsub _ hm
        rw [State.record_received, Option.map_eq_some_iff] at hq
        obtain ⟨r, hr, rfl⟩ := hq
        exact ⟨r, hr, ho, rfl⟩

end Deliver

/-- One party owns the object, and nothing is under way. -/
theorem Inv.start (hticked : ∀ x, s.lastTick x ≤ s.clock) (hflight : s.flight = 0) (hone : s.tokens = 1)
    (hparty : ∀ x r, s.record x = some r → r.claiming = none ∧ r.pending = none ∧
      ∀ due, r.leaving = some due → due ≤ s.lastTick x + T.hold) : Inv T b place s where
  ticked := hticked
  sent m hm := by
    rw [hflight] at hm
    exact absurd hm (Multiset.notMem_zero m)
  one := hone.le
  both _ := hone
  party x r hr := by
    obtain ⟨hclaiming, hpending, hleaving⟩ := hparty x r hr
    refine ⟨fun _ => hclaiming, hleaving, fun due hd => ?_, fun due hd => ?_⟩
    · rw [hpending] at hd
      cases hd
    · rw [hclaiming] at hd
      cases hd

theorem Inv.not_both (h : Inv T b place s) :
    ¬ ((s.record .a).any Record.owner = true ∧ (s.record .b).any Record.owner = true) := by
  rintro ⟨ha, hb⟩
  have hone := h.one
  rw [State.tokens, State.owns, State.owns, ha, hb, Bool.toNat_true] at hone
  omega

theorem Inv.step (h : Inv T b place s) (hb : b.Suffice T) (hsteady : Steady place (b.lag + b.period))
    (ht : s.InTime b now) (hstep : Step T b place now s s') : Inv T b place s' := by
  cases hstep with
  | pass => exact h.pass ht
  | tick hseen hturn => exact h.tick hb hsteady ht hseen hturn
  | token hflight hr hacked => exact h.token ht hflight hr hacked
  | lost hflight hr => exact h.lost ht hflight hr
  | ack hflight => exact h.ack ht hflight

end Handover
