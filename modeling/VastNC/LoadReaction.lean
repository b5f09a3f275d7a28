import VastNC.JoinAnnouncement
import VastNC.NeighborTables

/-! What `VSOPeer::notifyLoading` does about load that lasts, and whether its counter counts what it is
meant to count. -/

namespace VastNC

/-- `< 0` of floats. -/
def Coord.isNegative (c : Coord) : Bool := !c.isNaN && !c.isZero && c.bits &&& 0x80000000 != 0

/-- `<= 0` of floats. -/
def Coord.nonpos (c : Coord) : Bool := c.isZero || c.isNegative

/-- `>= 0` of floats. -/
def Coord.nonneg (c : Coord) : Bool := !c.isNaN && !c.isNegative

def Loading.of (level : Coord) : Loading :=
  if level.isZero then .normal else if level.isNegative then .underload else .overload

theorem Coord.not_isNaN_of_isZero {c : Coord} (h : c.isZero = true) : c.isNaN = false := by
  simp only [Coord.isZero, beq_iff_eq] at h
  simp only [Coord.isNaN, h]
  decide

theorem Loading.of_cases (level : Coord) :
    Loading.of level = .normal ∧ level.nonpos = true ∧ level.nonneg = true ∨
    Loading.of level = .underload ∧ level.nonpos = true ∧ level.nonneg = false ∨
    Loading.of level = .overload ∧ level.nonpos = false := by
  rw [Loading.of]
  by_cases hz : level.isZero = true
  · left
    have hnan := Coord.not_isNaN_of_isZero hz
    simp [Coord.nonpos, Coord.nonneg, Coord.isNegative, hz, hnan]
  · right
    by_cases hn : level.isNegative = true
    · simp [hz, hn, Coord.nonpos, Coord.nonneg]
    · simp [hz, hn, Coord.nonpos]

/-- What `notifyLoading` sends, and that it leaves. -/
inductive LoadReaction where
  | move (targets : List UInt64) (level : Coord)
  | insert (gateway : UInt64) (level : Coord) (pos : Position) (origin : Node)
  | leave
  deriving DecidableEq

/-- A call of `notifyLoading`, with what `getLoadCenter` gives at the time. -/
structure LoadCall where
  now : UInt64
  level : Coord
  loadCenter : Option Position

namespace VSOMember

def OverloadDue (now : UInt64) (p : VSOMember) : Prop := p.overloadTimeout ≠ 0 ∧ now ≥ p.overloadTimeout

def UnderloadDue (now : UInt64) (p : VSOMember) : Prop := p.underloadTimeout ≠ 0 ∧ now ≥ p.underloadTimeout

instance (now : UInt64) (p : VSOMember) : Decidable (p.OverloadDue now) := inferInstanceAs (Decidable (_ ∧ _))

instance (now : UInt64) (p : VSOMember) : Decidable (p.UnderloadDue now) := inferInstanceAs (Decidable (_ ∧ _))

/-- What `checkLoading` does besides. -/
def reaction (p : VSOMember) (c : LoadCall) : Option LoadReaction :=
  if p.OverloadDue c.now then
    if max p.overloadCount 0 + 1 < vsoInsertionTrigger then
      let targets := p.von.voronoi.getEn p.von.geometry p.von.self.id
      if targets = [] then none else some (.move targets c.level)
    else c.loadCenter.map fun pos => .insert p.gateway c.level pos p.origin
  else if p.UnderloadDue c.now then
    if min p.overloadCount 0 - 1 > -vsoInsertionTrigger ∨ p.gateway = p.von.self.id then none else some .leave
  else none

def recorded (p : VSOMember) (c : LoadCall) : VSOMember := p.recordLoading c.now (.of c.level)

def reactionTo (p : VSOMember) (c : LoadCall) : Option LoadReaction :=
  if Loading.of c.level = .normal then none else (p.recorded c).reaction c

end VSOMember

/-- A peer with the history of its load: how often the overload period has expired since the last call with a
level that is not above 0, and the underload period since the last with a level that is not below 0. -/
structure LoadHistory where
  peer : VSOMember
  overloads : Nat := 0
  underloads : Nat := 0

namespace LoadHistory

def step (s : LoadHistory) (c : LoadCall) : LoadHistory where
  peer := s.peer.notifyLoading c.now (.of c.level)
  overloads :=
    if c.level.nonpos then 0 else if (s.peer.recorded c).OverloadDue c.now then s.overloads + 1 else s.overloads
  underloads :=
    if c.level.nonneg then 0 else if (s.peer.recorded c).UnderloadDue c.now then s.underloads + 1 else s.underloads

/-- The gateway is asked for a matcher, and the peer leaves, only after load that has lasted. -/
def Sustained (s : LoadHistory) (c : LoadCall) : Prop :=
  match s.peer.reactionTo c with
  | some (.insert _ _ _ _) => vsoInsertionTrigger ≤ (s.step c).overloads
  | some .leave => vsoInsertionTrigger ≤ (s.step c).underloads
  | _ => True

/-- The counter has not counted more than has happened since. -/
def Truthful (s : LoadHistory) : Prop :=
  s.peer.overloadCount ≤ s.overloads ∧ -s.peer.overloadCount ≤ s.underloads

/-- A call that leaves the counter as it is: no period expires, and there is no third branch to reset it. -/
def Stands (s : LoadHistory) (c : LoadCall) : Prop :=
  Loading.of c.level = .normal ∨ (¬ (s.peer.recorded c).OverloadDue c.now ∧ ¬ (s.peer.recorded c).UnderloadDue c.now ∧
    ¬ ((s.peer.recorded c).overloadTimeout = 0 ∧ (s.peer.recorded c).underloadTimeout = 0))

/-- No overload that was counted stands after a level that is not above 0, and no underload after one that is
not below. -/
def Resets (s : LoadHistory) (c : LoadCall) : Prop :=
  s.Stands c → (c.level.nonpos = true → s.peer.overloadCount ≤ 0) ∧ (c.level.nonneg = true → 0 ≤ s.peer.overloadCount)

instance (s : LoadHistory) (c : LoadCall) : Decidable (s.Stands c) := inferInstanceAs (Decidable (_ ∨ _))

instance (s : LoadHistory) (c : LoadCall) : Decidable (s.Resets c) := inferInstanceAs (Decidable (_ → _))

variable {s : LoadHistory} {c : LoadCall}

theorem overloadCount_checkLoading (now : UInt64) (p : VSOMember) : (p.checkLoading now).overloadCount =
    if p.OverloadDue now then
      if max p.overloadCount 0 + 1 < vsoInsertionTrigger then max p.overloadCount 0 + 1 else 0
    else if p.UnderloadDue now then
      if min p.overloadCount 0 - 1 > -vsoInsertionTrigger ∨ p.gateway = p.von.self.id then min p.overloadCount 0 - 1
      else 0
    else if p.overloadTimeout = 0 ∧ p.underloadTimeout = 0 then 0 else p.overloadCount := by
  rw [VSOMember.checkLoading]
  by_cases hover : p.OverloadDue now
  · rw [if_pos hover, if_pos (show p.overloadTimeout ≠ 0 ∧ now ≥ p.overloadTimeout from hover)]
  · rw [if_neg hover, if_neg (show ¬ (p.overloadTimeout ≠ 0 ∧ now ≥ p.overloadTimeout) from hover)]
    by_cases hunder : p.UnderloadDue now
    · rw [if_pos hunder, if_pos (show p.underloadTimeout ≠ 0 ∧ now ≥ p.underloadTimeout from hunder)]
      dsimp only
      split <;> rfl
    · rw [if_neg hunder, if_neg (show ¬ (p.underloadTimeout ≠ 0 ∧ now ≥ p.underloadTimeout) from hunder)]
      split <;> rfl

theorem count_normal (h : Loading.of c.level = .normal) : (s.step c).peer.overloadCount = s.peer.overloadCount := by
  show (s.peer.notifyLoading c.now (.of c.level)).overloadCount = _
  rw [VSOMember.notifyLoading, if_pos h, h]
  rfl

theorem count_recorded (p : VSOMember) (c : LoadCall) : (p.recorded c).overloadCount = p.overloadCount := by
  rw [VSOMember.recorded]
  cases Loading.of c.level <;> rfl

theorem count_step (h : Loading.of c.level ≠ .normal) :
    (s.step c).peer.overloadCount = ((s.peer.recorded c).checkLoading c.now).overloadCount := by
  show (s.peer.notifyLoading c.now (.of c.level)).overloadCount = _
  rw [VSOMember.notifyLoading, if_neg h]
  rfl

theorem not_overloadDue (h : Loading.of c.level = .underload) : ¬ (s.peer.recorded c).OverloadDue c.now := by
  rw [VSOMember.recorded, h]
  exact fun hdue => hdue.1 rfl

theorem not_underloadDue (h : Loading.of c.level = .overload) : ¬ (s.peer.recorded c).UnderloadDue c.now := by
  rw [VSOMember.recorded, h]
  exact fun hdue => hdue.1 rfl

theorem truthful_normal (hl : Loading.of c.level = .normal) (hpos : c.level.nonpos = true) (hneg : c.level.nonneg = true) :
    (s.step c).Truthful ↔ s.Resets c := by
  rw [Truthful, Resets, Stands, count_normal hl]
  simp only [step, hpos, hneg, hl, if_true, true_or, forall_const]
  omega

theorem truthful_underload (h : s.Truthful) (hl : Loading.of c.level = .underload) (hpos : c.level.nonpos = true)
    (hneg : c.level.nonneg = false) : (s.step c).Truthful ↔ s.Resets c := by
  obtain ⟨hover, hunder⟩ := h
  have hdue := not_overloadDue (s := s) hl
  rw [Truthful, Resets, Stands, count_step (by rw [hl]; exact Loading.noConfusion), overloadCount_checkLoading,
    if_neg hdue, count_recorded]
  by_cases hexp : (s.peer.recorded c).UnderloadDue c.now
  · -- the period counted is the newest of those since
    simp only [step, hpos, hneg, hl, hexp, hdue, if_true, if_false, not_true_eq_false, false_and, and_false,
      reduceCtorEq, or_self, false_implies, Bool.false_eq_true, iff_true]
    constructor <;> split <;> omega
  · simp only [step, hpos, hneg, hl, hexp, hdue, if_true, if_false, not_false_eq_true, true_and, reduceCtorEq,
      false_or, Bool.false_eq_true, false_implies, and_true, forall_const]
    by_cases hidle : (s.peer.recorded c).overloadTimeout = 0 ∧ (s.peer.recorded c).underloadTimeout = 0
    · simp [hidle]
    · simp only [hidle, if_false, not_false_eq_true, forall_const]
      omega

theorem truthful_overload (h : s.Truthful) (hl : Loading.of c.level = .overload) (hpos : c.level.nonpos = false) :
    (s.step c).Truthful ↔ s.Resets c := by
  obtain ⟨hover, hunder⟩ := h
  have hdue := not_underloadDue (s := s) hl
  rw [Truthful, Resets, Stands, count_step (by rw [hl]; exact Loading.noConfusion), overloadCount_checkLoading,
    if_neg hdue, count_recorded]
  -- a NaN is taken for overload, but is not above a level below 0
  cases hneg : c.level.nonneg <;> by_cases hexp : (s.peer.recorded c).OverloadDue c.now
  all_goals
    simp only [step, hpos, hneg, hl, hexp, hdue, if_true, if_false, not_true_eq_false, not_false_eq_true, false_and,
      true_and, and_true, reduceCtorEq, false_or, false_implies, Bool.false_eq_true, iff_true, forall_const]
  · constructor <;> split <;> omega
  · by_cases hidle : (s.peer.recorded c).overloadTimeout = 0 ∧ (s.peer.recorded c).underloadTimeout = 0
    · simp [hidle]
    · simp only [hidle, if_false, implies_true, iff_true]
      omega
  · constructor <;> split <;> omega
  · by_cases hidle : (s.peer.recorded c).overloadTimeout = 0 ∧ (s.peer.recorded c).underloadTimeout = 0
    · simp [hidle]
    · simp only [hidle, if_false, not_false_eq_true, forall_const]
      omega

theorem truthful_step_iff (h : s.Truthful) (c : LoadCall) : (s.step c).Truthful ↔ s.Resets c := by
  rcases Loading.of_cases c.level with ⟨hl, hpos, hneg⟩ | ⟨hl, hpos, hneg⟩ | ⟨hl, hpos⟩
  · exact truthful_normal hl hpos hneg
  · exact truthful_underload h hl hpos hneg
  · exact truthful_overload h hl hpos

theorem reactionTo_cases {r : LoadReaction} (h : s.peer.reactionTo c = some r) :
    Loading.of c.level ≠ .normal ∧ (s.peer.recorded c).reaction c = some r := by
  rw [VSOMember.reactionTo] at h
  split at h
  · cases h
  · rename_i hl
    exact ⟨hl, h⟩

theorem insert_due {gateway : UInt64} {level : Coord} {pos : Position} {origin : Node}
    (h : s.peer.reactionTo c = some (.insert gateway level pos origin)) :
    (s.peer.recorded c).OverloadDue c.now ∧ vsoInsertionTrigger ≤ max s.peer.overloadCount 0 + 1 := by
  obtain ⟨-, h⟩ := reactionTo_cases h
  rw [VSOMember.reaction, count_recorded] at h
  split at h
  · rename_i hdue
    refine ⟨hdue, ?_⟩
    split at h
    · dsimp only at h
      split at h <;> cases h
    · rename_i hcount
      omega
  · split at h
    · split at h <;> cases h
    · cases h

theorem leave_due (h : s.peer.reactionTo c = some .leave) :
    (s.peer.recorded c).UnderloadDue c.now ∧ min s.peer.overloadCount 0 - 1 ≤ -vsoInsertionTrigger := by
  obtain ⟨-, h⟩ := reactionTo_cases h
  rw [VSOMember.reaction, count_recorded] at h
  split at h
  · split at h
    · dsimp only at h
      split at h <;> cases h
    · obtain ⟨pos, -, he⟩ := Option.map_eq_some_iff.mp h
      cases he
  · split at h
    · rename_i hdue
      refine ⟨hdue, ?_⟩
      split at h
      · cases h
      · rename_i hcount
        rw [not_or] at hcount
        omega
    · cases h

theorem sustained_of_truthful (h : s.Truthful) (c : LoadCall) : s.Sustained c := by
  obtain ⟨hover, hunder⟩ := h
  have htrigger : vsoInsertionTrigger = 5 := rfl
  rw [Sustained]
  split
  · rename_i hr
    obtain ⟨hdue, hcount⟩ := insert_due hr
    have hpos : c.level.nonpos = false := by
      rcases Loading.of_cases c.level with ⟨hl, -⟩ | ⟨hl, -⟩ | ⟨-, hpos⟩
      · exact absurd hl (reactionTo_cases hr).1
      · exact absurd hdue (not_overloadDue hl)
      · exact hpos
    simp only [step, hpos, hdue, if_true, Bool.false_eq_true, if_false]
    omega
  · rename_i hr
    obtain ⟨hdue, hcount⟩ := leave_due hr
    have hneg : c.level.nonneg = false := by
      rcases Loading.of_cases c.level with ⟨hl, -⟩ | ⟨-, -, hneg⟩ | ⟨hl, -⟩
      · exact absurd hl (reactionTo_cases hr).1
      · exact hneg
      · exact absurd hdue (not_underloadDue hl)
    simp only [step, hneg, hdue, if_true, Bool.false_eq_true, if_false]
    omega
  · trivial

/-- Over any calls the counter is truthful exactly as long as each of them resets it where it should, and
then every reaction is to load that has lasted. -/
theorem load_sustained (geometry : Geometry) (self : Node) (aoiBuffer : UInt16) (gateway overloadPeriod : UInt64)
    (es : List LoadCall) :
    (StepRun.Always step Truthful ⟨.constructed geometry self aoiBuffer gateway overloadPeriod, 0, 0⟩ es ↔
      StepRun.Along step Resets ⟨.constructed geometry self aoiBuffer gateway overloadPeriod, 0, 0⟩ es) ∧
    (StepRun.Along step Resets ⟨.constructed geometry self aoiBuffer gateway overloadPeriod, 0, 0⟩ es →
      StepRun.Along step Sustained ⟨.constructed geometry self aoiBuffer gateway overloadPeriod, 0, 0⟩ es) := by
  have hinit : Truthful ⟨.constructed geometry self aoiBuffer gateway overloadPeriod, 0, 0⟩ := by
    simp [Truthful, VSOMember.constructed]
  refine ⟨?_, fun h => ?_⟩
  · rw [StepRun.always_iff_along (fun s c h => truthful_step_iff h c), and_iff_right hinit]
  · exact h.imp (fun s c hs hc => (truthful_step_iff hs c).mpr hc) (fun s c hs _ => sustained_of_truthful hs c) hinit

def unloaded : LoadHistory :=
  ⟨.constructed VONPeer.lonePeer.geometry { id := 1 } 0 9 10, 0, 0⟩

def busyAt (now : UInt64) : LoadCall := ⟨now, ⟨0x3FC00000⟩, some {}⟩

def idleAt (now : UInt64) : LoadCall := ⟨now, ⟨0xBFC00000⟩, some {}⟩

/-- The times of five periods, each begun by one call and ended by the next. -/
def fivePeriods : List UInt64 := [0, 10, 11, 21, 22, 32, 33, 43, 44, 54]

/-- Five periods of overload end with a request for a matcher, five of underload with a departure. -/
theorem load_sustained_five :
    (StepRun.Along step Sustained unloaded (fivePeriods.map busyAt) ∧
      ((fivePeriods.dropLast.map busyAt).foldl step unloaded).peer.reactionTo (busyAt 54) =
        some (.insert 9 ⟨0x3FC00000⟩ {} {})) ∧
    StepRun.Along step Sustained unloaded (fivePeriods.map idleAt) ∧
      ((fivePeriods.dropLast.map idleAt).foldl step unloaded).peer.reactionTo (idleAt 54) = some .leave :=
  ⟨⟨(load_sustained _ _ _ _ _ _).2 (by decide), by decide⟩, (load_sustained _ _ _ _ _ _).2 (by decide), by decide⟩

/-- Four periods of overload, a moment of normal load, and overload again. -/
def busyRun : List LoadCall :=
  [busyAt 0, busyAt 10, busyAt 11, busyAt 21, busyAt 22, busyAt 32, busyAt 33, busyAt 43, ⟨44, 0, none⟩, busyAt 45]

/-- When that has lasted for one period, the gateway is asked for a matcher. -/
theorem insert_after_normal_load : ¬ StepRun.Along step Sustained unloaded (busyRun ++ [busyAt 55]) := by
  intro h
  have hlast := h.last
  have hinsert : VSOMember.reactionTo (busyRun.foldl step unloaded).peer (busyAt 55) =
      some (.insert 9 ⟨0x3FC00000⟩ {} {}) := by decide
  rw [Sustained, hinsert] at hlast
  revert hlast
  decide

end LoadHistory

end VastNC
