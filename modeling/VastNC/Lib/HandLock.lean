import Mathlib

/-! Code that locks and unlocks a non-recursive mutex by hand. A thread that locks a mutex it
holds already never goes on, which ends the computation. -/

namespace HandLock

structure Guarded (σ : Type) where
  state : σ
  held : Bool

inductive Stop (ε : Type) where
  | relocked
  | thrown (e : ε)

structure Locking (σ ε α : Type) where
  run : Guarded σ → Except (Stop ε) α × Guarded σ

namespace Locking

variable {σ ε α β ι : Type}

instance : Monad (Locking σ ε) where
  pure a := ⟨fun g => (.ok a, g)⟩
  bind x f := ⟨fun g =>
    match x.run g with
    | (.ok a, g) => (f a).run g
    | (.error e, g) => (.error e, g)⟩

def get : Locking σ ε σ := ⟨fun g => (.ok g.state, g)⟩

def modify (f : σ → σ) : Locking σ ε Unit := ⟨fun g => (.ok (), { g with state := f g.state })⟩

def throw (e : ε) : Locking σ ε α := ⟨fun g => (.error (.thrown e), g)⟩

def lock : Locking σ ε Unit :=
  ⟨fun g => if g.held then (.error .relocked, g) else (.ok (), { g with held := true })⟩

def unlock : Locking σ ε Unit := ⟨fun g => (.ok (), { g with held := false })⟩

def forAll (f : ι → Locking σ ε Unit) : List ι → Locking σ ε Unit
  | [] => pure ()
  | i :: is => do
    f i
    forAll f is

/-- Started with the mutex free, the computation never locks it twice and leaves it free. -/
def Disciplined (x : Locking σ ε α) (s : σ) : Prop :=
  (x.run ⟨s, false⟩).1 ≠ .error .relocked ∧ (x.run ⟨s, false⟩).2.held = false

@[simp] theorem run_pure (a : α) (g : Guarded σ) : (pure a : Locking σ ε α).run g = (.ok a, g) := rfl

theorem run_bind_ok {x : Locking σ ε α} {f : α → Locking σ ε β} {g g' : Guarded σ} {a : α}
    (h : x.run g = (.ok a, g')) : (x >>= f).run g = (f a).run g' := by
  simp only [bind, h]

theorem run_bind_error {x : Locking σ ε α} {f : α → Locking σ ε β} {g g' : Guarded σ}
    {e : Stop ε} (h : x.run g = (.error e, g')) : (x >>= f).run g = (.error e, g') := by
  simp only [bind, h]

@[simp] theorem run_get_bind (f : σ → Locking σ ε β) (g : Guarded σ) :
    (get >>= f).run g = (f g.state).run g := rfl

@[simp] theorem run_modify_bind (k : σ → σ) (f : Unit → Locking σ ε β) (s : σ) (b : Bool) :
    (modify k >>= f).run ⟨s, b⟩ = (f ()).run ⟨k s, b⟩ := rfl

@[simp] theorem run_throw_bind (e : ε) (f : α → Locking σ ε β) (g : Guarded σ) :
    (throw e >>= f).run g = (.error (.thrown e), g) := rfl

@[simp] theorem run_lock_bind (f : Unit → Locking σ ε β) (s : σ) :
    (lock >>= f).run ⟨s, false⟩ = (f ()).run ⟨s, true⟩ := rfl

@[simp] theorem run_relock_bind (f : Unit → Locking σ ε β) (s : σ) :
    (lock >>= f).run ⟨s, true⟩ = (.error .relocked, ⟨s, true⟩) := rfl

@[simp] theorem run_unlock_bind (f : Unit → Locking σ ε β) (s : σ) (b : Bool) :
    (unlock >>= f).run ⟨s, b⟩ = (f ()).run ⟨s, false⟩ := rfl

section ForAll

variable {f : ι → Locking σ ε Unit} {g g' : Guarded σ}

theorem forAll_cons_ok {i : ι} {is : List ι} (h : (f i).run g = (.ok (), g')) :
    (forAll f (i :: is)).run g = (forAll f is).run g' := run_bind_ok h

theorem forAll_append_ok {is js : List ι} (h : (forAll f is).run g = (.ok (), g')) :
    (forAll f (is ++ js)).run g = (forAll f js).run g' := by
  induction is generalizing g with
  | nil =>
    obtain rfl : g = g' := congrArg Prod.snd h
    rfl
  | cons i is ih =>
    rcases hi : (f i).run g with ⟨_ | _, g₁⟩
    · rw [forAll, run_bind_error hi] at h
      cases h
    · rw [forAll_cons_ok hi] at h
      rw [List.cons_append, forAll_cons_ok hi, ih h]

theorem forAll_append_error {is js : List ι} {e : Stop ε}
    (h : (forAll f is).run g = (.error e, g')) : (forAll f (is ++ js)).run g = (.error e, g') := by
  induction is generalizing g with
  | nil => cases h
  | cons i is ih =>
    rcases hi : (f i).run g with ⟨_ | _, g₁⟩
    · rw [forAll, run_bind_error hi] at h
      rw [List.cons_append, forAll, run_bind_error hi, h]
    · rw [forAll_cons_ok hi] at h
      rw [List.cons_append, forAll_cons_ok hi, ih h]

end ForAll

theorem disciplined_of_returns {x : Locking σ ε α} {s s' : σ} {a : α}
    (h : x.run ⟨s, false⟩ = (.ok a, ⟨s', false⟩)) : Disciplined x s := by
  simp [Disciplined, h]

theorem disciplined_of_throws {x : Locking σ ε α} {s s' : σ} {e : ε}
    (h : x.run ⟨s, false⟩ = (.error (.thrown e), ⟨s', false⟩)) : Disciplined x s := by
  simp [Disciplined, h]

theorem not_disciplined_of_relocked {x : Locking σ ε α} {s : σ} {g : Guarded σ}
    (h : x.run ⟨s, false⟩ = (.error .relocked, g)) : ¬ Disciplined x s := by
  simp [Disciplined, h]

theorem not_disciplined_of_held {x : Locking σ ε α} {s s' : σ} {r : Except (Stop ε) α}
    (h : x.run ⟨s, false⟩ = (r, ⟨s', true⟩)) : ¬ Disciplined x s := by
  simp [Disciplined, h]

theorem disciplined_discard (x : Locking σ ε α) (s : σ) :
    Disciplined (x >>= fun _ => (pure () : Locking σ ε Unit)) s ↔ Disciplined x s := by
  rcases h : x.run ⟨s, false⟩ with ⟨_ | _, g⟩
  · simp [Disciplined, run_bind_error h, h]
  · simp [Disciplined, run_bind_ok h, h]

end Locking

end HandLock
