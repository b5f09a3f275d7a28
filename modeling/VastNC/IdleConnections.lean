import VastNC.Framing

/-! `VASTnet::cleanConnections`: which connections it closes for having been idle. -/

namespace VastNC

open Std (ExtTreeMap)

/-- A `net_manager`: the last access time of each connection in `_id2conn`, and whatever else it keeps. -/
structure NetTable (ρ : Type) where
  id2conn : ExtTreeMap UInt64 UInt64 := ∅
  rest : ρ

namespace NetTable

variable {ρ : Type}

def isConnected (m : NetTable ρ) (target : UInt64) : Bool := m.id2conn.contains target

def getLastTime (m : NetTable ρ) (id : UInt64) : UInt64 := m.id2conn[id]?.getD 0

end NetTable

/-- The fields of `VASTnet` that the cleanup uses; `msPerTimestep` is the global of the timeouts. -/
structure Connections (ρ : Type) where
  manager : NetTable ρ
  timeAdjust : Int32 := 0
  sec2timestamp : UInt64
  msPerTimestep : Int
  sendbufTCP : ExtTreeMap UInt64 VASTBuffer := ∅
  sendbufUDP : ExtTreeMap UInt64 VASTBuffer := ∅

namespace Connections

variable {ρ : Type}

/-- `clock` is what the manager's clock shows. -/
def getTimestamp (n : Connections ρ) (clock : UInt64) : UInt64 := clock + UInt64.ofInt n.timeAdjust.toInt

/-- `TIMEOUT_REMOVE_CONNECTION` seconds in units of the clock. -/
def timeout (n : Connections ρ) : UInt64 := UInt64.ofInt ((1500 * n.msPerTimestep).tdiv 1000) * n.sec2timestamp

section Code

variable (disconnect : NetTable ρ → UInt64 → NetTable ρ × Bool)

/-- `disconnect` is the manager's, which each of its subclasses defines. -/
def removeConnection (n : Connections ρ) (target : UInt64) : Connections ρ × Bool :=
  let (manager, removed) := disconnect n.manager target
  let tcp := n.sendbufTCP.contains target
  let udp := n.sendbufUDP.contains target
  ({ n with manager, sendbufTCP := n.sendbufTCP.erase target, sendbufUDP := n.sendbufUDP.erase target },
    removed || tcp || udp)

def selects (n : Connections ρ) (now : UInt64) (id : UInt64) : Bool :=
  let lasttime := n.manager.getLastTime id
  if lasttime = 0 ∨ now - lasttime < n.timeout then false
  else if n.manager.isConnected id then false
  else true

def removeList (n : Connections ρ) (clock : UInt64) : List UInt64 :=
  n.sendbufTCP.keys.filter (n.selects (n.getTimestamp clock))

def cleanConnections (n : Connections ρ) (clock : UInt64) : Connections ρ :=
  (n.removeList clock).foldl (fun n id => (n.removeConnection disconnect id).1) n

end Code

/-- The connection has a last access time, and by the clock that recorded it the timeout has passed since. -/
def Idle (n : Connections ρ) (clock id : UInt64) : Prop :=
  ∃ lasttime, n.manager.id2conn[id]? = some lasttime ∧ lasttime ≠ 0 ∧
    lasttime.toNat + n.timeout.toNat ≤ clock.toNat

/-- Every target with a send buffer that was idle is disconnected, and no other connection. -/
structure CleanedUp (clock : UInt64) (n n' : Connections ρ) : Prop where
  closed : ∀ id ∈ n.sendbufTCP, ¬ n'.Idle clock id
  kept : ∀ id lasttime, n.manager.id2conn[id]? = some lasttime → ¬ n.Idle clock id →
    n'.manager.id2conn[id]? = some lasttime

variable {n : Connections ρ} {clock id : UInt64}

/-- A target with a last access time is connected, so that one of the two tests always passes it over. -/
theorem selects_eq_false (n : Connections ρ) (now id : UInt64) : n.selects now id = false := by
  by_cases hc : n.manager.isConnected id = true
  · simp [selects, hc]
  · have hget : n.manager.id2conn[id]? = none := by
      simpa [NetTable.isConnected] using hc
    simp [selects, NetTable.getLastTime, hget]

theorem cleanConnections_eq (disconnect : NetTable ρ → UInt64 → NetTable ρ × Bool) (n : Connections ρ)
    (clock : UInt64) : n.cleanConnections disconnect clock = n := by
  have hnone : n.removeList clock = [] := by
    apply List.filter_eq_nil_iff.mpr
    intro id _
    simp [selects_eq_false]
  rw [cleanConnections, hnone, List.foldl_nil]

/-- The cleanup does what it is there for exactly when there is nothing for it to do. -/
theorem cleaned_up_iff (disconnect : NetTable ρ → UInt64 → NetTable ρ × Bool) (n : Connections ρ)
    (clock : UInt64) :
    CleanedUp clock n (n.cleanConnections disconnect clock) ↔ ∀ id ∈ n.sendbufTCP, ¬ n.Idle clock id := by
  rw [cleanConnections_eq]
  constructor
  · exact CleanedUp.closed
  · intro h
    exact ⟨h, fun _ _ hget _ => hget⟩

def erasing (m : NetTable Unit) (id : UInt64) : NetTable Unit × Bool :=
  ({ m with id2conn := m.id2conn.erase id }, m.isConnected id)

def forgotten : Connections Unit where
  manager := { id2conn := (∅ : ExtTreeMap UInt64 UInt64).insert 9 1, rest := () }
  sec2timestamp := 1000
  msPerTimestep := 100
  sendbufTCP := (∅ : ExtTreeMap UInt64 VASTBuffer).insert 9 ⟨[], vastBufsiz, Nat.zero_le vastBufsiz⟩

theorem idle_connection_stays : ¬ ∀ (n : Connections Unit) (clock : UInt64),
    CleanedUp clock n (n.cleanConnections erasing clock) := by
  intro h
  have hidle := (cleaned_up_iff erasing forgotten 1000000).mp (h forgotten 1000000) 9 (by decide +kernel)
  exact hidle ⟨1, by decide +kernel, by decide +kernel, by decide +kernel⟩

end Connections

end VastNC
