import ProcessRuns.Failure
import ProcessRuns.Keyed

/-! # Broadcasts

A queue that every subscriber reads for itself, from the message after its subscription on. Only the latest
messages are kept: who lags behind is told how many it missed and goes on with the oldest one kept. -/

namespace ProcessRuns

/-- Messages, and how far each subscriber has come in them. -/
structure Broadcast (κ α : Type) where
  /-- How many messages are kept. -/
  capacity : Nat
  /-- Every message that had a subscriber, oldest first. -/
  history : List α := []
  /-- How many messages lie behind each subscriber. -/
  positions : Keyed κ Nat := ∅

namespace Broadcast

variable {κ α : Type} [DecidableEq κ]

/-- What a subscriber finds. -/
inductive Received (α : Type) where
  | message (m : α)
  | empty
  | lagged (missed : Nat)
deriving Repr

/-- A queue for a number of messages, rounded up to a power of two; breaks off where the number is zero. -/
def ofCapacity (n : Nat) : Except Failure (Broadcast κ α) :=
  if n = 0 then .error .abort else .ok { capacity := n.nextPowerOfTwo }

/-- Adds a subscriber, for whom the messages so far lie behind. -/
def subscribe (q : Broadcast κ α) (key : κ) : Broadcast κ α :=
  { q with positions := q.positions.set key q.history.length }

/-- Takes a subscriber away. -/
def unsubscribe (q : Broadcast κ α) (key : κ) : Broadcast κ α := { q with positions := q.positions.erase key }

/-- Publishes a message and says how many subscribers it has; without any it is dropped. -/
def publish (q : Broadcast κ α) (m : α) : Nat × Broadcast κ α :=
  if q.positions.size = 0 then (0, q) else (q.positions.size, { q with history := q.history ++ [m] })

/-- The next message of a subscriber. -/
def receive (q : Broadcast κ α) (key : κ) : Received α × Broadcast κ α :=
  match q.positions.get? key with
  | none => (.empty, q)
  | some position =>
    let oldest := q.history.length - q.capacity
    if position < oldest then (.lagged (oldest - position), { q with positions := q.positions.set key oldest })
    else
      match q.history[position]? with
      | some m => (.message m, { q with positions := q.positions.set key (position + 1) })
      | none => (.empty, q)

end Broadcast

end ProcessRuns
