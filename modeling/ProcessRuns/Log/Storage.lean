import ProcessRuns.Log.Register
import ProcessRuns.Log.StorageCall
import ProcessRuns.Log.Table

/-! # Storages

What a process log asks of the place where its rows are kept. An operation succeeds or fails, and either way
leaves a storage behind: what it did before it failed is not taken back. -/

namespace ProcessRuns

/-- An operation on a state that may fail. -/
def Action (σ α : Type) : Type := σ → Except Failure α × σ

namespace Action

variable {σ ρ α β : Type}

/-- Fails and leaves the state as it was. -/
def fail (e : Failure) : Action σ α := fun s => (.error e, s)

/-- One action after the other; a failure ends them. -/
def andThen (a : Action σ α) (f : α → Action σ β) : Action σ β := fun s =>
  match a s with
  | (.ok x, s) => f x s
  | (.error e, s) => (.error e, s)

instance : Monad (Action σ) where
  pure x := fun s => (.ok x, s)
  bind := andThen

/-- A result that does not depend on the state. -/
def ofExcept (x : Except Failure α) : Action σ α := fun s => (x, s)

/-- The operation on a part of a larger state. -/
def within (part : ρ → σ) (replace : σ → ρ → ρ) (a : Action σ α) : Action ρ α := fun r =>
  ((a (part r)).1, replace (a (part r)).2 r)

@[simp] theorem pure_apply (x : α) (s : σ) : (pure x : Action σ α) s = (.ok x, s) := rfl

@[simp] theorem fail_apply (e : Failure) (s : σ) : (fail e : Action σ α) s = (.error e, s) := rfl

theorem bind_apply (a : Action σ α) (f : α → Action σ β) (s : σ) :
    (a >>= f) s = match a s with
      | (.ok x, s) => f x s
      | (.error e, s) => (.error e, s) := rfl

end Action

/-- The operations of a storage whose states are of type `σ`. Each call stands for itself. -/
class Storage (σ : Type) where
  /-- Creates the two tables where they are missing. -/
  init : LogTable → Action σ Unit
  /-- Adds a register and gives its id. -/
  insertRegister : LogTable → ProcessId → Status → Instant → Action σ RegisterId
  /-- Writes a register's status, data timestamp and time of writing; says whether the register exists. -/
  updateResult : LogTable → RegisterId → Status → Option Instant → Instant → Action σ Bool
  /-- Adds a message and gives its id, or none if the register does not exist. -/
  insertMessage : LogTable → RegisterId → MessageType → String → Instant → Action σ (Option Nat)
  /-- Puts a value at the end of a register's list under a tag; says whether the register exists. -/
  appendValue : LogTable → RegisterId → (tag value : String) → Action σ Bool
  maxLastProcess : LogTable → ProcessId → Action σ (Option Instant)
  maxData : LogTable → ProcessId → Action σ (Option Instant)
  /-- The registers of a process, newest first: `limit` of them after the first `offset`. -/
  registers : LogTable → ProcessId → (offset limit : Nat) → Action σ (List Register)
  /-- The messages of some registers, oldest first. -/
  messages : LogTable → List RegisterId → Action σ (List LogMessage)
  /-- Gives every register in one of the old statuses the new one; counts them. -/
  updateStatus : LogTable → List Status → Status → Action σ Nat

end ProcessRuns
