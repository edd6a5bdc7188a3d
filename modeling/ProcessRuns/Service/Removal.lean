import ProcessRuns.Service.Shared

/-! # Removals

A process is forgotten: its definition goes, its packages that were not dispatched are taken out of the queues,
and their registers are closed. -/

namespace ProcessRuns

/-- The steps of a removal, by what it does next; each knows how many packages were taken out. -/
inductive Removal where
  | forget (processId : ProcessId)
  | strip (processId : ProcessId)
  | takeLog (packages : List Package)
  /-- Closes the register of the first package. -/
  | close (logger : Logger) (count : Nat) (packages : List Package)
  | announce (logger : Logger) (count : Nat) (package : Package) (packages : List Package)
  | done (count : Nat)

namespace Removal

variable {σ : Type}

/-- The part of the removal that is under way, counted down. -/
def stage : Removal → Nat
  | forget _ => 4
  | strip _ => 3
  | takeLog _ => 2
  | close _ _ _ => 1
  | announce _ _ _ _ => 1
  | done _ => 0

/-- The writes and announcements that are left. -/
def left : Removal → Nat
  | close _ _ packages => 2 * packages.length
  | announce _ _ _ packages => 2 * packages.length + 1
  | _ => 0

/-- The next step of a removal. -/
def step [Storage σ] (now : Instant) (r : Removal) (s : Shared σ) : Removal × Shared σ :=
  match r with
  | forget processId => (strip processId, { s with registry := s.registry.remove processId })
  | strip processId =>
    let (packages, scheduler) := s.scheduler.remove processId
    (if packages.isEmpty then done 0 else takeLog packages, { s with scheduler })
  | takeLog packages => (close s.logger packages.length packages, s)
  | close _ count [] => (done count, s)
  | close logger count (p :: packages) =>
    (announce logger count p packages, (s.onStorage (logger.result .notExecuted none p.registerId now)).2)
  | announce logger count p packages =>
    (close logger count packages, s.publish p.processId p.registerId .notExecuted)
  | done count => (done count, s)

/-- The number of packages that were taken out, once the removal is done. -/
def result? : Removal → Option Nat
  | done count => some count
  | _ => none

/-- Every step but that of a removal that is done leads on. -/
theorem step_leads_on [Storage σ] (now : Instant) (r : Removal) (s : Shared σ) (h : r.result? = none) :
    (r.step now s).1.stage < r.stage ∨
      ((r.step now s).1.stage = r.stage ∧ (r.step now s).1.left < r.left) := by
  cases r with
  | forget => simp [step, stage]
  | strip => simp only [step]; split <;> simp [stage]
  | takeLog => simp [step, stage]
  | close logger count packages =>
    cases packages with
    | nil => simp [step, stage]
    | cons p packages => right; simp [step, stage, left]; omega
  | announce => right; simp [step, stage, left]
  | done count => simp [result?] at h

/-- A removal without anything in between; the number of packages that were taken out. -/
def run [Storage σ] (now : Instant) (r : Removal) (s : Shared σ) : Nat × Shared σ :=
  match _going : r.result? with
  | some count => (count, s)
  | none => run now (r.step now s).1 (r.step now s).2
termination_by (r.stage, r.left)
decreasing_by
  rcases step_leads_on now r s _going with h | ⟨h, h'⟩
  · exact Prod.Lex.left _ _ h
  · rw [h]; exact Prod.Lex.right _ h'

end Removal

end ProcessRuns
