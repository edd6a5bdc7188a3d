import ProcessRuns.Proofs.Activities.Order
import ProcessRuns.Proofs.Activities.Wakeups
import ProcessRuns.Proofs.Service.Timers

/-! # Services that were stopped

A stop is for good: no call launches the service again, and once the main loop has seen the stop nothing brings it back.
The timers are given up at the stop itself and at no time after it, so a registration that comes later gives its process
a timer as if the service were running. -/

namespace ProcessRuns

namespace Keyed

variable {κ α : Type} [DecidableEq κ]

theorem size_eq_zero_iff (m : Keyed κ α) : m.size = 0 ↔ ∀ key, m.get? key = none := by
  obtain ⟨entries⟩ := m
  cases entries with
  | nil => exact ⟨fun _ _ => rfl, fun _ => rfl⟩
  | cons e rest =>
    refine ⟨fun h => (List.cons_ne_nil e rest (List.length_eq_zero_iff.mp h)).elim, fun h => ?_⟩
    have hfirst := h e.1
    rw [get?_cons, if_pos rfl] at hfirst
    cases hfirst

end Keyed

/-! ### The main loop -/

section
variable {σ : Type}

/-- The main loop has seen the stop. -/
def Shared.IsOver (s : Shared σ) : Prop := s.loop = .stopped

theorem Shared.IsOver.wake {s : Shared σ} (h : s.IsOver) : s.wake.IsOver := by
  rcases s.wake_cases with ⟨hasleep, -⟩ | ⟨-, hs⟩
  · exact LoopPhase.noConfusion (h.symm.trans hasleep)
  · rw [hs]
    exact h

theorem Shared.IsOver.loopStep {s : Shared σ} (h : s.IsOver) : s.loopStep = (none, s) := by
  rw [Shared.loopStep, h]

variable [Storage σ] {s : Shared σ} (now : Instant)

theorem Admission.isOver_step (a : Admission) (h : s.IsOver) : (a.step now s).2.IsOver := by
  cases a with
  | find pid date => rcases step_find now s pid date with hs | hs <;> rw [hs] <;> exact h
  | openRegister logger pid date =>
    rcases step_openRegister now s logger pid date with ⟨_, _, -, hs⟩ | ⟨_, _, -, hs⟩ <;> rw [hs] <;> exact h
  | place logger p => rcases step_place now s logger p with ⟨-, hs⟩ | ⟨-, -, hs⟩ | ⟨-, -, hs⟩ <;>
      rw [hs] <;> exact h
  | wake p => exact h.wake
  | takeLog | mark | announce | done => exact h

theorem Removal.isOver_step (r : Removal) (h : s.IsOver) : (r.step now s).2.IsOver := by
  cases r with
  | close logger count packages => cases packages <;> exact h
  | forget | strip | takeLog | announce | done => exact h

theorem Run.isOver_step (r : Run) (h : s.IsOver) : (r.step now s).2.IsOver := by
  obtain ⟨p, logger, stage⟩ := r
  cases stage with
  | explain e =>
    simp only [step]
    cases e.message? <;> exact h
  | wake e => exact h.wake
  | _ => exact h

end

namespace Activities

variable {σ : Type} [Storage σ]

/-- A main loop that is over stays so, whatever happens next. -/
theorem isOver_step {s : Activities σ} (h : s.shared.IsOver) (m : Move) : (s.step m).shared.IsOver := by
  have performed : ∀ (c : JobContext) now action, (c.perform now action s.shared).2.IsOver := by
    intro c now action
    obtain ⟨_, -, hs⟩ := c.perform_snd now action s.shared
    rw [hs]
    exact h
  cases m with
  | admission i now =>
    simp only [step]
    cases s.admissions[i]? with
    | none => exact h
    | some a => exact a.isOver_step now h
  | removal i now =>
    simp only [step]
    cases s.removals[i]? with
    | none => exact h
    | some r => exact r.isOver_step now h
  | run i now =>
    simp only [step]
    cases s.runs[i]? with
    | none => exact h
    | some r => exact r.isOver_step now h
  | act i action now =>
    simp only [step]
    cases s.runs[i]? with
    | none => exact h
    | some r =>
      simp only [Option.elim_some, act]
      split
      · exact performed _ _ _
      · exact h
  | answer i result =>
    simp only [step]
    cases s.runs[i]? <;> exact h
  | loop =>
    simp only [step, loop, h.loopStep]
    exact h
  -- Only a main loop that was never launched is launched.
  | launch =>
    have hstay : s.launch = s := by
      rw [launch, h]
    simp only [step, hstay]
    exact h
  | halt =>
    have hstay : s.shared.loopStop = s.shared := by
      rw [Shared.loopStop, h]
    simp only [step, hstay]
    exact h
  | nudge =>
    simp only [step, nudge]
    split
    · exact h
    · exact h.wake
  | select name =>
    have hloop : s.shared.loop = .stopped := h
    simp only [step, Shared.selectTable, Action.within, Shared.IsOver]
    exact hloop
  | outside c action now => exact performed c now action
  | request | forget | release | lookUp | define | undefine | disown | resize | withdraw => exact h

/-- A main loop that is over dispatches nothing. -/
theorem packages_of_isOver {s : Activities σ} (h : s.shared.IsOver) (m : Move) :
    (s.step m).runs.map (·.package) = s.runs.map (·.package) := by
  have hnone : (s.happening? m).toList.filterMap (·.dispatched?) = [] := by
    cases hx : s.happening? m with
    | none => rfl
    | some x =>
      rcases dispatched_of_happening hx with rfl | hnone
      · rw [happening?, h.loopStep] at hx
        cases hx
      · simp [hnone]
  rw [runs_step, hnone, List.append_nil]

theorem isOver_after {s : Activities σ} (h : s.shared.IsOver) (moves : List Move) :
    (s.after moves).shared.IsOver ∧ (s.after moves).runs.map (·.package) = s.runs.map (·.package) :=
  after_keep (P := fun t => t.shared.IsOver ∧ t.runs.map (·.package) = s.runs.map (·.package)) s ⟨h, rfl⟩
    fun _ ht m _ => ⟨isOver_step ht.1 m, (packages_of_isOver ht.1 m).trans ht.2⟩

end Activities

/-! ### The service -/

/-- The service goes away. -/
def ServiceCall.isDrop : ServiceCall → Bool
  | drop => true
  | _ => false

namespace Service

variable {σ : Type} {s t u : Service σ}

/-- The service is stopped, and no run has come up. -/
structure StaysStopped (s t : Service σ) : Prop where
  phase : t.phase = .stopped
  started : t.started = s.started
  runs : t.runs.Sublist s.runs

namespace StaysStopped

theorem trans (h : StaysStopped s t) (h' : StaysStopped t u) : StaysStopped s u :=
  ⟨h'.phase, h'.started.trans h.started, h'.runs.trans h.runs⟩

theorem of_same (stopped : s.phase = .stopped) (phase : t.phase = s.phase) (started : t.started = s.started)
    (runs : t.runs = s.runs) : StaysStopped s t :=
  ⟨phase.trans stopped, started, runs ▸ .refl _⟩

end StaysStopped

theorem stop_of_stopped (stopped : s.phase = .stopped) : s.stop = s := by
  simp only [stop, stopped]

theorem launch_of_stopped (stopped : s.phase = .stopped) : s.launch = s := by
  simp only [launch, stopped]

theorem phase_stop (launched : s.phase = .launched) : s.stop.phase = .stopped := by
  simp only [stop, launched]

theorem timers_stop (launched : s.phase = .launched) : s.stop.timers = ∅ := by
  simp only [stop, launched, clearTimers]

variable [Storage σ]

theorem staysStopped_trigger (stopped : s.phase = .stopped) (pid : ProcessId) (date now : Instant) :
    StaysStopped s (s.trigger pid date now) := .of_same stopped rfl rfl rfl

theorem staysStopped_add (stopped : s.phase = .stopped) (p : ProcessDefinition) : StaysStopped s (s.add p).2 := by
  obtain ⟨-, hruns, hphase⟩ := s.add_cases p
  refine .of_same stopped hphase ?_ hruns
  cases timed : s.timed? p with
  | none => rw [add_untimed timed]
  | some schedule =>
    unfold add
    simp only
    split
    · split
      · split
        · rfl
        · split <;> rfl
      · rfl
    · rfl

theorem staysStopped_reprocess (stopped : s.phase = .stopped) (pid : ProcessId) (dates : List Instant) (now : Instant) :
    StaysStopped s (dates.foldl (fun s date => s.trigger pid date now) s) :=
  List.foldlRecOn (motive := StaysStopped s) dates _ (.of_same stopped rfl rfl rfl) fun _ ht date _ =>
    ht.trans (staysStopped_trigger ht.phase pid date now)

theorem staysStopped_settle (stopped : s.phase = .stopped) (now : Instant) : StaysStopped s (s.settle now) := by
  have haccept : (s.tick now).accept now = s.tick now := if_neg fun hno => Phase.noConfusion (stopped.symm.trans hno)
  have hdispatch : ((s.tick now).withdraw).dispatch now =
      { (s.tick now).withdraw with shared := (s.tick now).withdraw.shared.loopStop } := by
    simp only [dispatch, show (s.tick now).withdraw.phase = _ from stopped]
  have hhear : Service.hear { (s.tick now).withdraw with shared := (s.tick now).withdraw.shared.loopStop } =
      { (s.tick now).withdraw with shared := (s.tick now).withdraw.shared.loopStop } :=
    if_neg fun hno => Phase.noConfusion (stopped.symm.trans hno)
  rw [settle, haccept, hdispatch, hhear]
  exact .of_same stopped rfl rfl rfl

/-- No call launches a stopped service, and none starts a run on it. -/
theorem staysStopped_call (stopped : s.phase = .stopped) (now : Instant) (c : ServiceCall) :
    StaysStopped s (s.call now c) := by
  cases c with
  | launch =>
    rw [call, launch_of_stopped stopped]
    exact .of_same stopped rfl rfl rfl
  | stop =>
    rw [call, stop_of_stopped stopped]
    exact .of_same stopped rfl rfl rfl
  | drop =>
    rw [call, drop, stop_of_stopped stopped]
    exact ⟨rfl, rfl, .refl _⟩
  | add p => exact staysStopped_add stopped p
  | remove pid => exact .of_same stopped rfl rfl rfl
  | update p =>
    have hremove : StaysStopped s (s.remove p.id now).2 := .of_same stopped rfl rfl rfl
    exact hremove.trans (staysStopped_add hremove.phase p)
  | trigger pid date => exact staysStopped_trigger stopped pid date now
  | reprocess pid a b schedule =>
    simp only [call, reprocess]
    split
    · exact .of_same stopped rfl rfl rfl
    · exact staysStopped_reprocess stopped pid _ now
  | select name =>
    simp only [call, selectTable]
    exact .of_same stopped rfl rfl rfl
  | settle => exact staysStopped_settle stopped now
  | conclude pid script =>
    simp only [call]
    cases s.working? pid with
    | none => exact .of_same stopped rfl rfl rfl
    | some r => exact ⟨stopped, rfl, List.eraseP_sublist⟩
  | subscribe | notifyWaiting | resize => exact .of_same stopped rfl rfl rfl

theorem staysStopped_afterCalls (stopped : s.phase = .stopped) (calls : List (Instant × ServiceCall)) :
    StaysStopped s (s.afterCalls calls) :=
  List.foldlRecOn (motive := StaysStopped s) calls _ (.of_same stopped rfl rfl rfl) fun _ ht c _ =>
    ht.trans (staysStopped_call ht.phase c.1 c.2)

/-- Registrations and removals change the timers of a stopped service as they change those of any other. -/
theorem periodOf?_stopped (stopped : s.phase = .stopped) {calls : List (Instant × ServiceCall)}
    (kept : ∀ c ∈ calls, c.2.isDrop = false) (pid : ProcessId) :
    (s.afterCalls calls).periodOf? pid = (s.timerChanges pid calls).getLast?.getD (s.periodOf? pid) := by
  refine periodOf?_of_changes (P := fun t => t.phase = .stopped) stopped
    (fun t ht c _ => (staysStopped_call ht c.1 c.2).phase) fun t ht c hc => ?_
  -- A second stop finds nothing to clear, so what was tracked since the first one stays.
  cases hends : c.2.ends with
  | false => exact t.periodOf?_call c.1 hends pid
  | true =>
    obtain ⟨now, c⟩ := c
    cases c with
    | stop => exact congrArg (periodOf? · pid) (stop_of_stopped ht)
    | drop => cases kept _ hc
    | _ => cases hends

/-- A launched service that is stopped stays so, whatever is called on it then: it never shows as launched again, and
no job starts on it. The timers that it had are gone, and those it has are the ones that calls since the stop have
given and not taken away: it has none exactly if there is none of these. And under any interleaving a main loop that
has seen the stop dispatches nothing any more. -/
theorem stop_is_for_good (kind : ServiceKind) (instanceId cores workers : Nat) (logger : Logger) (registry : Registry)
    (storage : σ) {before calls : List (Instant × ServiceCall)}
    (launched : ((create kind instanceId cores workers logger registry storage).afterCalls before).phase = .launched)
    (kept : ∀ c ∈ calls, c.2.isDrop = false) :
    let start := create kind instanceId cores workers logger registry storage
    let stopped := (start.afterCalls before).stop
    let s := stopped.afterCalls calls
    s.status.launched = false ∧ s.started = stopped.started ∧ s.runs.Sublist stopped.runs ∧
    (∀ pid, s.periodOf? pid = (stopped.timerChanges pid calls).getLast?.join) ∧
    (s.status.timers = 0 ↔ ∀ pid, (stopped.timerChanges pid calls).getLast?.join = none) ∧
    ∀ moves more, let seen := (Activities.ofService start).after moves
      seen.shared.IsOver →
        (seen.after more).shared.IsOver ∧ (seen.after more).runs.map (·.package) = seen.runs.map (·.package) := by
  intro start stopped s
  have hphase : stopped.phase = .stopped := phase_stop launched
  have hstays := staysStopped_afterCalls hphase calls
  have hperiod : ∀ pid, s.periodOf? pid = (stopped.timerChanges pid calls).getLast?.join := fun pid => by
    -- The stop has cleared the timers, so nothing comes from before it.
    have hnone : stopped.periodOf? pid = none := by
      rw [periodOf?, timers_stop launched]
      rfl
    refine (periodOf?_stopped hphase kept pid).trans ?_
    rw [hnone]
    cases (stopped.timerChanges pid calls).getLast? <;> rfl
  refine ⟨?_, hstays.started, hstays.runs, hperiod, ?_, fun moves more hover => Activities.isOver_after hover more⟩
  · exact decide_eq_false fun hno => Phase.noConfusion (hstays.phase.symm.trans hno)
  · refine (s.timers.size_eq_zero_iff).trans (forall_congr' fun pid => ?_)
    rw [← hperiod, periodOf?, Option.map_eq_none_iff]

/-- A process with an hourly schedule is registered with a service that was stopped. -/
def scheduledLate : List (Instant × ServiceCall) :=
  [(.epoch, .launch), (.epoch, .add ⟨1, 1, true, some ⟨1, "h"⟩⟩), (.epoch, .settle)]

theorem stop_is_for_good_of_scheduledLate :
    let launched := (create .collector 1 4 2 ⟨some Activities.soloTable⟩ ∅ Activities.soloLog).afterCalls
      [(.epoch, .launch)]
    launched.phase = .launched ∧ (∀ c ∈ scheduledLate, c.2.isDrop = false) ∧
      let s := launched.stop.afterCalls scheduledLate
      s.status.launched = false ∧ s.periodOf? 1 = some 3600 ∧ s.status.timers ≠ 0 := by
  have kept : ∀ c ∈ scheduledLate, c.2.isDrop = false := by decide
  have launched : ((create .collector 1 4 2 ⟨some Activities.soloTable⟩ ∅ Activities.soloLog).afterCalls
    [(.epoch, .launch)]).phase = .launched := rfl
  obtain ⟨hlaunched, -, -, hperiod, hnone, -⟩ := stop_is_for_good .collector 1 4 2 ⟨some Activities.soloTable⟩ ∅
    Activities.soloLog launched kept
  refine ⟨launched, kept, hlaunched, (hperiod 1).trans (by decide +kernel), fun hno => ?_⟩
  exact absurd (hnone.mp hno 1) (by decide +kernel)

end Service

end ProcessRuns
