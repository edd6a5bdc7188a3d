import ProcessRuns.Proofs.Service.Timers

/-! # Registrations that fail

A registration puts its definition in place of the old one before it looks up when the process last ran and makes the
timer, and a replacement removes the process before that. Nothing is taken back where one of these steps fails. -/

namespace ProcessRuns

variable {σ : Type} [Storage σ]

/-! ### Removals -/

namespace Removal

theorem run_of_going {r : Removal} (going : r.result? = none) (now : Instant) (s : Shared σ) :
    r.run now s = (r.step now s).1.run now (r.step now s).2 := by
  rw [run]
  split
  · rename_i hover
    rw [going] at hover
    cases hover
  · rfl

theorem run_done (count : Nat) (now : Instant) (s : Shared σ) : (done count).run now s = (count, s) := by
  rw [run]
  rfl

/-- Once the packages are taken out the queues stay as they are. -/
theorem scheduler_run (r : Removal) (now : Instant) (s : Shared σ) (later : r.stage < 3) :
    (r.run now s).2.scheduler = s.scheduler := by
  rw [run]
  split
  · rfl
  · rename_i going
    have hleads := step_leads_on now r s going
    have hnext : (r.step now s).1.stage < 3 := by omega
    refine (scheduler_run _ now _ hnext).trans ?_
    cases r with
    | forget pid => exact absurd later (show ¬ 4 < 3 by decide)
    | strip pid => exact absurd later (show ¬ 3 < 3 by decide)
    | close logger count packages => cases packages <;> rfl
    | takeLog | announce | done => rfl
termination_by (r.stage, r.left)
decreasing_by
  rcases step_leads_on now r s ‹_› with h | ⟨h, h'⟩
  · exact Prod.Lex.left _ _ h
  · rw [h]; exact Prod.Lex.right _ h'

theorem run_forget (now : Instant) (pid : ProcessId) (s : Shared σ) :
    (forget pid).run now s = (strip pid).run now { s with registry := s.registry.remove pid } := by
  rw [run_of_going rfl]
  rfl

theorem scheduler_forget (now : Instant) (pid : ProcessId) (s : Shared σ) :
    ((forget pid).run now s).2.scheduler = (s.scheduler.remove pid).2 := by
  rw [run_forget, run_of_going rfl]
  rcases step_strip now { s with registry := s.registry.remove pid } pid with ⟨-, h⟩ | h <;> rw [h]
  · rw [run_done]
  · exact scheduler_run _ now _ (show 2 < 3 by decide)

/-- A process with nothing in line is forgotten, and that is all. -/
theorem forget_of_nothing (now : Instant) {pid : ProcessId} {s : Shared σ} (h : s.scheduler.lineOf pid = []) :
    (forget pid).run now s =
      (0, { s with registry := s.registry.remove pid, scheduler := (s.scheduler.remove pid).2 }) := by
  have hstep : (strip pid).step now { s with registry := s.registry.remove pid } =
      (done 0, { s with registry := s.registry.remove pid, scheduler := (s.scheduler.remove pid).2 }) := by
    simp only [step, Scheduler.remove_fst, h]
    rfl
  rw [run_forget, run_of_going rfl, hstep, run_done]

end Removal

/-! ### Timers that cannot be made -/

/-- A schedule has no period, or no first tick can be set after a last run. -/
def Timer.Impossible (schedule : Schedule) (last : Option Instant) : Prop :=
  (∃ e, schedule.period = .error e) ∨ ∃ period date, schedule.period = .ok period ∧ last = some date ∧
    (Schedule.stepMax < period ∨ date.plus? period = none)

theorem Timer.create_fails_iff {schedule : Schedule} {pid : ProcessId} {last : Option Instant} :
    (∃ e, create schedule pid last = .error e) ↔ Impossible schedule last := by
  unfold create Impossible
  cases schedule.period with
  | error e => simp
  | ok period =>
    cases last with
    | none => simp [firstTickAfter, Except.map]
    | some date =>
      by_cases hlong : Schedule.stepMax < period
      · simp [firstTickAfter, hlong, Except.map]
      · cases hnext : date.plus? period <;> simp [firstTickAfter, hlong, hnext, Except.map]

namespace Service

variable {s t : Service σ} {p : ProcessDefinition} {schedule : Schedule} {e : Failure}

/-- The definition is in place, and the log was asked when its process last ran. -/
def defining (s : Service σ) (p : ProcessDefinition) : Service σ :=
  { s with shared := { s.shared with
      registry := s.shared.registry.add p
      storage := (s.shared.logger.lastProcess p.id s.shared.storage).2 } }

/-- A definition that is to have a timer is in place whether or not it gets one. -/
theorem add_eq (timed : s.timed? p = some schedule) : s.add p =
    match (s.shared.logger.lastProcess p.id s.shared.storage).1 with
    | .error e => (.error e, s.defining p)
    | .ok last =>
      match Timer.create schedule p.id last with
      | .error e => (.error e, s.defining p)
      | .ok t => (.ok (), (s.defining p).setTimer t) := by
  obtain ⟨hown, hschedule⟩ : (p.active && s.shared.owns p) = true ∧ p.schedule = some schedule := by
    unfold timed? at timed
    split at timed
    · exact ⟨‹_›, timed⟩
    · cases timed
  have howns : (p.active && ({ s.shared with registry := s.shared.registry.add p } : Shared σ).owns p) = true := hown
  simp only [add, hschedule]
  rw [if_pos howns]
  simp only [Shared.onStorage, Action.within, defining]
  cases (s.shared.logger.lastProcess p.id s.shared.storage).1 with
  | error e => rfl
  | ok last => cases hcreate : Timer.create schedule p.id last <;> simp only [hcreate]

/-- A registration fails if its definition is to have a timer, and the log cannot be asked or no timer can be made. -/
theorem add_fails_iff : (∃ e, (s.add p).1 = .error e) ↔ ∃ schedule, s.timed? p = some schedule ∧
    ((∃ e, (s.shared.logger.lastProcess p.id s.shared.storage).1 = .error e) ∨
      ∃ last, (s.shared.logger.lastProcess p.id s.shared.storage).1 = .ok last ∧
        Timer.Impossible schedule last) := by
  have impossible : ∀ schedule last, Timer.Impossible schedule last ↔
    ∃ e, Timer.create schedule p.id last = .error e :=
    fun _ _ => Timer.create_fails_iff.symm
  simp only [impossible]
  cases htimed : s.timed? p with
  | none => simp [add_untimed htimed]
  | some schedule =>
    rw [add_eq htimed]
    cases (s.shared.logger.lastProcess p.id s.shared.storage).1 with
    | error e => simp
    | ok last => cases hcreate : Timer.create schedule p.id last <;> simp [hcreate]

theorem add_error (h : s.add p = (.error e, t)) : t = s.defining p := by
  cases htimed : s.timed? p with
  | none =>
    rw [add_untimed htimed] at h
    cases h
  | some schedule =>
    rw [add_eq htimed] at h
    split at h
    · exact (congrArg Prod.snd h).symm
    · split at h
      · exact (congrArg Prod.snd h).symm
      · cases h

/-- Definitions, timers and packages are as they were, and all that was asked of the log is when a process last ran. -/
structure Unchanged (s t : Service σ) (pid : ProcessId) : Prop where
  registry : ∀ id, t.shared.registry.find? id = s.shared.registry.find? id
  timers : ∀ id, t.timers.get? id = s.timers.get? id
  queued : t.shared.scheduler.queued = s.shared.scheduler.queued
  waiting : ∀ id, t.shared.scheduler.waitQueue id = s.shared.scheduler.waitQueue id
  storage : t.shared.storage = (s.shared.logger.lastProcess pid s.shared.storage).2

theorem find?_defining (s : Service σ) (p : ProcessDefinition) (id : ProcessId) :
    (s.defining p).shared.registry.find? id = if id = p.id then some p else s.shared.registry.find? id := by
  show (s.shared.registry.set p.id p).get? id = _
  split
  · rename_i h
    rw [h, Keyed.get?_set_self]
  · rename_i h
    exact Keyed.get?_set_of_ne _ _ h

theorem unchanged_defining_iff : s.Unchanged (s.defining p) p.id ↔ s.shared.registry.find? p.id = some p := by
  constructor
  · intro h
    rw [← h.registry, find?_defining, if_pos rfl]
  · intro h
    refine ⟨fun id => ?_, fun _ => rfl, rfl, fun _ => rfl, rfl⟩
    rw [find?_defining]
    split
    · rename_i hid
      rw [hid, h]
    · rfl

theorem unchanged_replacing_iff (now : Instant) : s.Unchanged ((s.remove p.id now).2.defining p) p.id ↔
    s.shared.registry.find? p.id = some p ∧ s.timers.get? p.id = none ∧ s.shared.scheduler.lineOf p.id = [] := by
  have hscheduler : ((s.remove p.id now).2.defining p).shared.scheduler = (s.shared.scheduler.remove p.id).2 :=
    Removal.scheduler_forget now p.id s.shared
  constructor
  · intro h
    refine ⟨?_, ?_, ?_⟩
    · rw [← h.registry, find?_defining, if_pos rfl]
    · rw [← h.timers]
      exact Keyed.get?_erase_self s.timers p.id
    · have hline : (s.shared.scheduler.remove p.id).2.lineOf p.id = s.shared.scheduler.lineOf p.id := by
        rw [← hscheduler, Scheduler.lineOf, h.queued, h.waiting, Scheduler.lineOf]
      rw [← hline, Scheduler.lineOf_remove, if_pos rfl]
  · rintro ⟨hfound, htimer, hline⟩
    obtain ⟨hqueued, hwaiting⟩ := List.append_eq_nil_iff.mp hline
    have hshared : (s.remove p.id now).2.shared = { s.shared with
        registry := s.shared.registry.remove p.id, scheduler := (s.shared.scheduler.remove p.id).2 } :=
      congrArg Prod.snd (Removal.forget_of_nothing now hline)
    refine ⟨fun id => ?_, fun id => ?_, ?_, fun id => ?_, ?_⟩
    · rw [find?_defining, hshared]
      split
      · rename_i hid
        rw [hid, hfound]
      · rename_i hid
        exact Keyed.get?_erase_of_ne _ hid
    · show (s.timers.erase p.id).get? id = s.timers.get? id
      by_cases hid : id = p.id
      · rw [hid, Keyed.get?_erase_self, htimer]
      · exact Keyed.get?_erase_of_ne _ hid
    · rw [hscheduler]
      refine List.filter_eq_self.mpr fun q hq => ?_
      have hother := List.filter_eq_nil_iff.mp hqueued q hq
      simpa using hother
    · rw [hscheduler, Scheduler.waitQueue_erase s.shared.scheduler p.id rfl]
      split
      · rename_i hid
        rw [hid, hwaiting]
      · rfl
    · show ((s.remove p.id now).2.shared.logger.lastProcess p.id (s.remove p.id now).2.shared.storage).2 = _
      rw [hshared]

/-- A registration fails exactly if its definition is to have a timer and the log cannot be asked or no timer can be
made. By then the definition is in place, and nothing of it is taken back, so nothing has changed only where this very
definition was there before. A replacement that fails has also taken away the timer and the packages in line, so nothing
has changed only where moreover the process had neither. -/
theorem failed_registration_changes_nothing_iff (s : Service σ) (p : ProcessDefinition) :
    ((∃ e, (s.add p).1 = .error e) ↔ ∃ schedule, s.timed? p = some schedule ∧
      ((∃ e, (s.shared.logger.lastProcess p.id s.shared.storage).1 = .error e) ∨
        ∃ last, (s.shared.logger.lastProcess p.id s.shared.storage).1 = .ok last ∧
          Timer.Impossible schedule last)) ∧
    (∀ e t, s.add p = (.error e, t) →
      t = s.defining p ∧ (s.Unchanged t p.id ↔ s.shared.registry.find? p.id = some p)) ∧
    ∀ now e t, s.update p now = (.error e, t) →
      t = (s.remove p.id now).2.defining p ∧ (s.Unchanged t p.id ↔ s.shared.registry.find? p.id = some p ∧
        s.timers.get? p.id = none ∧ s.shared.scheduler.lineOf p.id = []) := by
  refine ⟨add_fails_iff, fun e t h => ?_, fun now e t h => ?_⟩
  · rw [add_error h]
    exact ⟨rfl, unchanged_defining_iff⟩
  · rw [add_error h]
    exact ⟨rfl, unchanged_replacing_iff now⟩

/-- A process with an hourly schedule is registered, and then the same process with a frequency of zero. -/
theorem failed_registration_changes_nothing_iff_of_zeroFrequency :
    let s := (create .collector 1 4 2 ⟨some Activities.soloTable⟩ ∅ Activities.soloLog).afterCalls
      [(.epoch, .add ⟨1, 1, true, some ⟨1, "h"⟩⟩)]
    let p : ProcessDefinition := ⟨1, 1, true, some ⟨0, "h"⟩⟩
    (s.add p).1 = .error .zeroFrequency ∧ ¬ s.Unchanged (s.add p).2 1 ∧
      (s.update p .epoch).1 = .error .zeroFrequency ∧ ¬ s.Unchanged (s.update p .epoch).2 1 := by
  intro s p
  have hadd : (s.add p).1 = .error .zeroFrequency := by decide +kernel
  have hremoved : (s.remove 1 .epoch).2 = { s.dropTimer 1 with shared := { s.shared with
      registry := s.shared.registry.remove 1, scheduler := (s.shared.scheduler.remove 1).2 } } := by
    have hnothing : (s.dropTimer 1).shared.scheduler.lineOf 1 = [] := by decide +kernel
    rw [remove, Removal.forget_of_nothing .epoch hnothing]
    rfl
  have hupdate : (s.update p .epoch).1 = .error .zeroFrequency := by
    show ((s.remove 1 .epoch).2.add p).1 = _
    rw [hremoved]
    decide +kernel
  have hother : s.shared.registry.find? 1 ≠ some p := by decide +kernel
  obtain ⟨-, hadded, hupdated⟩ := failed_registration_changes_nothing_iff s p
  exact ⟨hadd, fun h => hother ((hadded _ _ (Prod.ext hadd rfl)).2.mp h),
    hupdate, fun h => hother ((hupdated .epoch _ _ (Prod.ext hupdate rfl)).2.mp h).1⟩

end Service

end ProcessRuns
