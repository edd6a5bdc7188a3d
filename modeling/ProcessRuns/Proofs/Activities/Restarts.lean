import ProcessRuns.Proofs.Activities.DataDates
import ProcessRuns.Proofs.Activities.LastRuns

/-! # Schedules after a restart

A timer needs a period, and one for a process that ran also the date a period after its last run. There is no such
date for a long period, and then the registration breaks off, though it was accepted as long as the process had never
run. What decides are the times that the rows of the process bear when a later service selects the tables again: its
repair changes none of them. -/

namespace ProcessRuns

open StampStorage (stamps)

namespace Timer

variable {α β : Type} {answer : Except Failure α} {schedule : Schedule} {period : Nat} {last : Option Instant}
  {times : Set Instant}

/-- What is answered where a timer is to be made for a process that ran at some times. -/
structure Judged (answer : Except Failure α) (period : Nat) (times : Set Instant) : Prop where
  made : (∃ x, answer = .ok x) ↔ ∀ a ∈ times, a.seconds + period ≤ Instant.lastSecond
  refused : answer = .error .periodOutOfRange ↔ times.Nonempty ∧ Schedule.stepMax < period
  brokenOff : answer = .error .abort ↔
    period ≤ Schedule.stepMax ∧ ∃ a ∈ times, Instant.lastSecond < a.seconds + period

theorem Judged.map (h : Judged answer period times) (f : α → β) : Judged (answer.map f) period times := by
  obtain ⟨hmade, hrefused, hbroken⟩ := h
  constructor
  · rw [← hmade]
    cases answer <;> simp [Except.map]
  · rw [← hrefused]
    cases answer <;> simp [Except.map]
  · rw [← hbroken]
    cases answer <;> simp [Except.map]

/-- Of the times only the newest matters. -/
theorem judged_firstTickAfter (newest : Instant.Newest times last) :
    Judged (firstTickAfter period last) period times := by
  cases last with
  | none =>
    have hnone : times = ∅ := newest
    subst hnone
    constructor <;> simp [firstTickAfter]
  | some d =>
    obtain ⟨hd, hupper⟩ := newest
    have hthere : times.Nonempty := ⟨d, hd⟩
    have hearlier : ∀ a ∈ times, a.seconds ≤ d.seconds := fun a ha => Instant.seconds_le_of_le (hupper ha)
    have hwithin : (∀ a ∈ times, a.seconds + period ≤ Instant.lastSecond) ↔
        d.seconds + period ≤ Instant.lastSecond := by
      refine ⟨fun hall => hall d hd, fun hlast a ha => ?_⟩
      have := hearlier a ha
      omega
    have hbeyond : (∃ a ∈ times, Instant.lastSecond < a.seconds + period) ↔
        Instant.lastSecond < d.seconds + period := by
      rw [← Int.not_le, ← hwithin]
      simp only [not_forall, Int.not_le, exists_prop]
    by_cases hlong : Schedule.stepMax < period
    · -- all dates together are less than the longest step
      have hlate : Instant.lastSecond < d.seconds + period := by
        have hfirst : Instant.firstSecond ≤ d.seconds := d.representable.1
        unfold Schedule.stepMax at hlong
        unfold Instant.firstSecond at hfirst
        unfold Instant.lastSecond
        omega
      constructor <;> simp [firstTickAfter, hlong, hwithin, hlate, hthere]
    · have hshort : period ≤ Schedule.stepMax := Nat.le_of_not_lt hlong
      cases hnext : d.plus? period with
      | none =>
        have hlate : Instant.lastSecond < d.seconds + period := Instant.plus?_eq_none_iff.mp hnext
        constructor <;> simp [firstTickAfter, hlong, hshort, hnext, hwithin, hbeyond, hlate]
      | some next =>
        have hlast : d.seconds + period ≤ Instant.lastSecond := by
          rw [← Instant.seconds_of_plus? hnext]
          exact next.representable.2.1
        constructor <;> simp [firstTickAfter, hlong, hnext, hwithin, hbeyond, hlast]

theorem judged_create (hperiod : schedule.period = .ok period) (pid : ProcessId) (last : Option Instant) :
    Judged (create schedule pid last) period {a | last = some a} := by
  have newest : Instant.Newest {a | last = some a} last := by
    cases last with
    | none => exact Set.eq_empty_of_forall_notMem fun a ha => nomatch ha
    | some d =>
      refine ⟨rfl, ?_⟩
      rintro a ⟨⟩
      exact Instant.le_refl d
  rw [create, hperiod]
  exact (judged_firstTickAfter newest).map _

/-- A timer can be made for every last run up to now exactly if a period from now there is still a date. -/
theorem accepted_until_iff (hperiod : schedule.period = .ok period) (pid : ProcessId) (now : Instant) :
    (∀ last ≤ now, ∃ t, create schedule pid (some last) = .ok t) ↔ now.seconds + period ≤ Instant.lastSecond := by
  simp only [(judged_create hperiod pid _).made, Set.mem_ofPred_eq, Option.some.injEq, forall_eq']
  refine ⟨fun hall => hall now (Instant.le_refl now), fun hnow last hlast => ?_⟩
  have := Instant.seconds_le_of_le hlast
  omega

end Timer

namespace Activities

variable {σ : Type} [Storage σ] [RowStorage σ] [StampStorage σ]

theorem judged_add {v : Service σ} {p : ProcessDefinition} {schedule : Schedule} {period : Nat} {table : LogTable}
    {last : Option Instant} (sound : RowStorage.Sound v.shared.storage) (hl : v.shared.logger.table = some table)
    (timed : v.timed? p = some schedule) (hperiod : schedule.period = .ok period)
    (told : (v.shared.logger.lastProcess p.id v.shared.storage).1 = .ok last) :
    Timer.Judged (v.add p).1 period ((stamps v.shared.storage).times table p.id) := by
  have newest : Instant.Newest ((stamps v.shared.storage).times table p.id) last := by
    rw [v.shared.logger.lastProcess_apply _ hl] at told
    exact StampStorage.latest_ok sound (Prod.ext told rfl)
  rw [(Service.add_starts timed hperiod told).1]
  exact (Timer.judged_firstTickAfter newest).map _

/-- A schedule with a period is accepted for a process that never ran. For one that ran it depends on the last run:
the timer is made if there is a date a period later, the schedule is refused if its period is no step between dates,
and otherwise there is no answer at all, as it breaks off. So it does not matter when a process ran last exactly as
long as a period from now on still ends in a date. The same holds of a registration with a service that selects the
tables again after any run of the one before: what matters there are the times that the rows of the process bear. -/
theorem registration_depends_on_the_last_run {schedule : Schedule} {period : Nat}
    (hperiod : schedule.period = .ok period) :
    (∀ pid, ∃ t, Timer.create schedule pid none = .ok t) ∧
    (∀ pid last, Timer.Judged (Timer.create schedule pid last) period {a | last = some a}) ∧
    (∀ pid now, (∀ last ≤ now, ∃ t, Timer.create schedule pid (some last) = .ok t) ↔
      now.seconds + period ≤ Instant.lastSecond) ∧
    ∀ (kind : ServiceKind) (instanceId cores workers : Nat) (logger : Logger) (registry : Registry) (storage : σ),
      RowStorage.Sound storage → ∀ (moves : List Move) (name : String) (v : Service σ),
      let first := ofService (Service.create kind instanceId cores workers logger registry storage)
      let written := (first.stampings moves).foldl Stamps.put (stamps storage)
      Logger.opened name (first.after moves).shared.storage = (.ok v.shared.logger, v.shared.storage) →
        ∃ table, v.shared.logger.table = some table ∧ ∀ (p : ProcessDefinition) (last : Option Instant),
          v.timed? p = some schedule → (v.shared.logger.lastProcess p.id v.shared.storage).1 = .ok last →
            Timer.Judged (v.add p).1 period (written.times table p.id) := by
  refine ⟨fun pid => ?_, Timer.judged_create hperiod, Timer.accepted_until_iff hperiod, ?_⟩
  · exact (Timer.judged_create hperiod pid none).made.mpr fun a ha => nomatch (show none = some a from ha)
  intro kind instanceId cores workers logger registry storage sound moves name v first written hopened
  have hstamped : (first.after moves).Stamped (stamps storage) (first.stampings moves) :=
    stamped_after (s := first) sound rfl moves
  obtain ⟨table, -, hl, -⟩ := Logger.opened_ok hopened
  have hsound : RowStorage.Sound v.shared.storage := Logger.sound_opened hstamped.sound hopened
  have hsame : stamps v.shared.storage = written :=
    (Logger.stamps_opened hstamped.sound hopened).trans hstamped.stamps
  refine ⟨table, by rw [hl], fun p last timed told => ?_⟩
  rw [← hsame]
  exact judged_add hsound (by rw [hl]) timed hperiod told

/-- A process with a period that is longer than the calendar. -/
def longPeriod : ProcessDefinition := ⟨1, 1, true, some ⟨9000000000000, "s"⟩⟩

/-- A service that never ran anything. -/
def beforeRun : Service Memory := .create .collector 1 4 2 ⟨some soloTable⟩ soloRegistry soloLog

/-- What a service that is started after a run finds. -/
def afterRun : Except Failure Logger × Memory :=
  Logger.opened "log" ((ofService beforeRun).after panickedRun).shared.storage

/-- A period of nine million million seconds is accepted before the first run, and breaks off after a restart. -/
theorem registration_depends_on_the_last_run_of_longPeriod :
    Schedule.period ⟨9000000000000, "s"⟩ = .ok 9000000000000 ∧ RowStorage.Sound soloLog ∧
      afterRun.1 = .ok ⟨some soloTable⟩ ∧ (∃ t, Timer.create ⟨9000000000000, "s"⟩ 1 none = .ok t) ∧
      (beforeRun.add longPeriod).1 = .ok () ∧
      ((Service.create .collector 1 4 2 ⟨some soloTable⟩ soloRegistry afterRun.2).add longPeriod).1 =
          .error .abort := by
  have hperiod : Schedule.period ⟨9000000000000, "s"⟩ = .ok 9000000000000 := by decide +kernel
  have hlogger : afterRun.1 = .ok ⟨some soloTable⟩ := by decide +kernel
  have htold : ((⟨some soloTable⟩ : Logger).lastProcess 1 afterRun.2).1 = .ok (some .epoch) := by decide +kernel
  have htime : Instant.epoch ∈ (((ofService beforeRun).stampings panickedRun).foldl Stamps.put (stamps soloLog)).times
      soloTable 1 := ⟨1, by decide +kernel⟩
  obtain ⟨hnever, -, -, hrestart⟩ := registration_depends_on_the_last_run (σ := Memory) hperiod
  refine ⟨hperiod, sound_soloLog, hlogger, hnever 1, by decide +kernel, ?_⟩
  cases hopened : afterRun with
  | mk answer t =>
    rw [hopened] at hlogger htold
    cases hlogger
    obtain ⟨table, htable, hjudged⟩ := hrestart .collector 1 4 2 ⟨some soloTable⟩ soloRegistry soloLog sound_soloLog
      panickedRun "log" (.create .collector 1 4 2 ⟨some soloTable⟩ soloRegistry t) hopened
    cases htable
    exact (hjudged longPeriod (some .epoch) rfl htold).brokenOff.mpr ⟨by decide, .epoch, htime, by decide⟩

end Activities

end ProcessRuns
