import Mathlib.Data.List.Induction
import ProcessRuns.Proofs.Activities.Courses
import ProcessRuns.Proofs.Log.Stamps
import ProcessRuns.Proofs.Service.Timers

/-! # When a process ran last

The log answers with the newest time of any row of the process. Rows are there from the request on, and they bear the
time of every status that is written to them, so a process has run last, as the log sees it, when one of its
registers was opened, marked as waiting, or closed by a removal, though none of its packages was ever dispatched. -/

namespace ProcessRuns

open StampStorage (stamps)

/-! ### The writes of the parties -/

section
variable {σ : Type} [Storage σ]

/-- The row that the step of a request opens or writes to. -/
def Admission.stamping? (a : Admission) (now : Instant) (s : Shared σ) : Option Stamping :=
  match a with
  | .openRegister logger pid _ => logger.opening? pid now s.storage
  | .mark logger p => logger.writing? .onQueue none p.registerId now s.storage
  | _ => none

/-- The times that the next step of a removal writes. -/
def Removal.stamping? (r : Removal) (now : Instant) (s : Shared σ) : Option Stamping :=
  match r with
  | .close logger _ (p :: _) => logger.writing? .notExecuted none p.registerId now s.storage
  | _ => none

/-- The times that the next step of a run writes. -/
def Run.stamping? (r : Run) (now : Instant) (s : Shared σ) : Option Stamping :=
  match r.stage with
  | .mark => r.logger.writing? .start none r.package.registerId now s.storage
  | .close e => r.logger.writing? e.status (e.dataTimestamp now) r.package.registerId now s.storage
  | _ => none

end

namespace Activities

section
variable {σ : Type} [Storage σ]

/-- The row to which a move gives its time. -/
def stamping? (s : Activities σ) : Move → Option Stamping
  | .admission i now => (s.admissions[i]?).bind fun a => a.stamping? now s.shared
  | .removal i now => (s.removals[i]?).bind fun r => r.stamping? now s.shared
  | .run i now => (s.runs[i]?).bind fun r => r.stamping? now s.shared
  | _ => none

/-- The times that moves have written, oldest first. -/
def stampings (s : Activities σ) : List Move → List Stamping
  | [] => []
  | m :: moves => (s.stamping? m).toList ++ (s.step m).stampings moves

theorem stampings_append (s : Activities σ) (moves more : List Move) :
    s.stampings (moves ++ more) = s.stampings moves ++ (s.after moves).stampings more := by
  induction moves generalizing s with
  | nil => rfl
  | cons m moves ih => rw [List.cons_append, stampings, ih, stampings, List.append_assoc]; rfl

end

variable {σ : Type} [Storage σ] [RowStorage σ] [StampStorage σ] {s t : Activities σ} {i : Nat}

/-- What a move does to the times of the rows, and to the registers that were opened. -/
inductive Restamped (s t : Activities σ) : Option Stamping → Prop where
  | same (stamps : stamps t.shared.storage = stamps s.shared.storage) (opened : t.record.opened = s.record.opened) :
    Restamped s t none
  | written (table : LogTable) (id : RegisterId) (time : Instant)
    (stamps : stamps t.shared.storage = (stamps s.shared.storage).put (.written table id time))
    (opened : t.record.opened = s.record.opened) : Restamped s t (some (.written table id time))
  | opened {u : Ticket} {table : LogTable} (time : Instant)
    (fresh : stamps s.shared.storage table u.package.registerId = none) (log : u.log.table = some table)
    (stamps : stamps t.shared.storage =
      (stamps s.shared.storage).put (.opened table u.package.registerId u.package.processId time))
    (opened : t.record.opened = s.record.opened ++ [u]) :
    Restamped s t (some (.opened table u.package.registerId u.package.processId time))

/-- A status is written, and the log says whether it took it. -/
theorem Restamped.of_result (sound : RowStorage.Sound s.shared.storage) {l : Logger} {status : Status}
    {date : Option Instant} {id : RegisterId} {now : Instant}
    (storage : t.shared.storage = (l.result status date id now s.shared.storage).2)
    (opened : t.record.opened = s.record.opened) : Restamped s t (l.writing? status date id now s.shared.storage) := by
  have hstamps := l.stamps_result sound status date id now
  rw [← storage] at hstamps
  cases hw : l.writing? status date id now s.shared.storage with
  | none =>
    rw [hw] at hstamps
    exact .same hstamps opened
  | some w =>
    rw [hw] at hstamps
    obtain ⟨table, -, hanswer⟩ := Option.bind_eq_some_iff.mp hw
    obtain ⟨_, -, rfl⟩ := Option.map_eq_some_iff.mp hanswer
    exact .written table id now hstamps opened

theorem restamped_admission (sound : RowStorage.Sound s.shared.storage) (i : Nat) (a : Admission) (now : Instant) :
    Restamped s (s.stepAdmission i a now) (a.stamping? now s.shared) := by
  cases a with
  | find pid date =>
    rcases Admission.step_find now s.shared pid date with h | h <;> rw [stepAdmission, h] <;> exact .same rfl rfl
  | openRegister logger pid date =>
    have hstamps := logger.stamps_start sound pid now
    rw [Admission.stamping?]
    rcases Admission.step_openRegister now s.shared logger pid date with ⟨id, u, hstart, h⟩ | ⟨e, u, hstart, h⟩
    · obtain ⟨table, htable, hinsert⟩ := Logger.start_ok hstart
      have hopening : logger.opening? pid now s.shared.storage = some (.opened table id pid now) := by
        rw [Logger.opening?, htable, hstart]
        rfl
      rw [hopening, hstart] at hstamps
      rw [hopening, stepAdmission, h]
      -- A number that was just given has no row, so the row bears one time, that of its opening.
      have hfresh : stamps s.shared.storage table id = none := by
        have hnone := (RowStorage.insert_ok sound hinsert).1
        rwa [← Option.isNone_iff_eq_none, ← Option.not_isSome, ← StampStorage.there, Option.not_isSome,
          Option.isNone_iff_eq_none] at hnone
      exact .opened (u := ⟨i, logger, ⟨pid, id, date, false⟩⟩) now hfresh htable hstamps rfl
    · have hopening : logger.opening? pid now s.shared.storage = none := by
        rw [Logger.opening?, hstart]
        cases logger.table <;> rfl
      rw [hopening, hstart] at hstamps
      rw [hopening, stepAdmission, h]
      exact .same hstamps rfl
  | place logger p =>
    rcases Admission.step_place now s.shared logger p with ⟨-, h⟩ | ⟨-, -, h⟩ | ⟨-, -, h⟩ <;>
      rw [stepAdmission, h] <;>
      exact .same rfl rfl
  | mark logger p => exact .of_result sound rfl rfl
  | wake p => exact .same (StampStorage.quiet sound (alike_wake s).storage) rfl
  | takeLog | announce | done => exact .same rfl rfl

theorem restamped_removal (sound : RowStorage.Sound s.shared.storage) (i : Nat) (r : Removal) (now : Instant) :
    Restamped s (s.stepRemoval i r now) (r.stamping? now s.shared) := by
  cases r with
  | close logger count packages =>
    cases packages with
    | nil => exact .same rfl rfl
    | cons p packages => exact .of_result sound rfl rfl
  | forget | strip | takeLog | announce | done => exact .same rfl rfl

theorem restamped_run (sound : RowStorage.Sound s.shared.storage) (i : Nat) (r : Run) (now : Instant) :
    Restamped s (s.stepRun i r now) (r.stamping? now s.shared) := by
  obtain ⟨p, logger, stage⟩ := r
  cases stage with
  | mark | close => exact .of_result sound rfl rfl
  | stampStart | stampEnd => exact .same (StampStorage.quiet sound (logger.quiet_addValue _ _ _ _)) rfl
  | explain e =>
    refine .same (StampStorage.quiet sound ?_) rfl
    simp only [stepRun, Run.step]
    cases e.message? with
    | none => exact .none
    | some message => exact logger.quiet_log _ _ _ _ _
  | wake e => exact .same (StampStorage.quiet sound (alike_wake s).storage) rfl
  | takeLog | announce | check | working | release | report | leave | finished => exact .same rfl rfl

theorem restamped_elim {α : Type} {x : Option α} {f : α → Activities σ} {g : α → Option Stamping}
    (each : ∀ a, x = some a → Restamped s (f a) (g a)) : Restamped s (x.elim s f) (x.bind g) := by
  cases x with
  | none => exact .same rfl rfl
  | some a => exact each a rfl

theorem Restamped.of_alike (sound : RowStorage.Sound s.shared.storage) (h : Alike s t) : Restamped s t none :=
  .same (StampStorage.quiet sound h.storage) (congrArg Record.opened h.record)

theorem restamped_step (sound : RowStorage.Sound s.shared.storage) (m : Move) : Restamped s (s.step m)
    (s.stamping? m) := by
  have hm := step_cases s m
  cases m with
  | admission i now => exact restamped_elim fun a _ => restamped_admission sound i a now
  | removal i now => exact restamped_elim fun r _ => restamped_removal sound i r now
  | run i now => exact restamped_elim fun r _ => restamped_run sound i r now
  | select name =>
    obtain ⟨-, hstamps⟩ := s.shared.logger.stamps_select sound name
    cases hcall : (Logger.select name (s.shared.logger, s.shared.storage)).2 with
    | mk logger storage =>
      rw [hcall] at hstamps
      simp only [step, Shared.selectTable, Action.within, hcall]
      exact .same hstamps rfl
  | loop =>
    generalize s.step .loop = t at hm ⊢
    cases hm with
    | alike h => exact .of_alike sound h
    | dispatch popped => exact .same rfl (s.record.opened_dispatch _)
  | answer i result =>
    generalize s.step (.answer i result) = t at hm ⊢
    cases hm with
    | alike h => exact .of_alike sound h
    | answer _ here working => exact .same rfl rfl
  | request | forget | release => exact .same rfl rfl
  | act | launch | halt | nudge | outside | lookUp | define | undefine | disown | resize | withdraw =>
    cases hm with
    | alike h => exact .of_alike sound h

/-- What the rows bear is what was written, and a process has rows in a table if it had some at first or one of its
registers was opened there. -/
structure Stamped (start : Stamps) (s : Activities σ) (ws : List Stamping) : Prop where
  sound : RowStorage.Sound s.shared.storage
  stamps : stamps s.shared.storage = ws.foldl Stamps.put start
  known : ∀ table pid, ((ws.foldl Stamps.put start).times table pid).Nonempty ↔
    (start.times table pid).Nonempty ∨ ∃ u ∈ s.record.opened, u.log.table = some table ∧ u.package.processId = pid

theorem Stamped.step {start : Stamps} {ws : List Stamping} (h : s.Stamped start ws) (m : Move) :
    (s.step m).Stamped start (ws ++ (s.stamping? m).toList) := by
  have sound : RowStorage.Sound (s.step m).shared.storage :=
    (calls_stepped s (step_cases s m)).keep (fun _ _ => RowStorage.sound) h.sound
  have hmove := restamped_step h.sound m
  generalize s.stamping? m = w at hmove ⊢
  generalize s.step m = t at sound hmove ⊢
  cases hmove with
  | same stamps opened =>
    rw [Option.toList_none, List.append_nil]
    exact ⟨sound, stamps.trans h.stamps, fun table pid => by rw [opened, h.known]⟩
  | written table id time stamps opened =>
    refine ⟨sound, ?_, fun t pid => ?_⟩ <;> rw [Option.toList_some, List.foldl_concat]
    · rw [stamps, h.stamps]
    · rw [Stamps.times_written, opened, h.known]
  | @opened u table time fresh log stamps opened =>
    refine ⟨sound, ?_, fun t pid => ?_⟩ <;> rw [Option.toList_some, List.foldl_concat]
    · rw [stamps, h.stamps]
    · rw [h.stamps] at fresh
      rw [Stamps.times_opened fresh, opened, h.known, or_assoc]
      refine or_congr_right ⟨?_, ?_⟩
      · rintro (⟨v, hv, hlog, hpid⟩ | ⟨rfl, rfl⟩)
        · exact ⟨v, List.mem_append_left _ hv, hlog, hpid⟩
        · exact ⟨u, List.mem_append_right _ (List.mem_singleton.mpr rfl), log, rfl⟩
      · rintro ⟨v, hv, hlog, hpid⟩
        rcases List.mem_append.mp hv with hv | hv
        · exact Or.inl ⟨v, hv, hlog, hpid⟩
        · obtain rfl := List.mem_singleton.mp hv
          rw [log] at hlog
          exact Or.inr ⟨(Option.some.inj hlog).symm, hpid.symm⟩

theorem stamped_after (sound : RowStorage.Sound s.shared.storage) (fresh : s.record.opened = []) (moves : List Move) :
    (s.after moves).Stamped (stamps s.shared.storage) (s.stampings moves) := by
  induction moves using List.reverseRecOn with
  | nil =>
    refine ⟨sound, rfl, fun table pid => ⟨Or.inl, fun h => h.resolve_right ?_⟩⟩
    rintro ⟨u, hu, -⟩
    have hu : u ∈ s.record.opened := hu
    rw [fresh] at hu
    cases hu
  | append_singleton moves m ih =>
    rw [after_append, stampings_append, stampings, stampings, List.append_nil]
    exact ih.step m

end Activities

/-! ### The timers that go by it -/

namespace Service

variable {σ : Type} [Storage σ] {v : Service σ} {p : ProcessDefinition} {schedule : Schedule} {period : Nat}
  {last : Option Instant}

/-- A registration gives the process a timer that goes by its last run, or fails where no date is that late. -/
def Starts (answer : Except Failure Unit × Service σ) (pid : ProcessId) (period : Nat) (last : Option Instant) : Prop :=
  answer.1 = (Timer.firstTickAfter period last).map (fun _ => ()) ∧
    ∀ first, Timer.firstTickAfter period last = .ok first →
      answer.2.timers.get? pid = some { processId := pid, period, firstTick := first }

theorem add_starts (timed : v.timed? p = some schedule) (hperiod : schedule.period = .ok period)
    (told : (v.shared.logger.lastProcess p.id v.shared.storage).1 = .ok last) : Starts (v.add p) p.id period last := by
  obtain ⟨hown, hschedule⟩ : (p.active && v.shared.owns p) = true ∧ p.schedule = some schedule := by
    unfold timed? at timed
    split at timed
    · exact ⟨‹_›, timed⟩
    · cases timed
  have howns : (p.active && ({ v.shared with registry := v.shared.registry.add p } : Shared σ).owns p) = true := hown
  have hlookUp : (({ v.shared with registry := v.shared.registry.add p } : Shared σ).onStorage
      (({ v.shared with registry := v.shared.registry.add p } : Shared σ).logger.lastProcess p.id)).1 = .ok last := told
  unfold Starts
  simp only [add, hschedule]
  rw [if_pos howns]
  split
  · rename_i e shared hcall
    rw [hcall] at hlookUp
    cases hlookUp
  · rename_i d shared hcall
    rw [hcall] at hlookUp
    cases hlookUp
    simp only [Timer.create, hperiod]
    cases hfirst : Timer.firstTickAfter period last with
    | error e => exact ⟨rfl, fun first h => by cases h⟩
    | ok first =>
      refine ⟨rfl, fun first' h => ?_⟩
      cases h
      exact Keyed.get?_set_self _ _ _

end Service

namespace Activities

variable {σ : Type} [Storage σ] [RowStorage σ] [StampStorage σ]

/-- When a call does not fail, the log tells the newest of the times that the rows of a process bear. -/
theorem told_of_call {l : Logger} {table : LogTable} (hl : l.table = some table) {j : Journaled σ}
    (sound : RowStorage.Sound j) {pid : ProcessId} (ok : (l.lastProcess pid j).2.failures = j.failures) :
    ∃ d, (l.lastProcess pid j).1 = .ok d ∧ Instant.Newest ((stamps j).times table pid) d := by
  rw [l.lastProcess_apply j hl] at ok ⊢
  obtain ⟨d, hd⟩ := Journaled.asking_unfailed ok
  exact ⟨d, hd, StampStorage.latest_ok sound (Prod.ext hd rfl)⟩

/-- Whatever was requested, removed and run, and whichever calls have failed: unless the call itself fails, the log
answers with the newest of the times that the rows of the process bear, those that they bore at first with all that
were written since. So it answers with none exactly if the table had no row of the process and none of its registers
was opened there, whether anything was dispatched or not; and a timer that is started by then, for a new definition or
one that replaces another, ticks at once if the answer is none, and otherwise one period after it. -/
theorem last_process_is_newest_write (kind : ServiceKind) (instanceId cores workers : Nat) (logger : Logger)
    (registry : Registry) {storage : σ} (sound : RowStorage.Sound storage) (moves : List Move) (pid : ProcessId)
    {table : LogTable}
    (here :
      ((journaled kind instanceId cores workers logger registry storage).after moves).shared.logger.table = some table)
    (ok : (Logger.lastProcess ⟨some table⟩ pid ((journaled kind instanceId cores workers logger registry
      storage).after moves).shared.storage).2.failures =
        ((journaled kind instanceId cores workers logger registry storage).after moves).shared.storage.failures) :
    let first := journaled kind instanceId cores workers logger registry storage
    let s := first.after moves
    let written := (first.stampings moves).foldl Stamps.put (stamps storage)
    ∃ d, (s.shared.logger.lastProcess pid s.shared.storage).1 = .ok d ∧
      Instant.Newest (written.times table pid) d ∧
      (d = none ↔ (stamps storage).times table pid = ∅ ∧
        ∀ u ∈ s.record.opened, u.log.table = some table → u.package.processId ≠ pid) ∧
      ∀ (v : Service (Journaled σ)) (p : ProcessDefinition) (schedule : Schedule) (period : Nat), p.id = pid →
        v.timed? p = some schedule → schedule.period = .ok period →
        (v.shared = s.shared → Service.Starts (v.add p) pid period d) ∧
          ∀ now, (v.remove pid now).2.shared = s.shared → Service.Starts (v.update p now) pid period d := by
  intro first s written
  have hstamped : s.Stamped (stamps storage) (first.stampings moves) :=
    stamped_after (s := first) sound rfl moves
  have hlogger : s.shared.logger = ⟨some table⟩ := by
    rw [← here]
  obtain ⟨d, hd, hnewest⟩ := told_of_call (l := ⟨some table⟩) rfl hstamped.sound ok
  have hnewest : Instant.Newest (written.times table pid) d := by
    rwa [hstamped.stamps] at hnewest
  refine ⟨d, hlogger ▸ hd, hnewest, ?_, ?_⟩
  · rw [Instant.newest_eq_none hnewest, hstamped.known, not_or, Set.not_nonempty_iff_eq_empty]
    refine and_congr_right fun _ => ⟨fun h u hu hlog hpid => h ⟨u, hu, hlog, hpid⟩, ?_⟩
    rintro h ⟨u, hu, hlog, hpid⟩
    exact h u hu hlog hpid
  · rintro v p schedule period rfl timed hperiod
    -- The answer depends on the log and the storage, which the service has in common with the activities.
    have told : ∀ w : Service (Journaled σ), w.shared = s.shared →
        (w.shared.logger.lastProcess p.id w.shared.storage).1 = .ok d := by
      intro w hw
      rw [hw, hlogger]
      exact hd
    refine ⟨fun hv => Service.add_starts timed hperiod (told v hv), fun now hv => ?_⟩
    have htimed : (v.remove p.id now).2.timed? p = v.timed? p :=
      congrFun (Service.timed?_congr (congrArg Prod.fst (v.book_remove p.id now))) p
    exact Service.add_starts (htimed.trans timed) hperiod (told _ hv)

/-- A time that is later than the epoch. -/
def soon : Instant := ⟨100, 0, by decide⟩

/-- A process is requested, and then removed before it is dispatched. -/
def strippedRequest : List Move :=
  [.request 1 .epoch] ++ List.replicate 6 (.admission 0 .epoch) ++ [.forget 1] ++ List.replicate 5 (.removal 0 soon)

/-- What a request leaves whose package was taken out before it was dispatched. -/
def afterStrippedRequest : Activities (Journaled Memory) :=
  (journaled .collector 1 4 2 ⟨some soloTable⟩ soloRegistry soloLog).after strippedRequest

/-- A process with a schedule. -/
def hourly : ProcessDefinition := ⟨1, 1, true, some ⟨1, "hour"⟩⟩

/-- A service over that log, where nothing is under way. -/
def servingStrippedRequest : Service (Journaled Memory) :=
  { Service.create .collector 1 4 2 ⟨some soloTable⟩ soloRegistry afterStrippedRequest.shared.storage with
    shared := afterStrippedRequest.shared }

/-- Nothing was ever dispatched, and yet the timer of the process waits. -/
theorem last_process_is_newest_write_of_strippedRequest :
    RowStorage.Sound soloLog ∧ afterStrippedRequest.record.dispatched = [] ∧
      afterStrippedRequest.shared.logger.table = some soloTable ∧
      (Logger.lastProcess ⟨some soloTable⟩ 1 afterStrippedRequest.shared.storage).2.failures =
        afterStrippedRequest.shared.storage.failures ∧
      (afterStrippedRequest.shared.logger.lastProcess 1 afterStrippedRequest.shared.storage).1 = .ok (some soon) ∧
      Service.Starts (servingStrippedRequest.add hourly) 1 3600 (some soon) := by
  have here : afterStrippedRequest.shared.logger.table = some soloTable := by decide +kernel
  have ok : (Logger.lastProcess ⟨some soloTable⟩ 1 afterStrippedRequest.shared.storage).2.failures =
      afterStrippedRequest.shared.storage.failures := by decide +kernel
  have htold : (afterStrippedRequest.shared.logger.lastProcess 1 afterStrippedRequest.shared.storage).1 =
      .ok (some soon) := by decide +kernel
  obtain ⟨d, hd, -, -, htimers⟩ := last_process_is_newest_write .collector 1 4 2 ⟨some soloTable⟩ soloRegistry
    sound_soloLog strippedRequest 1 here ok
  have hd : d = some soon := Except.ok.inj (hd.symm.trans htold)
  subst hd
  exact ⟨sound_soloLog, by decide +kernel, here, ok, htold,
    (htimers servingStrippedRequest hourly ⟨1, "hour"⟩ 3600 rfl (by decide +kernel) (by decide +kernel)).1 rfl⟩

end Activities

end ProcessRuns
