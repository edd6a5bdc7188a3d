import ProcessRuns.Proofs.Activities.Deeds

/-! # Failures of the storage

Of all that the storage answers, requests, removals and runs heed one thing only: whether a register could be opened,
and under which number. Whatever else fails is put down and forgotten. So any interleaving over a storage that fails at
will goes on as the same interleaving over a storage in which nothing fails but the opening of registers and tables. -/

namespace ProcessRuns

variable {σ τ : Type}

/-- The same state over another storage. -/
def Shared.atop (s : Shared σ) (storage : τ) : Shared τ := { s with storage }

/-- The same activities over another storage. -/
def Activities.atop (s : Activities σ) (storage : τ) : Activities τ := { s with shared := s.shared.atop storage }

/-- An answer of a storage that something depends on. -/
inductive Prompt where
  /-- What came of opening a register. -/
  | register (answer : Except Failure RegisterId)
  /-- What came of creating tables. -/
  | tables (answer : Except Failure Unit)

/-- A storage that gives its answers in turn where registers or tables are created, and fails at nothing else. -/
structure Prompted where
  prompts : List Prompt

namespace Prompted

/-- The answer to a call that creates tables. -/
def init : Action Prompted Unit := fun s =>
  match s.prompts with
  | .tables answer :: rest => (answer, ⟨rest⟩)
  | _ => (.ok (), s)

/-- The answer to a call that opens a register. -/
def insertRegister : Action Prompted RegisterId := fun s =>
  match s.prompts with
  | .register answer :: rest => (answer, ⟨rest⟩)
  | _ => (.ok 0, s)

instance : Storage Prompted where
  init _ := init
  insertRegister _ _ _ _ := insertRegister
  updateResult _ _ _ _ _ := pure true
  insertMessage _ _ _ _ _ := pure (some 0)
  appendValue _ _ _ _ := pure true
  maxLastProcess _ _ := pure none
  maxData _ _ := pure none
  registers _ _ _ _ := pure []
  messages _ _ := pure []
  updateStatus _ _ _ := pure 0

variable (l : Logger) (x : Prompted)

theorem onTable_snd {α : Type} {f : LogTable → Action Prompted α} (each : ∀ table, (f table x).2 = x) :
    (l.onTable f x).2 = x := by
  unfold Logger.onTable
  cases l.table with
  | none => rfl
  | some table => exact each table

theorem result_snd (status : Status) (date : Option Instant) (id : RegisterId) (now : Instant) :
    (l.result status date id now x).2 = x :=
  onTable_snd l x fun table => Logger.expect_snd table id _ x

theorem addValue_snd (tag value : String) (id : RegisterId) : (l.addValue tag value id x).2 = x :=
  onTable_snd l x fun table => Logger.expect_snd table id _ x

theorem log_snd (type : MessageType) (description : String) (id : RegisterId) (now : Instant) :
    (l.log type description id now x).2 = x :=
  onTable_snd l x fun table => (Logger.expect_snd table id _ x).trans (Action.snd_of_pure fun _ _ => rfl)

end Prompted

/-! ### Steps heed the prompts only -/

/-- The answers that a request heeds in its next step. -/
def Admission.prompts [Storage σ] (now : Instant) (a : Admission) (s : Shared σ) : List Prompt :=
  match a with
  | .openRegister logger pid _ =>
    logger.table.toList.map fun table => .register (Storage.insertRegister table pid .start now s.storage).1
  | _ => []

theorem Shared.atop_wake (s : Shared σ) (x : τ) : (s.atop x).wake = s.wake.atop x := by
  unfold wake atop
  cases s.loop <;> rfl

section
variable [Storage σ] (now : Instant) (s : Shared σ) (x : Prompted)

omit [Storage σ] in
/-- What is asked without a prompt is not noticed. -/
theorem Shared.atop_onStorage {α : Type} {b : Action Prompted α} (quiet : (b x).2 = x) (a : Action σ α) :
    ((s.atop x).onStorage b).2 = (s.onStorage a).2.atop x :=
  congrArg s.atop quiet

theorem Admission.atop_step (a : Admission) (rest : List Prompt) :
    a.step now (s.atop (Prompted.mk (a.prompts now s ++ rest))) =
      ((a.step now s).1, (a.step now s).2.atop (Prompted.mk rest)) := by
  cases a with
  | find pid date =>
    show (find pid date).step now (s.atop (Prompted.mk rest)) = _
    have hfind : (s.atop (Prompted.mk rest)).find? pid = s.find? pid := rfl
    simp only [step, hfind]
    cases s.find? pid <;> rfl
  -- This is the one step whose outcome depends on what the storage answers, the number of the register.
  | openRegister logger pid date =>
    cases htable : logger.table with
    | none =>
      simp only [step, Shared.onStorage, Action.within, Logger.start, Logger.onTable, htable]
      rw [prompts, htable]
      rfl
    | some table =>
      have hprompts : (openRegister logger pid date).prompts now s =
          [.register (Storage.insertRegister table pid .start now s.storage).1] := by rw [prompts, htable]; rfl
      rw [hprompts]
      simp only [step, Shared.onStorage, Action.within, logger.start_apply _ htable]
      cases hinsert : Storage.insertRegister table pid .start now s.storage with
      | mk answer storage => cases answer <;> rfl
  | place logger p =>
    show (place logger p).step now (s.atop (Prompted.mk rest)) = _
    rcases step_place now s logger p with ⟨hidle, h⟩ | ⟨hactive, hq, h⟩ | ⟨hactive, hq, h⟩ <;> rw [h]
    · simp only [step, Shared.atop, hidle]
      rfl
    · simp only [step, Shared.atop, hactive, hq]
      rfl
    · simp only [step, Shared.atop, hactive, hq]
      rfl
  | mark logger p =>
    exact Prod.ext rfl (s.atop_onStorage _
      (Prompted.result_snd logger (Prompted.mk rest) .onQueue none p.registerId now) _)
  | wake p => exact Prod.ext rfl (s.atop_wake (Prompted.mk rest))
  | takeLog | announce | done => rfl

theorem Removal.atop_step (r : Removal) : r.step now (s.atop x) = ((r.step now s).1, (r.step now s).2.atop x) := by
  cases r with
  | close logger count packages =>
    cases packages with
    | nil => rfl
    | cons p packages =>
      exact Prod.ext rfl (s.atop_onStorage x (Prompted.result_snd logger x .notExecuted none p.registerId now) _)
  | forget | strip | takeLog | announce | done => rfl

theorem Run.atop_step (r : Run) : r.step now (s.atop x) = ((r.step now s).1, (r.step now s).2.atop x) := by
  obtain ⟨p, logger, stage⟩ := r
  cases stage with
  | mark => exact Prod.ext rfl (s.atop_onStorage x (Prompted.result_snd logger x .start none p.registerId now) _)
  | close e =>
    exact Prod.ext rfl
      (s.atop_onStorage x (Prompted.result_snd logger x e.status (e.dataTimestamp now) p.registerId now) _)
  | stampStart =>
    exact Prod.ext rfl (s.atop_onStorage x (Prompted.addValue_snd logger x _ _ p.registerId) _)
  | stampEnd e =>
    exact Prod.ext rfl (s.atop_onStorage x (Prompted.addValue_snd logger x _ _ p.registerId) _)
  | explain e =>
    simp only [step]
    cases e.message? with
    | none => rfl
    | some message =>
      exact Prod.ext rfl (s.atop_onStorage x (Prompted.log_snd logger x message.1 message.2 p.registerId now) _)
  | wake e => exact Prod.ext rfl (s.atop_wake x)
  | takeLog | announce | check | working | release | report | leave | finished => rfl

omit [Storage σ] in
theorem Shared.atop_loopStep (s : Shared σ) (x : τ) :
    (s.atop x).loopStep = (s.loopStep.1, s.loopStep.2.atop x) := by
  obtain ⟨instanceId, logger, registry, owned, storage, scheduler, loop, wakeup, pool, notices⟩ := s
  cases loop with
  | inLine => cases hgranted : pool.granted <;> simp [loopStep, atop, hgranted]
  | looking => cases hpop : scheduler.pop? <;> simp [loopStep, atop, hpop]
  | settling => cases wakeup <;> rfl
  | _ => rfl

omit [Storage σ] in
theorem Shared.atop_loopStop (s : Shared σ) (x : τ) : (s.atop x).loopStop = s.loopStop.atop x := by
  obtain ⟨instanceId, logger, registry, owned, storage, scheduler, loop, wakeup, pool, notices⟩ := s
  cases loop <;> rfl

theorem JobContext.perform_prompted (c : JobContext) (now : Instant) (action : JobAction) (s : Shared Prompted) :
    (c.perform now action s).2 = s := by
  cases action with
  | log type description =>
    exact (Action.snd_of_pure fun _ _ => rfl).trans
      (congrArg s.atop (Prompted.log_snd c.logger s.storage type description c.package.registerId now))
  | addValue tag value =>
    exact (Action.snd_of_pure fun _ _ => rfl).trans
      (congrArg s.atop (Prompted.addValue_snd c.logger s.storage tag value c.package.registerId))
  | lastData =>
    exact (Action.snd_of_pure fun _ _ => rfl).trans
      (congrArg s.atop (Prompted.onTable_snd c.logger s.storage fun _ => rfl))
  | registry => exact (Action.snd_of_pure fun _ _ => rfl).trans (c.registry_snd s)
  | definition => exact (Action.snd_of_pure fun _ _ => rfl).trans (c.definition_snd s)
  | tableName | package => rfl

theorem JobContext.atop_perform (c : JobContext) (now : Instant) (action : JobAction) :
    (c.perform now action (s.atop x)).2 = (c.perform now action s).2.atop x := by
  obtain ⟨t, -, ht⟩ := c.perform_snd now action s
  rw [c.perform_prompted, ht]
  rfl

end

/-! ### Interleavings heed the prompts only -/

namespace Activities

variable [Storage σ]

/-- The answers that a move heeds. -/
def promptsOf (s : Activities σ) : Move → List Prompt
  | .admission i now => (s.admissions[i]?).elim [] fun a => a.prompts now s.shared
  | .select name =>
    match LogTable.ofName name with
    | .ok table => [.tables (Storage.init table s.shared.storage).1]
    | .error _ => []
  | _ => []

/-- The answers that an interleaving heeds, oldest first. -/
def prompts (s : Activities σ) : List Move → List Prompt
  | [] => []
  | m :: moves => s.promptsOf m ++ (s.step m).prompts moves

theorem atop_select (s : Activities σ) (name : String) (rest : List Prompt) :
    (s.atop (Prompted.mk (s.promptsOf (.select name) ++ rest))).step (.select name) =
      (s.step (.select name)).atop (Prompted.mk rest) := by
  cases hname : LogTable.ofName name with
  | error e => simp [step, promptsOf, Shared.selectTable, Action.within, Logger.select, hname, atop, Shared.atop]
  | ok table =>
    cases hinit : Storage.init table s.shared.storage with
    | mk answer storage =>
      have hprompts : s.promptsOf (.select name) = [.tables answer] := by simp only [promptsOf, hname, hinit]
      rw [hprompts]
      have hscript : (Storage.init table (Prompted.mk ([.tables answer] ++ rest))) = (answer, Prompted.mk rest) := rfl
      cases answer with
      | error e =>
        simp only [step, Shared.selectTable, Action.within, Logger.select, hname, hinit, atop, Shared.atop, hscript]
      | ok u =>
        have hrepair : ((⟨some table⟩ : Logger).repair (Prompted.mk rest)).2 = Prompted.mk rest := rfl
        simp only [step, Shared.selectTable, Action.within, Logger.select, hname, hinit, atop, Shared.atop,
          hscript, hrepair]

/-- A move over any storage is the move over one that gives the answers that it heeds. -/
theorem atop_step (s : Activities σ) (m : Move) (rest : List Prompt) :
    (s.atop (Prompted.mk (s.promptsOf m ++ rest))).step m = (s.step m).atop (Prompted.mk rest) := by
  cases m with
  | admission i now =>
    cases here : s.admissions[i]? with
    | none => simp [step, promptsOf, here, atop]
    | some a =>
      simp only [step, promptsOf, here, atop, Option.elim_some, stepAdmission, a.atop_step]
  | removal i now =>
    cases here : s.removals[i]? with
    | none => simp [step, promptsOf, here, atop]
    | some r =>
      simp only [step, promptsOf, here, atop, Option.elim_some, stepRemoval, r.atop_step, List.nil_append]
  | run i now =>
    cases here : s.runs[i]? with
    | none => simp [step, promptsOf, here, atop]
    | some r =>
      simp only [step, promptsOf, here, atop, Option.elim_some, stepRun, r.atop_step, List.nil_append]
  | act i action now =>
    cases here : s.runs[i]? with
    | none => simp [step, promptsOf, here, atop]
    | some r =>
      simp only [step, promptsOf, here, atop, Option.elim_some, act]
      cases r.stage <;> first | rfl | simp only [JobContext.atop_perform]; rfl
  | answer i result =>
    cases here : s.runs[i]? <;> simp [step, promptsOf, here, atop]
  | loop =>
    simp only [step, promptsOf, loop, atop, Shared.atop_loopStep]
    cases s.shared.loopStep with
    | mk p? shared => cases p? <;> rfl
  | launch =>
    cases hloop : s.shared.loop <;> simp [step, promptsOf, launch, atop, Shared.atop, hloop]
  | halt => simp only [step, promptsOf, atop, Shared.atop_loopStop, List.nil_append]
  | nudge =>
    simp only [step, promptsOf, nudge, atop, Shared.atop_wake]
    split <;> rfl
  | select name => exact s.atop_select name rest
  | outside c action now => simp only [step, promptsOf, atop, c.atop_perform, List.nil_append]
  | lookUp pid =>
    have hsame := Prompted.onTable_snd s.shared.logger (Prompted.mk rest)
      (f := fun table => Storage.maxLastProcess table pid) fun _ => rfl
    exact congrArg (fun shared => { s.atop (Prompted.mk rest) with shared })
      (s.shared.atop_onStorage (Prompted.mk rest) hsame (s.shared.logger.lastProcess pid))
  | request | forget | release | define | undefine | disown | resize | withdraw => rfl

theorem atop_after (s : Activities σ) (moves : List Move) (rest : List Prompt) :
    (s.atop (Prompted.mk (s.prompts moves ++ rest))).after moves = (s.after moves).atop (Prompted.mk rest) := by
  induction moves generalizing s with
  | nil => rfl
  | cons m moves ih =>
    rw [prompts, List.append_assoc]
    show ((s.atop _).step m).after moves = _
    rw [s.atop_step]
    exact ih (s.step m)

/-- A request whose register could not be opened is done, and that is all; otherwise it has its package. -/
theorem step_openRegister (s : Activities σ) {i : Nat} {log : Logger} {pid : ProcessId} {date : Instant} (now : Instant)
    (here : s.admissions[i]? = some (.openRegister log pid date)) :
    (∃ e, (log.start pid now s.shared.storage).1 = .error e ∧
      (s.step (.admission i now)).atop () = { s with admissions := s.admissions.set i .done }.atop ()) ∨
    ∃ id, (log.start pid now s.shared.storage).1 = .ok id ∧
      (s.step (.admission i now)).atop () = ({ s with
        admissions := s.admissions.set i (.place log ⟨pid, id, date, false⟩)
        record := { s.record with opened := s.record.opened ++ [⟨i, log, ⟨pid, id, date, false⟩⟩] } } :
            Activities σ).atop () := by
  simp only [step, here, Option.elim_some, stepAdmission]
  rcases Admission.step_openRegister now s.shared log pid date with ⟨id, storage, hstart, h⟩ |
    ⟨e, storage, hstart, h⟩ <;>
    rw [hstart, h]
  · exact Or.inr ⟨id, rfl, rfl⟩
  · exact Or.inl ⟨e, rfl, rfl⟩

/-- Whatever the storage answers, requests, runs and removals go on to their ends, and everything but the storage
becomes what it becomes over a storage that opens registers and tables as this one does and fails at nothing else. A
request whose register could not be opened changes nothing; any other one that found its process puts its package into
the queues once, and announces once where. A run announces its start, releases its process and announces its end, each
once; a removal announces once each package that it took out. There are no other announcements, and the queues change
in no other way but by dispatches and releases from outside. -/
theorem failures_are_contained (kind : ServiceKind) (instanceId cores workers : Nat) (logger : Logger)
    (registry : Registry)
    (storage : σ) (moves : List Move) :
    let first := ofService (Service.create kind instanceId cores workers logger registry storage)
    let s := first.after moves
    let ds := first.deeds moves
    (first.atop (Prompted.mk (first.prompts moves))).after moves = s.atop (Prompted.mk []) ∧
    (∀ (i : Nat) (log : Logger) (pid : ProcessId) (date now : Instant),
      s.admissions[i]? = some (.openRegister log pid date) →
      (∃ e, (log.start pid now s.shared.storage).1 = .error e ∧
        (s.step (.admission i now)).atop () = { s with admissions := s.admissions.set i .done }.atop ()) ∨
      ∃ id, (log.start pid now s.shared.storage).1 = .ok id ∧
        (s.step (.admission i now)).atop () = ({ s with
          admissions := s.admissions.set i (.place log ⟨pid, id, date, false⟩)
          record := { s.record with opened := s.record.opened ++ [⟨i, log, ⟨pid, id, date, false⟩⟩] } } :
            Activities σ).atop ()) ∧
    (∀ i : Nat, s.admissions[i]? = some .done →
      s.record.opened.filter (·.request = i) = [] ∧ deedsOf (.admission i) ds = [] ∨
      ∃ log p, s.record.opened.filter (·.request = i) = [(⟨i, log, p⟩ : Ticket).origin] ∧
        (deedsOf (.admission i) ds = [.queues p, .announces (p.notice (.queued p.executionDate))] ∨
          deedsOf (.admission i) ds = [.waits p, .announces (p.notice (.onQueue p.executionDate))])) ∧
    (∀ (i : Nat) (r : Run), s.runs[i]? = some r → r.stage = .finished → ∃ e : Ending,
      deedsOf (.run i) ds = [.announces (r.package.notice (.running r.package.executionDate)),
        .releases r.package.processId, .announces (r.package.notice (.finished (e.report r.package)))]) ∧
    (∀ (i count : Nat), s.removals[i]? = some (.done count) → ∃ pid taken, count = taken.length ∧
      deedsOf (.removal i) ds = .strips pid taken :: taken.map fun p => .announces (p.notice .notExecuted)) ∧
    s.shared.notices = ds.filterMap (·.2.notice?) ∧
    (∀ m : Move, m ≠ .loop ∧ m.isRelease = false →
      (s.step m).shared.scheduler = (s.deed? m).elim s.shared.scheduler (·.2.apply s.shared.scheduler)) ∧
    (∀ a ∈ s.admissions, ∀ now, a ≠ .done → (a.step now s.shared).1.rank < a.rank) ∧
    (∀ r ∈ s.runs, ∀ now, r.stage.goesOn = true → (r.step now s.shared).1.stage.rank < r.stage.rank) ∧
    ∀ r ∈ s.removals, ∀ now, r.result? = none → (r.step now s.shared).1.stage < r.stage ∨
      ((r.step now s.shared).1.stage = r.stage ∧ (r.step now s.shared).1.left < r.left) := by
  intro first s ds
  -- What each activity has done by now is read off its stage.
  have did : s.Did ds := (did_start _).after moves
  refine ⟨?_, fun i log pid date now here => s.step_openRegister now here, fun i here => ?_, fun i r here ended => ?_,
    fun i count here => ?_, ?_, fun m own => s.scheduler_step own,
    fun a _ now going => ?_, fun r _ now going => r.rank_step now s.shared going,
    fun r _ now going => r.step_leads_on now s.shared going⟩
  · have hlast := atop_after first moves []
    rwa [List.append_nil] at hlast
  · have h := did.admission i
    rw [here] at h
    exact h
  · have h := did.run i
    rw [here, Option.elim_some, Run.Did, ended] at h
    exact h
  · have h := did.removal i
    rw [here] at h
    obtain ⟨pid, taken, hds, hcount⟩ := h
    exact ⟨pid, taken, hcount, hds⟩
  · exact notices_after first moves
  · refine a.rank_step now s.shared fun hdone => going ?_
    cases a <;> first | rfl | cases hdone

end Activities

end ProcessRuns
