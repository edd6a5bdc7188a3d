import ProcessRuns.Proofs.Activities.Basic
import ProcessRuns.Proofs.Log.Calls

/-! # What a move can do

Most moves leave the queues, the requests, the removals, the runs and the log as they are and ask the storage
for nothing that writes a status: they lead to a state that is `Alike`. `step_cases` lists the others. -/

namespace ProcessRuns

/-! ### Places in a list -/

section
variable {α : Type} {l : List α} {i j : Nat} {a b x : α}

theorem getElem?_set_cases (here : l[i]? = some a) (h : (l.set i b)[j]? = some x) :
    (j = i ∧ x = b) ∨ (j ≠ i ∧ l[j]? = some x) := by
  obtain ⟨hi, -⟩ := List.getElem?_eq_some_iff.mp here
  by_cases hj : i = j
  · subst hj
    rw [List.getElem?_set_self hi, Option.some.injEq] at h
    exact Or.inl ⟨rfl, h.symm⟩
  · rw [List.getElem?_set_ne hj] at h
    exact Or.inr ⟨Ne.symm hj, h⟩

theorem getElem?_concat_cases (h : (l ++ [b])[j]? = some x) : (j = l.length ∧ x = b) ∨ l[j]? = some x := by
  rcases Nat.lt_or_ge j l.length with hj | hj
  · rw [List.getElem?_append_left hj] at h
    exact Or.inr h
  · rw [List.getElem?_append_right hj] at h
    obtain ⟨hlt, hx⟩ := List.getElem?_eq_some_iff.mp h
    have hone : j - l.length < 1 := hlt
    refine Or.inl ⟨by omega, ?_⟩
    rw [← hx, List.getElem_singleton]

/-- A new element that counts for nothing. -/
theorem elim_concat {β : Type} {f : α → β} {none : β} (empty : f b = none) (i : Nat) :
    ((l ++ [b])[i]?).elim none f = (l[i]?).elim none f := by
  rcases Nat.lt_trichotomy i l.length with hi | hi | hi
  · rw [List.getElem?_append_left hi]
  · rw [hi, List.getElem?_concat_length, List.getElem?_eq_none (Nat.le_refl _)]
    exact empty
  · rw [List.getElem?_eq_none (Nat.le_of_lt hi), List.getElem?_eq_none]
    rw [List.length_append, List.length_singleton]
    omega

variable {β : Type} {f : α → Option β} {y : β}

theorem bind_of_concat (empty : f b = none) (h : ((l ++ [b])[i]?).bind f = some y) : (l[i]?).bind f = some y := by
  obtain ⟨x, hx, hy⟩ := Option.bind_eq_some_iff.mp h
  rcases getElem?_concat_cases hx with ⟨-, rfl⟩ | hx
  · rw [empty] at hy
    cases hy
  · exact Option.bind_eq_some_iff.mpr ⟨x, hx, hy⟩

theorem bind_set_cases (here : l[i]? = some a) (h : ((l.set i b)[j]?).bind f = some y) :
    (j = i ∧ f b = some y) ∨ (l[j]?).bind f = some y := by
  obtain ⟨x, hx, hy⟩ := Option.bind_eq_some_iff.mp h
  rcases getElem?_set_cases here hx with ⟨hj, rfl⟩ | ⟨-, hx⟩
  · exact Or.inl ⟨hj, hy⟩
  · exact Or.inr (Option.bind_eq_some_iff.mpr ⟨x, hx, hy⟩)

end

/-! ### What a job does -/

namespace JobContext

variable {σ : Type} (c : JobContext)

theorem registry_snd (s : Shared σ) : (c.registry s).2 = s := by
  unfold registry
  split <;> rfl

theorem definition_snd (s : Shared σ) : (c.definition s).2 = s := by
  refine (Action.snd_of_pure fun registry s => ?_).trans (c.registry_snd s)
  cases registry.find? c.package.processId <;> rfl

variable [Storage σ]

/-- A job's action may ask the storage for something that writes no status. -/
theorem perform_snd (now : Instant) (action : JobAction) (s : Shared σ) :
    ∃ t, Storage.Quiet s.storage t ∧ (c.perform now action s).2 = { s with storage := t } := by
  cases action with
  | log type description =>
    exact ⟨_, c.logger.quiet_log s.storage type description c.package.registerId now,
      Action.snd_of_pure fun _ _ => rfl⟩
  | addValue tag value =>
    exact ⟨_, c.logger.quiet_addValue s.storage tag value c.package.registerId, Action.snd_of_pure fun _ _ => rfl⟩
  | lastData =>
    exact ⟨_, c.logger.quiet_lastData s.storage c.package.processId, Action.snd_of_pure fun _ _ => rfl⟩
  | registry => exact ⟨_, .none, (Action.snd_of_pure fun _ _ => rfl).trans (c.registry_snd s)⟩
  | definition => exact ⟨_, .none, (Action.snd_of_pure fun _ _ => rfl).trans (c.definition_snd s)⟩
  | tableName | package => exact ⟨_, .none, rfl⟩

end JobContext

/-- What a step of the main loop does, by where it stands. -/
inductive Shared.Turned {σ : Type} (s : Shared σ) : Option Package × Shared σ → Prop where
  | rest (waiting : s.loop = .idle ∨ s.loop = .asleep ∨ s.loop = .stopped) : Turned s (none, s)
  /-- A permit is free. -/
  | take (asking : s.loop = .asking) (free : 0 < s.pool.free) :
    Turned s (none, { s with pool := { s.pool with free := s.pool.free - 1 }, loop := .looking })
  | lineUp (asking : s.loop = .asking) (busy : s.pool.free = 0) :
    Turned s (none, { s with pool := { s.pool with line := s.pool.line ++ [.worker] }, loop := .inLine })
  | wait (inLine : s.loop = .inLine) (granted : s.pool.granted = false) : Turned s (none, s)
  /-- A permit was granted. -/
  | accept (inLine : s.loop = .inLine) (granted : s.pool.granted = true) :
    Turned s (none, { s with pool := { s.pool with granted := false }, loop := .looking })
  | dispatch {p : Package} {scheduler : Scheduler} (looking : s.loop = .looking)
    (popped : s.scheduler.pop? = some (p, scheduler)) : Turned s (some p, { s with scheduler, loop := .asking })
  | settle (looking : s.loop = .looking) (empty : s.scheduler.queued = []) :
      Turned s (none, { s with loop := .settling })
  /-- A wakeup was kept. -/
  | heed (settling : s.loop = .settling) (kept : s.wakeup = true) :
    Turned s (none, { s with wakeup := false, loop := .looking })
  | sleep (settling : s.loop = .settling) (kept : s.wakeup = false) : Turned s (none, { s with loop := .asleep })

theorem Shared.turned {σ : Type} (s : Shared σ) : s.Turned s.loopStep := by
  unfold loopStep
  cases hloop : s.loop with
  | asking =>
    by_cases hfree : 0 < s.pool.free
    · simpa only [Pool.request, if_pos hfree, if_true] using Turned.take hloop hfree
    · simpa only [Pool.request, if_neg hfree, Bool.false_eq_true, if_false] using Turned.lineUp hloop (by omega)
  | inLine =>
    cases hgranted : s.pool.granted with
    | true => exact .accept hloop hgranted
    | false => exact .wait hloop hgranted
  | looking =>
    cases hpop : s.scheduler.pop? with
    | some popped => exact .dispatch hloop hpop
    | none =>
      refine .settle hloop ?_
      unfold Scheduler.pop? at hpop
      split at hpop
      · assumption
      · cases hpop
  | settling =>
    by_cases hkept : s.wakeup = true
    · simpa only [if_pos hkept] using Turned.heed hloop hkept
    · simpa only [if_neg hkept] using Turned.sleep hloop (Bool.eq_false_iff.mpr hkept)
  | idle => exact .rest (Or.inl hloop)
  | asleep => exact .rest (Or.inr (Or.inl hloop))
  | stopped => exact .rest (Or.inr (Or.inr hloop))

/-- A step of the main loop dispatches a package, or it does nothing that the queues notice. -/
theorem Shared.loopStep_cases {σ : Type} (s : Shared σ) :
    (∃ p scheduler, s.scheduler.pop? = some (p, scheduler) ∧
      s.loopStep = (some p, { s with scheduler, loop := .asking })) ∨
    ∃ loop wakeup pool, s.loopStep = (none, { s with loop, wakeup, pool }) := by
  have h := s.turned
  generalize s.loopStep = result at h ⊢
  cases h with
  | dispatch looking popped => exact Or.inl ⟨_, _, popped, rfl⟩
  | rest | wait => exact Or.inr ⟨s.loop, s.wakeup, s.pool, rfl⟩
  | take | lineUp | accept | settle | heed | sleep => exact Or.inr ⟨_, _, _, rfl⟩

/-! ### Steps that depend on what they find -/

namespace Admission

variable {σ : Type} [Storage σ] (now : Instant) (s : Shared σ)

theorem step_find (pid : ProcessId) (date : Instant) :
    (find pid date).step now s = (takeLog pid date, s) ∨ (find pid date).step now s = (done, s) := by
  simp only [step]
  split
  · split
    · exact Or.inl rfl
    · exact Or.inr rfl
  · exact Or.inr rfl

theorem step_openRegister (logger : Logger) (pid : ProcessId) (date : Instant) :
    (∃ id storage, logger.start pid now s.storage = (.ok id, storage) ∧
      (openRegister logger pid date).step now s = (place logger ⟨pid, id, date, false⟩, { s with storage })) ∨
    ∃ e storage, logger.start pid now s.storage = (.error e, storage) ∧
      (openRegister logger pid date).step now s = (done, { s with storage }) := by
  simp only [step, Shared.onStorage, Action.within]
  cases logger.start pid now s.storage with
  | mk result storage =>
    cases result with
    | ok id => exact Or.inl ⟨id, storage, rfl, rfl⟩
    | error e => exact Or.inr ⟨e, storage, rfl, rfl⟩

/-- A package goes to the primary queue if its process is idle, and behind its process if its register says so. -/
theorem step_place (logger : Logger) (p : Package) :
    (s.scheduler.isActive p.processId = false ∧
      (place logger p).step now s = (wake p, { s with scheduler := s.scheduler.enqueue p })) ∨
    (s.scheduler.isActive p.processId = true ∧ p.onQueue = true ∧
      (place logger p).step now s =
        (announce p (.onQueue p.executionDate), { s with scheduler := s.scheduler.wait p })) ∨
    (s.scheduler.isActive p.processId = true ∧ p.onQueue = false ∧
      (place logger p).step now s = (mark logger p, s)) := by
  simp only [step]
  cases hactive : s.scheduler.isActive p.processId with
  | false => exact Or.inl ⟨rfl, rfl⟩
  | true =>
    cases hq : p.onQueue with
    | true => exact Or.inr (Or.inl ⟨rfl, rfl, rfl⟩)
    | false => exact Or.inr (Or.inr ⟨rfl, rfl, rfl⟩)

end Admission

theorem Removal.step_strip {σ : Type} [Storage σ] (now : Instant) (s : Shared σ) (pid : ProcessId) :
    ((s.scheduler.remove pid).1 = [] ∧
      (strip pid).step now s = (done 0, { s with scheduler := (s.scheduler.remove pid).2 })) ∨
    (strip pid).step now s =
      (takeLog (s.scheduler.remove pid).1, { s with scheduler := (s.scheduler.remove pid).2 }) := by
  simp only [step]
  cases (s.scheduler.remove pid).1 with
  | nil => exact Or.inl ⟨rfl, rfl⟩
  | cons p rest => exact Or.inr rfl

/-! ### What the steps leave as it is -/

/-- The instance, its registry and the log are the same. -/
structure Shared.SameSettings {σ : Type} (s t : Shared σ) : Prop where
  instanceId : t.instanceId = s.instanceId
  registry : t.registry = s.registry
  owned : t.owned = s.owned
  logger : t.logger = s.logger

section
variable {σ : Type}

theorem Shared.sameSettings_wake (s : Shared σ) : s.SameSettings s.wake := by
  unfold wake
  split <;> exact ⟨rfl, rfl, rfl, rfl⟩

theorem Shared.sameSettings_loopStep (s : Shared σ) : s.SameSettings s.loopStep.2 := by
  rcases s.loopStep_cases with ⟨p, scheduler, -, h⟩ | ⟨loop, wakeup, pool, h⟩ <;> rw [h] <;>
    exact ⟨rfl, rfl, rfl, rfl⟩

theorem Shared.sameSettings_loopStop (s : Shared σ) : s.SameSettings s.loopStop := by
  unfold loopStop
  split <;> exact ⟨rfl, rfl, rfl, rfl⟩

variable [Storage σ]

theorem Admission.sameSettings_step (a : Admission) (now : Instant) (s : Shared σ) :
    s.SameSettings (a.step now s).2 := by
  cases a with
  | find pid date => rcases step_find now s pid date with h | h <;> rw [h] <;> exact ⟨rfl, rfl, rfl, rfl⟩
  | openRegister logger pid date =>
    rcases step_openRegister now s logger pid date with ⟨_, _, -, h⟩ | ⟨_, _, -, h⟩ <;> rw [h] <;>
      exact ⟨rfl, rfl, rfl, rfl⟩
  | place logger p =>
    rcases step_place now s logger p with ⟨-, h⟩ | ⟨-, -, h⟩ | ⟨-, -, h⟩ <;> rw [h] <;>
      exact ⟨rfl, rfl, rfl, rfl⟩
  | wake p => exact s.sameSettings_wake
  | takeLog | mark | announce | done => exact ⟨rfl, rfl, rfl, rfl⟩

theorem Run.sameSettings_step (r : Run) (now : Instant) (s : Shared σ) : s.SameSettings (r.step now s).2 := by
  obtain ⟨p, logger, stage⟩ := r
  cases stage with
  | explain e =>
    simp only [step]
    cases e.message? <;> exact ⟨rfl, rfl, rfl, rfl⟩
  | wake e => exact s.sameSettings_wake
  | _ => exact ⟨rfl, rfl, rfl, rfl⟩

/-- Of the steps of a removal only the first one touches the registry. -/
theorem Removal.sameSettings_step {r : Removal} (later : ∀ pid, r ≠ .forget pid) (now : Instant) (s : Shared σ) :
    s.SameSettings (r.step now s).2 := by
  cases r with
  | forget pid => exact absurd rfl (later pid)
  | close logger count packages => cases packages <;> exact ⟨rfl, rfl, rfl, rfl⟩
  | strip | takeLog | announce | done => exact ⟨rfl, rfl, rfl, rfl⟩

end

namespace Activities

variable {σ : Type}

/-- Nothing has changed but the main loop, the pool, the registry, the events and what the storage holds beside
its rows. -/
structure Alike [Storage σ] (s t : Activities σ) : Prop where
  logger : t.shared.logger = s.shared.logger
  scheduler : t.shared.scheduler = s.shared.scheduler
  admissions : t.admissions = s.admissions
  removals : t.removals = s.removals
  runs : t.runs = s.runs
  record : t.record = s.record
  storage : Storage.Quiet s.shared.storage t.shared.storage

/-- A package is dispatched: its run begins. -/
def dispatch (s : Activities σ) (p : Package) (scheduler : Scheduler) : Activities σ :=
  { s with
    shared := { s.shared with scheduler, loop := .asking }
    runs := s.runs ++ [{ package := p }]
    record := s.record.dispatch p.processId }

/-- What a move leads to, by what it does to the queues, the activities and the log. -/
inductive Stepped [Storage σ] (s : Activities σ) : Move → Activities σ → Prop where
  | alike {m : Move} {t : Activities σ} (h : Alike s t) : Stepped s m t
  | request (pid : ProcessId) (date : Instant) :
    Stepped s (.request pid date) { s with admissions := s.admissions ++ [.find pid date] }
  | forget (pid : ProcessId) :
    Stepped s (.forget pid) { s with
      removals := s.removals ++ [.forget pid]
      record := { s.record with stripped := s.record.stripped ++ [[]] } }
  | admission {i : Nat} (now : Instant) {a : Admission} (here : s.admissions[i]? = some a) :
    Stepped s (.admission i now) (s.stepAdmission i a now)
  | removal {i : Nat} (now : Instant) {r : Removal} (here : s.removals[i]? = some r) :
    Stepped s (.removal i now) (s.stepRemoval i r now)
  | run {i : Nat} (now : Instant) {r : Run} (here : s.runs[i]? = some r) : Stepped s (.run i now) (s.stepRun i r now)
  | answer {i : Nat} (result : JobResult) {r : Run} (here : s.runs[i]? = some r) (working : r.stage = .working) :
    Stepped s (.answer i result) { s with runs := s.runs.set i (r.enter (.stampEnd (.ofResult result))) }
  | dispatch {p : Package} {scheduler : Scheduler} (popped : s.shared.scheduler.pop? = some (p, scheduler)) :
    Stepped s .loop (s.dispatch p scheduler)
  | release (pid : ProcessId) : Stepped s (.release pid) (s.release pid)
  | select {name : String} {logger : Logger} {storage : σ}
    (h : (Logger.select name (s.shared.logger, s.shared.storage)).2 = (logger, storage)) :
    Stepped s (.select name) { s with shared := { s.shared with logger, storage } }

section
variable [Storage σ] (s : Activities σ)

theorem Alike.refl : Alike s s := ⟨rfl, rfl, rfl, rfl, rfl, rfl, .none⟩

theorem alike_wake : Alike s { s with shared := s.shared.wake } := by
  unfold Shared.wake
  split <;> exact ⟨rfl, rfl, rfl, rfl, rfl, rfl, .none⟩

theorem alike_loopStop : Alike s { s with shared := s.shared.loopStop } := by
  unfold Shared.loopStop
  split <;> exact ⟨rfl, rfl, rfl, rfl, rfl, rfl, .none⟩

theorem alike_perform (c : JobContext) (now : Instant) (action : JobAction) :
    Alike s { s with shared := (c.perform now action s.shared).2 } := by
  obtain ⟨u, hquiet, hu⟩ := c.perform_snd now action s.shared
  rw [hu]
  exact ⟨rfl, rfl, rfl, rfl, rfl, rfl, hquiet⟩

theorem step_cases (m : Move) : Stepped s m (s.step m) := by
  cases m with
  | request pid date => exact .request pid date
  | forget pid => exact .forget pid
  | admission i now =>
    cases here : s.admissions[i]? with
    -- An activity that is not there does nothing; the same below.
    | none => exact .alike (by simpa only [step, here, Option.elim_none] using Alike.refl s)
    | some a => simpa only [step, here, Option.elim_some] using Stepped.admission now here
  | removal i now =>
    cases here : s.removals[i]? with
    | none => exact .alike (by simpa only [step, here, Option.elim_none] using Alike.refl s)
    | some r => simpa only [step, here, Option.elim_some] using Stepped.removal now here
  | run i now =>
    cases here : s.runs[i]? with
    | none => exact .alike (by simpa only [step, here, Option.elim_none] using Alike.refl s)
    | some r => simpa only [step, here, Option.elim_some] using Stepped.run now here
  | act i action now =>
    refine .alike ?_
    cases here : s.runs[i]? with
    | none => simpa only [step, here, Option.elim_none] using Alike.refl s
    | some r =>
      simp only [step, here, Option.elim_some, act]
      split
      · exact alike_perform s r.context now action
      · exact Alike.refl s
  | answer i result =>
    cases here : s.runs[i]? with
    | none => exact .alike (by simpa only [step, here, Option.elim_none] using Alike.refl s)
    | some r =>
      simp only [step, here, Option.elim_some, Run.answered]
      split
      · rename_i working
        exact .answer result here working
      -- A run whose job is not running takes no answer, and is set to what it was.
      · refine .alike ⟨rfl, rfl, rfl, rfl, ?_, rfl, .none⟩
        obtain ⟨hi, rfl⟩ := List.getElem?_eq_some_iff.mp here
        exact List.set_getElem_self hi
  | loop =>
    rcases s.shared.loopStep_cases with ⟨p, scheduler, hpop, h⟩ | ⟨phase, wakeup, pool, h⟩
    · have hstep : s.step .loop = s.dispatch p scheduler := by
        simp only [step, loop, h]
        rfl
      rw [hstep]
      exact .dispatch hpop
    -- Whatever else the main loop does, it dispatches nothing.
    · refine .alike ?_
      simp only [step, loop, h]
      exact ⟨rfl, rfl, rfl, rfl, rfl, rfl, .none⟩
  | launch =>
    refine .alike ?_
    simp only [step, launch]
    split <;> exact ⟨rfl, rfl, rfl, rfl, rfl, rfl, .none⟩
  | halt => exact .alike (alike_loopStop s)
  | release pid => exact .release pid
  | nudge =>
    refine .alike ?_
    simp only [step, nudge]
    split
    · exact Alike.refl s
    · have h := alike_wake s
      exact ⟨h.logger, h.scheduler, rfl, rfl, rfl, rfl, h.storage⟩
  | select name =>
    cases h : (Logger.select name (s.shared.logger, s.shared.storage)).2 with
    | mk logger storage =>
      simp only [step, Shared.selectTable, Action.within, h]
      exact .select h
  | outside context action now => exact .alike (alike_perform s context now action)
  | lookUp pid => exact .alike ⟨rfl, rfl, rfl, rfl, rfl, rfl, s.shared.logger.quiet_lastProcess _ pid⟩
  | define | undefine | disown | resize | withdraw => exact .alike ⟨rfl, rfl, rfl, rfl, rfl, rfl, .none⟩

theorem calls_stepAdmission (i : Nat) (a : Admission) (now : Instant) :
    Storage.Calls s.shared.storage (s.stepAdmission i a now).shared.storage := by
  show Storage.Calls _ (a.step now s.shared).2.storage
  cases a with
  | find pid date =>
    rcases Admission.step_find now s.shared pid date with h | h <;> rw [h] <;> exact .none
  | openRegister logger pid date =>
    have hstart := logger.calls_start s.shared.storage pid now
    rcases Admission.step_openRegister now s.shared logger pid date with ⟨id, t, hs, h⟩ | ⟨e, t, hs, h⟩ <;>
      rw [h] <;> rwa [hs] at hstart
  | place logger p =>
    rcases Admission.step_place now s.shared logger p with ⟨-, h⟩ | ⟨-, -, h⟩ | ⟨-, -, h⟩ <;>
      rw [h] <;> exact .none
  | mark logger p => exact logger.calls_result _ _ _ _ _
  | wake p => exact (Storage.Call.quiet (alike_wake s).storage).calls
  | takeLog | announce | done => exact .none

theorem calls_stepRemoval (i : Nat) (r : Removal) (now : Instant) :
    Storage.Calls s.shared.storage (s.stepRemoval i r now).shared.storage := by
  show Storage.Calls _ (r.step now s.shared).2.storage
  cases r with
  | close logger count packages =>
    cases packages with
    | nil => exact .none
    | cons p packages => exact logger.calls_result _ _ _ _ _
  | forget | strip | takeLog | announce | done => exact .none

theorem calls_stepRun (i : Nat) (r : Run) (now : Instant) :
    Storage.Calls s.shared.storage (s.stepRun i r now).shared.storage := by
  show Storage.Calls _ (r.step now s.shared).2.storage
  obtain ⟨p, logger, stage⟩ := r
  cases stage with
  | mark | close => exact logger.calls_result _ _ _ _ _
  | stampStart | stampEnd => exact (Storage.Call.quiet (logger.quiet_addValue _ _ _ _)).calls
  | explain e =>
    simp only [Run.step]
    cases e.message? with
    | none => exact .none
    | some message => exact (Storage.Call.quiet (logger.quiet_log _ _ _ _ _)).calls
  | wake e => exact (Storage.Call.quiet (alike_wake s).storage).calls
  | takeLog | announce | check | working | release | report | leave | finished => exact .none

theorem calls_stepped {m : Move} {t : Activities σ} (hm : Stepped s m t) :
    Storage.Calls s.shared.storage t.shared.storage := by
  cases hm with
  | alike h => exact (Storage.Call.quiet h.storage).calls
  | admission now here => exact calls_stepAdmission s _ _ now
  | removal now here => exact calls_stepRemoval s _ _ now
  | run now here => exact calls_stepRun s _ _ now
  | @select name logger storage h =>
    have hcalls := s.shared.logger.calls_select s.shared.storage name
    rwa [h] at hcalls
  | request | forget | answer | dispatch | release => exact .none

/-- What every move of an interleaving keeps is kept. -/
theorem after_keep {P : Activities σ → Prop} {moves : List Move} (h : P s)
    (each : ∀ t, P t → ∀ m ∈ moves, P (t.step m)) : P (s.after moves) :=
  List.foldlRecOn moves step h each

theorem after_append (moves more : List Move) : s.after (moves ++ more) = (s.after moves).after more :=
  List.foldl_append

theorem calls_after (moves : List Move) : Storage.Calls s.shared.storage (s.after moves).shared.storage :=
  after_keep (P := fun t => Storage.Calls s.shared.storage t.shared.storage) s .none fun t ht m _ =>
    ht.trans (calls_stepped t (step_cases t m))

end

end Activities

end ProcessRuns
