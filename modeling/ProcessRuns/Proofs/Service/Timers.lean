import ProcessRuns.Proofs.Activities.Services

/-! # Timers and definitions

A service keeps its definitions and its timers apart. A removal gives up both; a registration puts its definition in
place of the old one at once, but touches the timer only where the new definition gets one and nothing fails on the
way. So whether the two are in step depends on the last call that registered or removed the process, and for a
registration without a timer also on what it found. -/

namespace ProcessRuns

theorem Timer.create_ok {schedule : Schedule} {pid : ProcessId} {last : Option Instant} {t : Timer}
    (h : Timer.create schedule pid last = .ok t) : t.processId = pid ∧ schedule.period = .ok t.period := by
  unfold Timer.create at h
  cases hperiod : schedule.period with
  | error e => simp only [hperiod, reduceCtorEq] at h
  | ok period =>
    simp only [hperiod] at h
    cases hfirst : Timer.firstTickAfter period last with
    | error e => simp only [hfirst, Except.map, reduceCtorEq] at h
    | ok first =>
      simp only [hfirst, Except.map, Except.ok.injEq] at h
      exact h ▸ ⟨rfl, rfl⟩

namespace Keyed

variable {κ α : Type} [DecidableEq κ]

theorem get?_map (f : α → α) (l : List (κ × α)) (key : κ) :
    get? ⟨l.map fun e => (e.1, f e.2)⟩ key = (get? ⟨l⟩ key).map f := by
  induction l with
  | nil => rfl
  | cons e rest ih =>
    rw [List.map_cons, get?_cons, get?_cons, ih]
    split <;> rfl

end Keyed

/-! ### Activities leave the definitions alone -/

section
variable {σ : Type}

/-- The definitions, and the instance that runs them. -/
def Shared.book (s : Shared σ) : Nat × Registry := (s.instanceId, s.registry)

theorem Shared.SameSettings.book {s t : Shared σ} (h : s.SameSettings t) : t.book = s.book := by
  rw [Shared.book, h.instanceId, h.registry]
  rfl

theorem Shared.book_wake (s : Shared σ) : s.wake.book = s.book := s.sameSettings_wake.book

theorem Shared.book_loopStep (s : Shared σ) : s.loopStep.2.book = s.book := s.sameSettings_loopStep.book

theorem Shared.book_loopStop (s : Shared σ) : s.loopStop.book = s.book := s.sameSettings_loopStop.book

theorem Service.book_dispatched (fuel : Nat) (s : Shared σ) : (dispatched fuel s).2.book = s.book := by
  induction fuel generalizing s with
  | zero => rfl
  | succ fuel ih =>
    rw [dispatched]
    split
    · rfl
    · exact (ih s.loopStep.2).trans s.book_loopStep

variable [Storage σ]

theorem Shared.book_selectTable (s : Shared σ) (name : String) : (s.selectTable name).2.book = s.book := by
  simp only [selectTable, Action.within, book]

theorem Admission.book_step (now : Instant) (a : Admission) (s : Shared σ) : (a.step now s).2.book = s.book :=
  (a.sameSettings_step now s).book

theorem Admission.book_run (now : Instant) (a : Admission) (s : Shared σ) : (a.run now s).book = s.book := by
  rw [run]
  split
  · rfl
  · exact (book_run now _ _).trans (a.book_step now s)
termination_by a.rank
decreasing_by exact a.rank_step now s ‹_›

theorem Service.book_acceptAll (now : Instant) (q : TriggerQueue) (s : Shared σ) :
    (acceptAll now q s).2.book = s.book := by
  rw [acceptAll]
  split
  · rfl
  · exact (book_acceptAll now _ _).trans (Admission.book_run now _ s)
termination_by q.pending
decreasing_by exact TriggerQueue.pending_of_next? ‹_›

theorem Run.book_step (now : Instant) (r : Run) (s : Shared σ) : (r.step now s).2.book = s.book :=
  (r.sameSettings_step now s).book

theorem Run.book_advance (now : Instant) (r : Run) (s : Shared σ) : (r.advance now s).2.book = s.book := by
  rw [advance]
  split
  · exact (book_advance now _ _).trans (r.book_step now s)
  · rfl
termination_by r.stage.rank
decreasing_by exact r.rank_step now s ‹_›

theorem JobScript.book_perform (c : JobContext) (now : Instant) (result : JobResult) (actions : List (JobAction × Bool))
    (s : Shared σ) : (perform c now result actions s).2.2.book = s.book := by
  induction actions generalizing s with
  | nil => rfl
  | cons action rest ih =>
    obtain ⟨action, must⟩ := action
    obtain ⟨t, -, ht⟩ := c.perform_snd now action s
    have hact : (c.perform now action s).2.book = s.book := by rw [ht]; rfl
    rw [perform]
    split
    · rename_i h
      rw [h] at hact
      split
      · exact hact
      · exact (ih _).trans hact
    · rename_i h
      rw [h] at hact
      exact (ih _).trans hact

/-- Of the steps of a removal only the first one touches the definitions. -/
theorem Removal.book_step (now : Instant) (r : Removal) (s : Shared σ) (later : r.stage < 4) :
    (r.step now s).2.book = s.book := by
  refine (sameSettings_step ?_ now s).book
  rintro pid rfl
  exact Nat.lt_irrefl 4 later

theorem Removal.book_run (now : Instant) (r : Removal) (s : Shared σ) (later : r.stage < 4) :
    (r.run now s).2.book = s.book := by
  rw [run]
  split
  · rfl
  · rename_i going
    have hleads := step_leads_on now r s going
    have hnext : (r.step now s).1.stage < 4 := by omega
    exact (book_run now _ _ hnext).trans (r.book_step now s later)
termination_by (r.stage, r.left)
decreasing_by
  rcases step_leads_on now r s ‹_› with h | ⟨h, h'⟩
  · exact Prod.Lex.left _ _ h
  · rw [h]; exact Prod.Lex.right _ h'

theorem Removal.book_forget (now : Instant) (pid : ProcessId) (s : Shared σ) :
    ((forget pid).run now s).2.book = (s.instanceId, s.registry.remove pid) := by
  rw [run]
  exact book_run now (strip pid) _ (Nat.lt_succ_self 3)

end

/-! ### What a call is about -/

namespace ServiceCall

/-- The process that a call registers or removes. -/
def concerns? : ServiceCall → Option ProcessId
  | remove pid => some pid
  | add p | update p => some p.id
  | _ => none

/-- Stops the service and all its timers. -/
def ends : ServiceCall → Bool
  | stop | drop => true
  | _ => false

end ServiceCall

namespace Service

variable {σ : Type}

/-- The period of a process's timer, if it has one. -/
def periodOf? (s : Service σ) (pid : ProcessId) : Option Nat := (s.timers.get? pid).map (·.period)

/-- The schedule of a definition that is to have a timer: it is active and this instance's. -/
def timed? (s : Service σ) (p : ProcessDefinition) : Option Schedule :=
  if p.active && s.shared.owns p then p.schedule else none

/-- The schedule that the definition of a process asks a timer for. -/
def wanted? (s : Service σ) (pid : ProcessId) : Option Schedule := (s.shared.registry.find? pid).bind s.timed?

/-- A process has a timer exactly if its definition is to have one, with the period of the schedule. -/
def InStep (s : Service σ) (pid : ProcessId) : Prop :=
  (s.periodOf? pid).map .ok = (s.wanted? pid).map (·.period)

/-- Nothing has changed of the definitions and of the periods of the timers. -/
structure SameTimers (s t : Service σ) : Prop where
  book : t.shared.book = s.shared.book
  period : ∀ pid, t.periodOf? pid = s.periodOf? pid

namespace SameTimers

variable {s t u : Service σ}

theorem refl (s : Service σ) : SameTimers s s := ⟨rfl, fun _ => rfl⟩

theorem trans (h : SameTimers s t) (h' : SameTimers t u) : SameTimers s u :=
  ⟨h'.book.trans h.book, fun pid => (h'.period pid).trans (h.period pid)⟩

theorem of_shared (timers : t.timers = s.timers) (book : t.shared.book = s.shared.book) : SameTimers s t :=
  ⟨book, fun pid => by rw [periodOf?, timers, periodOf?]⟩

theorem instanceId (h : SameTimers s t) : t.shared.instanceId = s.shared.instanceId := congrArg Prod.fst h.book

theorem registry (h : SameTimers s t) : t.shared.registry = s.shared.registry := congrArg Prod.snd h.book

end SameTimers

theorem timed?_congr {s t : Service σ} (h : t.shared.instanceId = s.shared.instanceId) : t.timed? = s.timed? := by
  funext p
  rw [timed?, timed?, Shared.owns, Shared.owns, h]

theorem SameTimers.wanted? {s t : Service σ} (h : SameTimers s t) (pid : ProcessId) :
    t.wanted? pid = s.wanted? pid := by
  rw [Service.wanted?, Service.wanted?, h.registry, timed?_congr h.instanceId]

/-! ### Calls that are about no definition -/

theorem sameTimers_tick (s : Service σ) (now : Instant) : SameTimers s (s.tick now) := by
  refine ⟨rfl, fun pid => ?_⟩
  have hget := Keyed.get?_map (fun t : Timer => if t.isDue now then { t with ticked := true } else t)
    s.timers.entries pid
  refine (congrArg (Option.map (·.period)) hget).trans ?_
  rw [Option.map_map]
  show Option.map _ (s.timers.get? pid) = Option.map _ (s.timers.get? pid)
  congr 1
  funext t
  show (if t.isDue now then { t with ticked := true } else t : Timer).period = t.period
  split <;> rfl

variable [Storage σ]

theorem sameTimers_trigger (s : Service σ) (pid : ProcessId) (date now : Instant) :
    SameTimers s (s.trigger pid date now) :=
  .of_shared rfl (Admission.book_run now _ s.shared)

theorem sameTimers_reprocess (s : Service σ) (pid : ProcessId) (a b : Instant) (schedule : Schedule) (now : Instant) :
    SameTimers s (s.reprocess pid a b schedule now).2 := by
  unfold reprocess
  split
  · exact .refl s
  · exact List.foldlRecOn (motive := SameTimers s) _ _ (.refl s) fun t ht date _ =>
      ht.trans (t.sameTimers_trigger pid date now)

theorem sameTimers_begin (s : Service σ) (p : Package) (now : Instant) : SameTimers s (s.begin p now) := by
  have hbook := Run.book_advance now { package := p } s.shared
  unfold begin
  cases h : Run.advance now { package := p } s.shared with
  | mk r shared =>
    rw [h] at hbook
    simp only
    split <;> exact .of_shared rfl hbook

theorem sameTimers_accept (s : Service σ) (now : Instant) : SameTimers s (s.accept now) := by
  unfold accept
  split
  · exact .of_shared rfl (book_acceptAll now s.triggers s.shared)
  · exact .refl s

theorem sameTimers_dispatch (s : Service σ) (now : Instant) : SameTimers s (s.dispatch now) := by
  unfold dispatch
  split
  · exact .refl s
  · have hbook := book_dispatched (3 * s.shared.scheduler.pending + 5) s.shared
    cases h : dispatched (3 * s.shared.scheduler.pending + 5) s.shared with
    | mk packages shared =>
      rw [h] at hbook
      exact List.foldlRecOn (motive := SameTimers s) _ _ (.of_shared rfl hbook) fun t ht p _ =>
        ht.trans (t.sameTimers_begin p now)
  · exact .of_shared rfl s.shared.book_loopStop

theorem sameTimers_settle (s : Service σ) (now : Instant) : SameTimers s (s.settle now) := by
  have haccept := (s.sameTimers_tick now).trans ((s.tick now).sameTimers_accept now)
  have hwithdraw : SameTimers s ((s.tick now).accept now).withdraw := haccept.trans (.of_shared rfl rfl)
  have hdispatch := hwithdraw.trans (((s.tick now).accept now).withdraw.sameTimers_dispatch now)
  show SameTimers s (Service.hear _)
  unfold hear
  split
  · exact hdispatch.trans (.of_shared rfl rfl)
  · exact hdispatch

theorem sameTimers_conclude (s : Service σ) (r : Run) (script : JobScript) (now : Instant) :
    SameTimers s (s.conclude r script now).2 := by
  refine .of_shared rfl ?_
  show ((r.answered _).advance now _).2.book = s.shared.book
  rw [Run.book_advance]
  exact JobScript.book_perform r.context now script.result script.actions s.shared

/-- A call that neither registers nor removes a process, nor stops the service, leaves definitions and timers alone. -/
theorem sameTimers_call (s : Service σ) (now : Instant) {c : ServiceCall} (lasting : c.ends = false)
    (other : c.concerns? = none) : SameTimers s (s.call now c) := by
  cases c with
  | launch =>
    show SameTimers s s.launch
    unfold launch
    split
    · exact .of_shared rfl rfl
    · exact .refl s
  | notifyWaiting pid =>
    show SameTimers s (s.notifyWaiting pid)
    refine .of_shared rfl ?_
    show Shared.book (if _ then Shared.wake _ else _) = s.shared.book
    split
    · exact Shared.book_wake _
    · rfl
  | trigger pid date => exact s.sameTimers_trigger pid date now
  | reprocess pid a b schedule => exact s.sameTimers_reprocess pid a b schedule now
  | select name =>
    have hselect : s.call now (.select name) = { s with shared := (s.shared.selectTable name).2 } := by
      simp only [call, selectTable]
    have hbook := s.shared.book_selectTable name
    rw [hselect]
    generalize (s.shared.selectTable name).2 = shared at hbook
    exact .of_shared rfl hbook
  | settle => exact s.sameTimers_settle now
  | conclude pid script =>
    show SameTimers s ((s.working? pid).elim s fun r => (s.conclude r script now).2)
    cases s.working? pid with
    | none => exact .refl s
    | some r => exact s.sameTimers_conclude r script now
  | subscribe | resize => exact .of_shared rfl rfl
  | stop | drop => cases lasting
  | add | remove | update => cases other

/-! ### Registrations and removals -/

/-- The period of the timer that a registration gives its process, if it gives one. -/
def given? (s : Service σ) (p : ProcessDefinition) : Option Nat :=
  match (s.add p).1 with
  | .ok () => (s.timed? p).bind fun schedule => schedule.period.toOption
  | .error _ => none

/-- What a call does to the timer of a process: nothing, or it takes the timer away, or it puts one of a period in
its place. -/
def timerChange? (s : Service σ) (now : Instant) (pid : ProcessId) : ServiceCall → Option (Option Nat)
  | .remove id => if id = pid then some none else none
  | .add p => if p.id = pid then (s.given? p).map some else none
  | .update p => if p.id = pid then some ((s.remove p.id now).2.given? p) else none
  | _ => none

/-- What some calls do to the timer of a process, one after the other. -/
def timerChanges (s : Service σ) (pid : ProcessId) : List (Instant × ServiceCall) → List (Option Nat)
  | [] => []
  | c :: calls => (s.timerChange? c.1 pid c.2).toList ++ (s.call c.1 c.2).timerChanges pid calls

/-- After the call the timer of its process is in step with the definition: the process is removed; or its new
definition is to have no timer, and no old one is left; or it is to have one and gets it, or has an old one of the
same period. -/
def Tracks (s : Service σ) (now : Instant) : ServiceCall → Prop
  | .add p =>
    match s.timed? p with
    | some schedule => (s.add p).1 = .ok () ∨ (s.periodOf? p.id).map .ok = some schedule.period
    | none => s.periodOf? p.id = none
  | .update p => s.timed? p = none ∨ (s.update p now).1 = .ok ()
  | _ => True

omit [Storage σ] in
theorem periodOf?_setTimer (s : Service σ) (t : Timer) (pid : ProcessId) :
    (s.setTimer t).periodOf? pid = if t.processId = pid then some t.period else s.periodOf? pid := by
  unfold periodOf? setTimer
  split
  · rename_i h
    rw [← h, Keyed.get?_set_self, Option.map_some]
  · rename_i h
    rw [Keyed.get?_set_of_ne _ _ (Ne.symm h)]

/-- A definition that is to have no timer is put in place of the old one, and that is all. -/
theorem add_untimed {s : Service σ} {p : ProcessDefinition} (untimed : s.timed? p = none) :
    s.add p = (.ok (), { s with shared := { s.shared with registry := s.shared.registry.add p } }) := by
  unfold add
  cases hschedule : p.schedule with
  | none => rfl
  | some schedule =>
    rw [timed?, hschedule] at untimed
    have hnot : ¬ (p.active && s.shared.owns p) = true := fun h => by rw [if_pos h] at untimed; cases untimed
    exact if_neg hnot

/-- A definition that is to have a timer gets it, or the registration fails and leaves the timers alone. -/
theorem add_timed {s : Service σ} {p : ProcessDefinition} {schedule : Schedule} (timed : s.timed? p = some schedule) :
    (∃ e, (s.add p).1 = .error e ∧ (s.add p).2.timers = s.timers) ∨
    ∃ t, (s.add p).1 = .ok () ∧ t.processId = p.id ∧ schedule.period = .ok t.period ∧
      ∀ pid, (s.add p).2.periodOf? pid = (s.setTimer t).periodOf? pid := by
  obtain ⟨hown, hschedule⟩ : (p.active && s.shared.owns p) = true ∧ p.schedule = some schedule := by
    unfold timed? at timed
    split at timed
    · exact ⟨‹_›, timed⟩
    · cases timed
  have howns : (p.active && ({ s.shared with registry := s.shared.registry.add p } : Shared σ).owns p) = true := hown
  simp only [add, hschedule]
  rw [if_pos howns]
  split
  · exact Or.inl ⟨_, rfl, rfl⟩
  · split
    · exact Or.inl ⟨_, rfl, rfl⟩
    · rename_i hcreate
      obtain ⟨hpid, hperiod⟩ := Timer.create_ok hcreate
      exact Or.inr ⟨_, rfl, hpid, hperiod, fun _ => rfl⟩

theorem book_add (s : Service σ) (p : ProcessDefinition) :
    (s.add p).2.shared.book = (s.shared.instanceId, s.shared.registry.add p) := by
  rcases (s.add_cases p).1 with h | h <;> rw [h] <;> rfl

theorem wanted?_add (s : Service σ) (p : ProcessDefinition) (pid : ProcessId) :
    (s.add p).2.wanted? pid = if p.id = pid then s.timed? p else s.wanted? pid := by
  have hregistry : (s.add p).2.shared.registry = s.shared.registry.set p.id p := congrArg Prod.snd (s.book_add p)
  rw [wanted?, Registry.find?, hregistry, timed?_congr (congrArg Prod.fst (s.book_add p))]
  split
  · rename_i h
    rw [← h, Keyed.get?_set_self, Option.bind_some]
  · rename_i h
    rw [Keyed.get?_set_of_ne _ _ (Ne.symm h)]
    rfl

theorem periodOf?_add (s : Service σ) (p : ProcessDefinition) (pid : ProcessId) :
    (s.add p).2.periodOf? pid = if p.id = pid then (s.given? p).or (s.periodOf? pid) else s.periodOf? pid := by
  unfold given?
  cases timed : s.timed? p with
  | none =>
    rw [add_untimed timed]
    split <;> rfl
  | some schedule =>
    rcases add_timed timed with ⟨e, hanswer, htimers⟩ | ⟨t, hanswer, hpid, hperiod, hset⟩
    · rw [hanswer, periodOf?, htimers]
      split <;> rfl
    · rw [hset, periodOf?_setTimer, hpid, hanswer]
      simp only [Option.bind_some, hperiod]
      split <;> rfl

theorem book_remove (s : Service σ) (pid : ProcessId) (now : Instant) :
    (s.remove pid now).2.shared.book = (s.shared.instanceId, s.shared.registry.remove pid) :=
  Removal.book_forget now pid s.shared

theorem wanted?_remove (s : Service σ) (id pid : ProcessId) (now : Instant) :
    (s.remove id now).2.wanted? pid = if id = pid then none else s.wanted? pid := by
  have hregistry : (s.remove id now).2.shared.registry = s.shared.registry.erase id :=
    congrArg Prod.snd (s.book_remove id now)
  rw [wanted?, Registry.find?, hregistry, timed?_congr (congrArg Prod.fst (s.book_remove id now))]
  split
  · rename_i h
    rw [← h, Keyed.get?_erase_self, Option.bind_none]
  · rename_i h
    rw [Keyed.get?_erase_of_ne _ (Ne.symm h)]
    rfl

theorem periodOf?_remove (s : Service σ) (id pid : ProcessId) (now : Instant) :
    (s.remove id now).2.periodOf? pid = if id = pid then none else s.periodOf? pid := by
  show ((s.timers.erase id).get? pid).map (·.period) = _
  split
  · rename_i h
    rw [← h, Keyed.get?_erase_self, Option.map_none]
  · rename_i h
    rw [Keyed.get?_erase_of_ne _ (Ne.symm h)]
    rfl

/-! ### One call, and all calls -/

theorem concerns?_of_timerChange? {s : Service σ} {now : Instant} {pid : ProcessId} {c : ServiceCall}
    (other : c.concerns? ≠ some pid) : s.timerChange? now pid c = none := by
  cases c with
  | add p => exact if_neg fun h => other (congrArg some h)
  | remove id => exact if_neg fun h => other (congrArg some h)
  | update p => exact if_neg fun h => other (congrArg some h)
  | _ => rfl

/-- A call changes the timer of a process as its answer says, and all others not at all. -/
theorem periodOf?_call (s : Service σ) (now : Instant) {c : ServiceCall} (lasting : c.ends = false) (pid : ProcessId) :
    (s.call now c).periodOf? pid = (s.timerChange? now pid c).getD (s.periodOf? pid) := by
  cases c with
  | add p =>
    refine (s.periodOf?_add p pid).trans ?_
    simp only [timerChange?]
    split
    · cases s.given? p <;> rfl
    · rfl
  | remove id =>
    refine (s.periodOf?_remove id pid now).trans ?_
    simp only [timerChange?]
    split <;> rfl
  | update p =>
    refine ((s.remove p.id now).2.periodOf?_add p pid).trans ?_
    rw [periodOf?_remove]
    simp only [timerChange?]
    split
    · exact Option.or_none
    · rfl
  | _ => exact (s.sameTimers_call now lasting rfl).period pid

/-- A call that is about another process, or about none, does not bring a process in step or out of it. -/
theorem inStep_call_of_ne (s : Service σ) (now : Instant) {c : ServiceCall} (lasting : c.ends = false) {pid : ProcessId}
    (other : c.concerns? ≠ some pid) : (s.call now c).InStep pid ↔ s.InStep pid := by
  have hperiod : (s.call now c).periodOf? pid = s.periodOf? pid := by
    rw [s.periodOf?_call now lasting, concerns?_of_timerChange? other, Option.getD_none]
  have hwanted : (s.call now c).wanted? pid = s.wanted? pid := by
    cases c with
    | add p => exact (s.wanted?_add p pid).trans (if_neg fun h => other (congrArg some h))
    | remove id => exact (s.wanted?_remove id pid now).trans (if_neg fun h => other (congrArg some h))
    | update p =>
      have hne : ¬ p.id = pid := fun h => other (congrArg some h)
      exact ((s.remove p.id now).2.wanted?_add p pid).trans
        ((if_neg hne).trans ((s.wanted?_remove p.id pid now).trans (if_neg hne)))
    | _ => exact (s.sameTimers_call now lasting rfl).wanted? pid
  rw [InStep, InStep, hperiod, hwanted]

theorem inStep_add (s : Service σ) (p : ProcessDefinition) (now : Instant) :
    (s.add p).2.InStep p.id ↔ s.Tracks now (.add p) := by
  rw [InStep, wanted?_add, if_pos rfl, Tracks]
  cases timed : s.timed? p with
  | none =>
    rw [add_untimed timed, Option.map_none, Option.map_eq_none_iff]
    rfl
  | some schedule =>
    rcases add_timed timed with ⟨e, hanswer, htimers⟩ | ⟨t, hanswer, hpid, hperiod, hset⟩
    · rw [hanswer, periodOf?, htimers, Option.map_some]
      exact ⟨Or.inr, fun h => h.resolve_left fun hno => by cases hno⟩
    · rw [hset, periodOf?_setTimer, if_pos hpid, Option.map_some, Option.map_some, hperiod]
      exact ⟨fun _ => Or.inl hanswer, fun _ => rfl⟩

/-- A call that is about a process leaves it in step exactly if it tracks it. -/
theorem inStep_call (s : Service σ) (now : Instant) {c : ServiceCall} {pid : ProcessId}
    (about : c.concerns? = some pid) : (s.call now c).InStep pid ↔ s.Tracks now c := by
  cases c with
  | add p =>
    cases about
    exact s.inStep_add p now
  | remove id =>
    cases about
    refine ⟨fun _ => trivial, fun _ => ?_⟩
    show (s.remove pid now).2.InStep pid
    rw [InStep, wanted?_remove, periodOf?_remove, if_pos rfl, if_pos rfl]
    rfl
  | update p =>
    cases about
    refine ((s.remove p.id now).2.inStep_add p now).trans ?_
    have htimed : (s.remove p.id now).2.timed? p = s.timed? p :=
      congrFun (timed?_congr (congrArg Prod.fst (s.book_remove p.id now))) p
    have hnone : (s.remove p.id now).2.periodOf? p.id = none := (s.periodOf?_remove p.id p.id now).trans (if_pos rfl)
    rw [Tracks, Tracks, htimed, hnone]
    cases s.timed? p with
    | none => exact ⟨fun _ => Or.inl rfl, fun _ => rfl⟩
    | some schedule => exact ⟨fun h => Or.inr (h.resolve_right fun hno => by cases hno),
        fun h => Or.inl (h.resolve_left fun hno => by cases hno)⟩
  | _ => cases about

theorem afterCalls_append (s : Service σ) (calls more : List (Instant × ServiceCall)) :
    s.afterCalls (calls ++ more) = (s.afterCalls calls).afterCalls more := List.foldl_append

/-- As long as every call changes the timer of a process as `timerChange?` says, it is what the last change left of
it. -/
theorem periodOf?_of_changes {P : Service σ → Prop} {s : Service σ} (start : P s) {pid : ProcessId}
    {calls : List (Instant × ServiceCall)} (keeps : ∀ t, P t → ∀ c ∈ calls, P (t.call c.1 c.2))
    (changes : ∀ t, P t → ∀ c ∈ calls,
      (t.call c.1 c.2).periodOf? pid = (t.timerChange? c.1 pid c.2).getD (t.periodOf? pid)) :
    (s.afterCalls calls).periodOf? pid = (s.timerChanges pid calls).getLast?.getD (s.periodOf? pid) := by
  induction calls generalizing s with
  | nil => rfl
  | cons c calls ih =>
    obtain ⟨hchange, hchanges⟩ := List.forall_mem_cons.mp (changes s start)
    refine (ih (keeps s start c List.mem_cons_self) (fun t ht c' hc' => keeps t ht c' (List.mem_cons_of_mem c hc'))
      fun t ht c' hc' => changes t ht c' (List.mem_cons_of_mem c hc')).trans ?_
    rw [timerChanges, List.getLast?_append, hchange]
    cases s.timerChange? c.1 pid c.2 <;> cases ((s.call c.1 c.2).timerChanges pid calls).getLast? <;> rfl

theorem periodOf?_afterCalls (s : Service σ) {calls : List (Instant × ServiceCall)}
    (lasting : ∀ c ∈ calls, c.2.ends = false) (pid : ProcessId) :
    (s.afterCalls calls).periodOf? pid = (s.timerChanges pid calls).getLast?.getD (s.periodOf? pid) :=
  periodOf?_of_changes (P := fun _ => True) trivial (fun _ _ _ _ => trivial) fun t _ c hc =>
    t.periodOf?_call c.1 (lasting c hc) pid

theorem inStep_afterCalls (s : Service σ) {calls : List (Instant × ServiceCall)}
    (lasting : ∀ c ∈ calls, c.2.ends = false) {pid : ProcessId} (other : ∀ c ∈ calls, c.2.concerns? ≠ some pid) :
    (s.afterCalls calls).InStep pid ↔ s.InStep pid := by
  induction calls generalizing s with
  | nil => exact Iff.rfl
  | cons c calls ih =>
    obtain ⟨hc, hcalls⟩ := List.forall_mem_cons.mp lasting
    obtain ⟨hother, hothers⟩ := List.forall_mem_cons.mp other
    exact (ih (s.call c.1 c.2) hcalls hothers).trans (s.inStep_call_of_ne c.1 hc hother)

/-- Until a service stops, the timer of a process is what the last call left of it that gave it one or took it away.
Whether it is in step with the definition depends on the last call that registered or removed the process alone: a
service starts without timers, and only a removal, and a registration that tracks its process, puts it in step. -/
theorem in_step_iff_last_call_tracks (kind : ServiceKind) (instanceId cores workers : Nat) (logger : Logger)
    (registry : Registry) (storage : σ) (calls : List (Instant × ServiceCall))
    (lasting : ∀ c ∈ calls, c.2.ends = false) (pid : ProcessId) :
    let start := Service.create kind instanceId cores workers logger registry storage
    let s := start.afterCalls calls
    s.periodOf? pid = (start.timerChanges pid calls).getLast?.join ∧
    ((∀ c ∈ calls, c.2.concerns? ≠ some pid) → (s.InStep pid ↔ start.wanted? pid = none)) ∧
    ∀ before now c after, calls = before ++ (now, c) :: after → c.concerns? = some pid →
      (∀ c' ∈ after, c'.2.concerns? ≠ some pid) → (s.InStep pid ↔ (start.afterCalls before).Tracks now c) := by
  intro start s
  have hstart : start.periodOf? pid = none := rfl
  refine ⟨?_, fun other => ?_, ?_⟩
  · rw [periodOf?_afterCalls start lasting, hstart]
    cases (start.timerChanges pid calls).getLast? <;> rfl
  · refine (inStep_afterCalls start lasting other).trans ?_
    rw [InStep, hstart, Option.map_none, eq_comm, Option.map_eq_none_iff]
  · intro before now c after hcalls about other
    have hafter : ∀ c' ∈ after, c'.2.ends = false := fun c' hc' =>
      lasting c' (hcalls ▸ List.mem_append_right before (List.mem_cons_of_mem _ hc'))
    have hs : s = ((start.afterCalls before).call now c).afterCalls after := by
      show start.afterCalls calls = _
      rw [hcalls, afterCalls_append]
      rfl
    rw [hs, inStep_afterCalls _ hafter other]
    exact inStep_call _ now about

/-- A call that registers no process anew without a removal, and whose registration, if any, is accepted. -/
def Careful (s : Service σ) (now : Instant) : ServiceCall → Prop
  | .add p => s.shared.registry.find? p.id = none ∧ (s.add p).1 = .ok ()
  | .update p => (s.update p now).1 = .ok ()
  | _ => True

theorem tracks_of_careful {s : Service σ} {now : Instant} {c : ServiceCall} (careful : s.Careful now c)
    (instep : ∀ pid, s.InStep pid) : s.Tracks now c := by
  cases c with
  | add p =>
    obtain ⟨hnew, hanswer⟩ := careful
    have hp := instep p.id
    rw [InStep, wanted?, hnew, Option.bind_none, Option.map_none, Option.map_eq_none_iff] at hp
    rw [Tracks]
    cases s.timed? p with
    | none => exact hp
    | some schedule => exact Or.inl hanswer
  | update p => exact Or.inr careful
  | _ => trivial

/-- As long as processes are registered anew by updates only and no registration fails, all timers stay in step. -/
theorem inStep_of_careful (s : Service σ) (instep : ∀ pid, s.InStep pid) {calls : List (Instant × ServiceCall)}
    (lasting : ∀ c ∈ calls, c.2.ends = false)
    (careful : ∀ before c after, calls = before ++ c :: after → (s.afterCalls before).Careful c.1 c.2)
    (pid : ProcessId) : (s.afterCalls calls).InStep pid := by
  induction calls generalizing s with
  | nil => exact instep pid
  | cons c calls ih =>
    obtain ⟨hc, hcalls⟩ := List.forall_mem_cons.mp lasting
    refine ih (s.call c.1 c.2) (fun pid => ?_) hcalls fun before c' after h =>
      careful (c :: before) c' after (by rw [h]; rfl)
    by_cases about : c.2.concerns? = some pid
    · exact (s.inStep_call c.1 about).mpr (tracks_of_careful (careful [] c calls rfl) instep)
    · exact (s.inStep_call_of_ne c.1 hc about).mpr (instep pid)

/-- A process with an hourly schedule is registered, and then the same process without a schedule. -/
def scheduleDropped : List (Instant × ServiceCall) :=
  [(.epoch, .add ⟨1, 1, true, some ⟨1, "h"⟩⟩), (.epoch, .add ⟨1, 1, true, none⟩)]

theorem in_step_iff_last_call_tracks_of_scheduleDropped :
    (∀ c ∈ scheduleDropped, c.2.ends = false) ∧
      let s := (Service.create .collector 1 4 2 ⟨some Activities.soloTable⟩ ∅ Activities.soloLog).afterCalls
        scheduleDropped
      s.periodOf? 1 = some 3600 ∧ s.wanted? 1 = none ∧ ¬ s.InStep 1 := by
  have lasting : ∀ c ∈ scheduleDropped, c.2.ends = false := by decide
  obtain ⟨hperiod, -, hlast⟩ := in_step_iff_last_call_tracks .collector 1 4 2 ⟨some Activities.soloTable⟩ ∅
    Activities.soloLog scheduleDropped lasting 1
  refine ⟨lasting, hperiod.trans (by decide +kernel), by decide +kernel, fun hstep => ?_⟩
  have htracks := (hlast [_] _ (.add ⟨1, 1, true, none⟩) [] rfl rfl fun c hc => absurd hc List.not_mem_nil).mp hstep
  have hnone : (((Service.create .collector 1 4 2 ⟨some Activities.soloTable⟩ ∅ Activities.soloLog).afterCalls
    (scheduleDropped.take 1)).periodOf? 1) = none := htracks
  exact absurd hnone (by decide +kernel)

end Service

end ProcessRuns
