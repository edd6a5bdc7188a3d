import ProcessRuns.Proofs.Activities.Steps
import ProcessRuns.Proofs.Queue.Exclusive

/-! # Runs of a process do not overlap

Whatever comes between the steps of the requests, the removals, the runs and the main loop, the queues and the
runs under way stay tied together: each move does to them one of the things that `Scheduler.Moves` lists. -/

namespace ProcessRuns

namespace Run

/-- The package was dispatched and its process was not released yet. -/
def Stage.isUnderWay : Stage → Bool
  | wake _ | report _ | leave | finished => false
  | _ => true

/-- The run holds its process: no other run of it may begin. -/
def isUnderWay (r : Run) : Bool := r.stage.isUnderWay

variable {σ : Type} [Storage σ] {r : Run} {s : Shared σ} {now : Instant}

theorem package_step (now : Instant) (r : Run) (s : Shared σ) : (r.step now s).1.package = r.package := by
  unfold step
  cases r.stage <;> rfl

/-- A run is under way until its process is released, and only the release touches the queues. -/
theorem step_cases (now : Instant) (r : Run) (s : Shared σ) :
    ((r.step now s).1.isUnderWay = r.isUnderWay ∧ (r.step now s).2.scheduler = s.scheduler) ∨
    (r.isUnderWay = true ∧ (r.step now s).1.isUnderWay = false ∧
      (r.step now s).2.scheduler = (s.scheduler.finish r.package.processId).2) := by
  obtain ⟨p, logger, stage⟩ := r
  cases stage with
  | release e =>
    refine Or.inr ⟨rfl, ?_, rfl⟩
    simp only [step, enter]
    cases (s.scheduler.finish p.processId).1 <;> rfl
  | takeLog =>
    refine Or.inl ⟨?_, rfl⟩
    simp only [step]
    cases p.onQueue <;> rfl
  | check =>
    refine Or.inl ⟨?_, rfl⟩
    simp only [step, enter]
    cases s.owned <;> rfl
  | wake e =>
    refine Or.inl ⟨rfl, ?_⟩
    simp only [step, Shared.wake]
    cases s.loop <;> rfl
  | explain e =>
    refine Or.inl ⟨rfl, ?_⟩
    simp only [step]
    cases e.message? <;> rfl
  | mark | announce | stampStart | working | stampEnd | close | report | leave | finished => exact Or.inl ⟨rfl, rfl⟩

end Run

namespace Activities

variable {σ : Type} {s t : Activities σ} {m : Move}

/-- The runs of a process that are under way. -/
def underWay (s : Activities σ) (pid : ProcessId) : Nat :=
  s.runs.countP fun r => r.isUnderWay && r.package.processId = pid

theorem countP_set {α : Type} {l : List α} {i : Nat} {a : α} (here : l[i]? = some a) (b : α) (p : α → Bool) :
    (l.set i b).countP p + (if p a then 1 else 0) = l.countP p + if p b then 1 else 0 := by
  obtain ⟨hi, rfl⟩ := List.getElem?_eq_some_iff.mp here
  rw [List.countP_set hi]
  have hpos : p l[i] = true → 0 < l.countP p := fun hp => List.countP_pos_iff.mpr ⟨l[i], List.getElem_mem hi, hp⟩
  split
  · rename_i hp
    have := hpos hp
    omega
  · omega

/-- Where one element at most has a property, it stands at one place. -/
theorem eq_of_countP_le_one {α : Type} {p : α → Bool} {l : List α} (h : l.countP p ≤ 1) {i j : Nat} {a b : α}
    (hi : l[i]? = some a) (hj : l[j]? = some b) (ha : p a = true) (hb : p b = true) : i = j := by
  induction l generalizing i j with
  | nil => cases hi
  | cons x rest ih =>
    rw [List.countP_cons] at h
    have hpos : ∀ {k : Nat} {c : α}, rest[k]? = some c → p c = true → 0 < rest.countP p := fun hk hc =>
      List.countP_pos_iff.mpr ⟨_, List.mem_of_getElem? hk, hc⟩
    cases i with
    | zero =>
      cases j with
      | zero => rfl
      | succ j =>
        cases hi
        have := hpos hj hb
        rw [if_pos ha] at h
        omega
    | succ i =>
      cases j with
      | zero =>
        cases hj
        have := hpos hi ha
        rw [if_pos hb] at h
        omega
      | succ j => rw [ih (by omega) hi hj]

theorem underWay_set {i : Nat} {r r' : Run} (here : s.runs[i]? = some r) (set : t.runs = s.runs.set i r')
    (package : r'.package = r.package) (pid : ProcessId) :
    t.underWay pid + (if r.isUnderWay = true ∧ r.package.processId = pid then 1 else 0) =
      s.underWay pid + if r'.isUnderWay = true ∧ r.package.processId = pid then 1 else 0 := by
  have h := countP_set here r' fun r => r.isUnderWay && decide (r.package.processId = pid)
  simpa only [Bool.and_eq_true, decide_eq_true_eq, package, underWay, set] using h

theorem underWay_same {i : Nat} {r r' : Run} (here : s.runs[i]? = some r) (set : t.runs = s.runs.set i r')
    (package : r'.package = r.package) (way : r'.isUnderWay = r.isUnderWay) : t.underWay = s.underWay :=
  funext fun pid => by
    have h := underWay_set here set package pid
    rw [way] at h
    exact Nat.add_right_cancel h

theorem underWay_dispatch (s : Activities σ) (p : Package) (scheduler : Scheduler) :
    (s.dispatch p scheduler).underWay = fun pid => s.underWay pid + if p.processId = pid then 1 else 0 :=
  funext fun pid => by
    show (s.runs ++ [({ package := p } : Run)]).countP _ = _
    rw [List.countP_append, List.countP_singleton, underWay]
    simp [Run.isUnderWay, Run.Stage.isUnderWay]

section
variable [Storage σ]

theorem moves_stepRun {i : Nat} {r : Run} (here : s.runs[i]? = some r) (now : Instant) :
    Scheduler.Moves s.shared.scheduler s.underWay (s.stepRun i r now).shared.scheduler
        (s.stepRun i r now).underWay := by
  rcases r.step_cases now s.shared with ⟨hway, hscheduler⟩ | ⟨hway, hover, hscheduler⟩
  · have hkeep : (s.stepRun i r now).shared.scheduler = s.shared.scheduler := hscheduler
    rw [hkeep, underWay_same (t := s.stepRun i r now) here rfl (r.package_step now s.shared) hway]
    exact .keep _ _
  · have hfinish : (s.stepRun i r now).shared.scheduler = (s.shared.scheduler.finish r.package.processId).2 :=
      hscheduler
    rw [hfinish]
    refine .finish _ fun pid => ?_
    have h := underWay_set (t := s.stepRun i r now) here rfl (r.package_step now s.shared) pid
    simp only [hway, hover, true_and, Bool.false_eq_true, false_and, if_false, Nat.add_zero] at h
    exact h.symm

theorem moves_stepAdmission (i : Nat) (a : Admission) (now : Instant) :
    Scheduler.Moves s.shared.scheduler s.underWay (s.stepAdmission i a now).shared.scheduler s.underWay := by
  show Scheduler.Moves _ _ (a.step now s.shared).2.scheduler _
  cases a with
  | place logger p =>
    rcases Admission.step_place now s.shared logger p with ⟨idle, h⟩ | ⟨active, -, h⟩ | ⟨-, -, h⟩ <;> rw [h]
    · exact .enqueue _ idle
    · exact .wait _ active
    · exact .keep _ _
  | find pid date =>
    rcases Admission.step_find now s.shared pid date with h | h <;> rw [h] <;> exact .keep _ _
  | openRegister logger pid date =>
    rcases Admission.step_openRegister now s.shared logger pid date with ⟨_, _, -, h⟩ | ⟨_, _, -, h⟩ <;> rw [h] <;>
      exact .keep _ _
  | wake p =>
    have hkeep : s.shared.wake.scheduler = s.shared.scheduler := (alike_wake s).scheduler
    simp only [Admission.step, hkeep]
    exact .keep _ _
  | takeLog | mark | announce | done => exact .keep _ _

theorem moves_stepRemoval (i : Nat) (r : Removal) (now : Instant) :
    Scheduler.Moves s.shared.scheduler s.underWay (s.stepRemoval i r now).shared.scheduler s.underWay := by
  show Scheduler.Moves _ _ (r.step now s.shared).2.scheduler _
  cases r with
  | strip pid => exact .remove _ _ pid
  | close logger count packages => cases packages <;> exact .keep _ _
  | forget | takeLog | announce | done => exact .keep _ _

/-- No move but a release from outside does anything else to the queues. -/
theorem moves_step (h : Stepped s m t) (own : m.isRelease = false) :
    Scheduler.Moves s.shared.scheduler s.underWay t.shared.scheduler t.underWay := by
  cases h with
  | alike h =>
    rw [h.scheduler, show t.underWay = s.underWay from funext fun pid => by rw [underWay, h.runs, underWay]]
    exact .keep _ _
  | request | forget | select => exact .keep _ _
  | admission now here => exact moves_stepAdmission _ _ now
  | removal now here => exact moves_stepRemoval _ _ now
  | run now here => exact moves_stepRun here now
  | @answer i result r here working =>
    have hway : (r.enter (.stampEnd (.ofResult result))).isUnderWay = r.isUnderWay := by
      rw [Run.isUnderWay, Run.isUnderWay, working]
      rfl
    rw [underWay_same (t := { s with runs := s.runs.set i (r.enter (.stampEnd (.ofResult result))) }) here rfl rfl hway]
    exact .keep _ _
  | @dispatch p scheduler popped =>
    rw [underWay_dispatch]
    exact .pop _ popped
  | release pid => cases own

end

/-- Nothing is lost between the queues and the runs, and no process has two packages there. -/
def Exclusive (s : Activities σ) : Prop := s.shared.scheduler.Tidy ∧ s.shared.scheduler.Exclusive s.underWay

theorem exclusive_start (service : Service σ) (fresh : service.shared.scheduler = {}) :
    (ofService service).Exclusive := by
  show service.shared.scheduler.Tidy ∧ service.shared.scheduler.Exclusive fun _ => 0
  rw [fresh]
  exact ⟨Scheduler.Tidy.empty, Scheduler.Exclusive.empty⟩

theorem exclusive_after [Storage σ] {moves : List Move} (own : ∀ m ∈ moves, m.isRelease = false) (h : s.Exclusive) :
    (s.after moves).Exclusive :=
  after_keep s h fun t ht m hm =>
    have hmoves := moves_step (step_cases t m) (own m hm)
    ⟨hmoves.tidy ht.1, hmoves.exclusive ht.1 ht.2⟩

/-- A package is dispatched only when no run of its process is under way. -/
theorem not_underWay_of_dispatch (h : s.Exclusive) {p : Package} (hp : s.shared.loopStep.1 = some p) {r : Run}
    (hr : r ∈ s.runs) (process : r.package.processId = p.processId) : r.isUnderWay = false := by
  obtain ⟨scheduler, popped⟩ : ∃ scheduler, s.shared.scheduler.pop? = some (p, scheduler) := by
    rcases s.shared.loopStep_cases with ⟨q, scheduler, hpop, hstep⟩ | ⟨_, _, _, hstep⟩ <;> rw [hstep] at hp
    · cases hp
      exact ⟨scheduler, hpop⟩
    · cases hp
  obtain ⟨hqueued, -⟩ := Scheduler.pop?_eq_some popped
  have hone := h.2.one p.processId
  have hcount : 0 < s.shared.scheduler.queuedCount p.processId :=
    List.countP_pos_iff.mpr ⟨p, hqueued ▸ List.mem_cons_self, decide_eq_true rfl⟩
  have hzero : s.underWay p.processId = 0 := by omega
  have hnot := List.countP_eq_zero.mp hzero r hr
  simpa [process] using hnot

/-- Under any interleaving in which a process is released by its own runs only, a process is active exactly if
one package of it is queued or under way, and then no second one is; packages wait behind active processes only,
and no queue behind a process is empty. So runs of one process never overlap. -/
theorem runs_never_overlap [Storage σ] (kind : ServiceKind) (instanceId cores workers : Nat) (logger : Logger)
    (registry : Registry) (storage : σ) (moves : List Move) (own : ∀ m ∈ moves, m.isRelease = false) :
    let s := (ofService (Service.create kind instanceId cores workers logger registry storage)).after moves
    let q := s.shared.scheduler
    (∀ pid, (pid ∈ q.active ↔ q.queuedCount pid + s.underWay pid = 1) ∧ q.queuedCount pid + s.underWay pid ≤ 1 ∧
      (pid ∈ q.running ↔ s.underWay pid = 1) ∧ (pid ∈ q.running → pid ∈ q.active) ∧
      (q.waitQueue pid ≠ [] → pid ∈ q.active)) ∧
    (∀ e ∈ q.waiting.entries, e.2 ≠ []) ∧
    q.snapshot.active.length = q.snapshot.queued + q.snapshot.running.length ∧
    ∀ (i j : Nat) (r r' : Run), s.runs[i]? = some r → s.runs[j]? = some r' → r.isUnderWay = true →
      r'.isUnderWay = true →
      r.package.processId = r'.package.processId → i = j := by
  intro s q
  obtain ⟨tidy, h⟩ : s.Exclusive := exclusive_after own (exclusive_start _ rfl)
  refine ⟨fun pid => ⟨h.active pid, h.one pid, h.running pid, fun hr => ?_, tidy.behind pid⟩, tidy.filled, ?_, ?_⟩
  · have := h.one pid
    have := (h.running pid).mp hr
    exact (h.active pid).mpr (by omega)
  · show q.active.mergeSort.length = q.queued.length + q.running.mergeSort.length
    rw [List.length_mergeSort, List.length_mergeSort]
    exact h.length_active tidy
  · intro i j r r' hi hj hr hr' hpid
    refine eq_of_countP_le_one (p := fun r' => r'.isUnderWay && r'.package.processId = r.package.processId)
      ?_ hi hj ?_ ?_
    · exact Nat.le_trans (Nat.le_add_left _ _) (h.one r.package.processId)
    · simp [hr]
    · simp [hr', hpid]

/-- A registry of one process. -/
def soloRegistry : Registry := Registry.add ∅ ⟨1, 1, true, none⟩

/-- A table to run the examples on. -/
def soloTable : LogTable := ⟨"log", by decide⟩

/-- A log without registers. -/
def soloLog : Memory := ⟨⟨[(soloTable, {})]⟩⟩

theorem sound_soloLog : RowStorage.Sound soloLog :=
  Logger.sound_opened Memory.sound_empty (rfl : Logger.opened "log" ({} : Memory) = (.ok ⟨some soloTable⟩, soloLog))

/-- A process is requested and dispatched, and then it is requested once more. -/
def secondRequest : List Move :=
  [.request 1 .epoch, .launch] ++ List.replicate 8 (.admission 0 .epoch) ++
    [.loop, .loop, .run 0 .epoch, .request 1 .epoch] ++ List.replicate 8 (.admission 1 .epoch)

theorem runs_never_overlap_of_secondRequest :
    (∀ m ∈ secondRequest, m.isRelease = false) ∧
      let s := (ofService (Service.create .collector 1 4 2 ⟨some soloTable⟩ soloRegistry soloLog)).after secondRequest
      s.runs.length = 1 ∧ (s.shared.scheduler.waitQueue 1).length = 1 ∧
        s.shared.scheduler.queuedCount 1 + s.underWay 1 = 1 := by
  have own : ∀ m ∈ secondRequest, m.isRelease = false := by decide
  have h := runs_never_overlap .collector 1 4 2 ⟨some soloTable⟩ soloRegistry soloLog secondRequest own
  refine ⟨own, by decide +kernel, by decide +kernel, (h.1 1).1.mp ?_⟩
  decide +kernel

end Activities

end ProcessRuns
