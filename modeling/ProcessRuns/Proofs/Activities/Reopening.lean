import ProcessRuns.Proofs.Activities.Registers
import ProcessRuns.Proofs.Log.Repairs

/-! # A log that is opened again

A service may end at any moment and leave registers open in its log. Whoever opens the log again sees the statuses
only, and goes by them: a register that says it was started is marked as interrupted, and one that says it was queued
is marked as not executed. What a register says is not yet whether its package was dispatched: a package that did not
have to wait says that it was started from when its register was opened, and one that had to wait says that it is
queued until its run has written otherwise. -/

namespace ProcessRuns

/-! ## What open registers say -/

/-- The register of the run says that it was started: it has said so from the beginning, or the run has marked it. -/
def Run.saysStarted (r : Run) : Bool := !r.package.onQueue || r.stage.hasStarted

namespace Activities

section
variable {σ : Type} {s : Activities σ}

/-- The packages that were dispatched and whose registers are not closed. -/
def inRuns (s : Activities σ) : List Package := s.runs.flatMap (·.held)

/-- The packages that have a register and were not dispatched, as far as their registers are not closed: those of
requests on their way to the queues, those in the queues, and those that a removal has taken out. -/
def undispatched (s : Activities σ) : List Package :=
  s.admissions.flatMap (·.held) ++ s.shared.scheduler.packages ++ s.removals.flatMap (·.held)

/-- The packages in hand whose registers say that they were started. -/
def sayingStarted (s : Activities σ) : List Package :=
  s.undispatched.filter (fun p => !p.onQueue) ++ (s.runs.filter (·.saysStarted)).flatMap (·.held)

/-- The packages in hand whose registers say that they are queued. -/
def sayingQueued (s : Activities σ) : List Package :=
  s.undispatched.filter (·.onQueue) ++ (s.runs.filter fun r => !r.saysStarted).flatMap (·.held)

/-- The registers tell whether their packages were dispatched: those that were not all had to wait, and the runs have
marked theirs as started. -/
def TellsDispatched (s : Activities σ) : Prop :=
  (∀ p ∈ s.undispatched, p.onQueue = true) ∧ ∀ r ∈ s.runs, r.stage.isClosed = false → r.saysStarted = true

theorem mem_live {p : Package} : p ∈ s.live ↔ p ∈ s.undispatched ∨ p ∈ s.inRuns := by
  simp only [live, undispatched, inRuns, List.mem_append]
  tauto

theorem mem_sayingStarted {p : Package} : p ∈ s.sayingStarted ↔
    (p ∈ s.undispatched ∧ p.onQueue = false) ∨ ∃ r ∈ s.runs, r.saysStarted = true ∧ p ∈ r.held := by
  simp [sayingStarted, and_assoc]

theorem mem_sayingQueued {p : Package} : p ∈ s.sayingQueued ↔
    (p ∈ s.undispatched ∧ p.onQueue = true) ∨ ∃ r ∈ s.runs, r.saysStarted = false ∧ p ∈ r.held := by
  simp [sayingQueued, and_assoc]

theorem saying_of_live {p : Package} (hp : p ∈ s.live) : p ∈ s.sayingStarted ∨ p ∈ s.sayingQueued := by
  rw [mem_sayingStarted, mem_sayingQueued]
  rcases mem_live.mp hp with hp | hp
  · cases hq : p.onQueue
    · exact Or.inl (Or.inl ⟨hp, rfl⟩)
    · exact Or.inr (Or.inl ⟨hp, rfl⟩)
  · obtain ⟨r, hr, hpr⟩ := List.mem_flatMap.mp hp
    cases hsaid : r.saysStarted
    · exact Or.inr (Or.inr ⟨r, hr, hsaid, hpr⟩)
    · exact Or.inl (Or.inr ⟨r, hr, hsaid, hpr⟩)

namespace TellsDispatched

theorem saysStarted (h : s.TellsDispatched) {r : Run} (hr : r ∈ s.runs) {p : Package} (hp : p ∈ r.held) :
    r.saysStarted = true := by
  refine h.2 r hr (Bool.eq_false_iff.mpr fun hclosed => ?_)
  rw [Run.held, if_pos hclosed] at hp
  cases hp

theorem started_iff (h : s.TellsDispatched) {p : Package} : p ∈ s.sayingStarted ↔ p ∈ s.inRuns := by
  rw [mem_sayingStarted, inRuns, List.mem_flatMap]
  constructor
  · rintro (⟨hp, hq⟩ | ⟨r, hr, -, hpr⟩)
    · rw [h.1 p hp] at hq
      cases hq
    · exact ⟨r, hr, hpr⟩
  · rintro ⟨r, hr, hpr⟩
    exact Or.inr ⟨r, hr, h.saysStarted hr hpr, hpr⟩

theorem queued_iff (h : s.TellsDispatched) {p : Package} : p ∈ s.sayingQueued ↔ p ∈ s.undispatched := by
  rw [mem_sayingQueued]
  constructor
  · rintro (⟨hp, -⟩ | ⟨r, hr, hnot, hpr⟩)
    · exact hp
    · rw [h.saysStarted hr hpr] at hnot
      cases hnot
  · exact fun hp => Or.inl ⟨hp, h.1 p hp⟩

end TellsDispatched

end

section
variable {σ : Type} [Storage σ] [RowStorage σ] {s : Activities (Journaled σ)} {table : LogTable} {start : Rows}
  {c : RegisterId → Course}

namespace Courses

theorem row_of_undispatched (h : Courses table start s c) {p : Package} (hp : p ∈ s.undispatched) :
    RowStorage.rows s.shared.storage table p.registerId = some (if p.onQueue then .onQueue else .start) := by
  suffices hopening : (c p.registerId).history = Course.opening p.onQueue by
    have hne : c p.registerId ≠ .unopened := fun hno => by
      rw [hno] at hopening
      cases hq : p.onQueue <;> rw [hq] at hopening <;> cases hopening
    rw [h.row_of_opened hne, hopening]
    cases p.onQueue <;> rfl
  rcases List.mem_append.mp hp with hp | hp
  · rcases List.mem_append.mp hp with hp | hp
    · obtain ⟨a, ha, hpa⟩ := List.mem_flatMap.mp hp
      obtain ⟨i, hi⟩ := List.mem_iff_getElem?.mp ha
      have hat := h.placed.here (.admission i) p (by rwa [heldAt_admission hi])
      rw [Course.eq_admitted hat.1, hat.2]
      rfl
    · have hat := h.placed.here .queues p hp
      rw [Course.eq_queued hat.1, hat.2]
      rfl
  · obtain ⟨r, hr, hpr⟩ := List.mem_flatMap.mp hp
    obtain ⟨i, hi⟩ := List.mem_iff_getElem?.mp hr
    have hat := h.placed.here (.removal i) p (by rwa [heldAt_removal hi])
    rw [Course.eq_stripped hat.1, hat.2]
    rfl

theorem row_of_run (h : Courses table start s c) {r : Run} (hr : r ∈ s.runs) {p : Package} (hp : p ∈ r.held) :
    RowStorage.rows s.shared.storage table p.registerId = some (if r.saysStarted then .start else .onQueue) := by
  rw [Run.held] at hp
  split at hp
  · cases hp
  rename_i hopen
  obtain rfl := List.mem_singleton.mp hp
  obtain ⟨i, hi⟩ := List.mem_iff_getElem?.mp hr
  have hon := (h.place_run hi).2
  have hphase := h.phases i r hi
  obtain ⟨p, logger, stage⟩ := r
  cases stage with
  | takeLog | mark =>
    obtain ⟨j, q, hc⟩ : ∃ j q, c p.registerId = .dispatched j q := hphase
    obtain rfl : q = p.onQueue := by rw [← hon, hc]; rfl
    rw [h.row_of_opened (by rw [hc]; simp), hc]
    cases hq : p.onQueue <;> simp [Run.saysStarted, Run.Stage.hasStarted, Course.history, Course.opening, hq]
  | announce | stampStart | check | working | stampEnd | explain | close =>
    obtain ⟨j, q, hc⟩ : ∃ j q, c p.registerId = .started j q := hphase
    rw [h.row_of_opened (by rw [hc]; simp), hc]
    cases q <;> simp [Run.saysStarted, Run.Stage.hasStarted, Course.history, Course.running]
  | release | wake | report | leave | finished => exact absurd rfl hopen

/-- No register was open when the service began. -/
def NoneOpen (table : LogTable) (start : Rows) : Prop := ∀ id, start table id ≠ some .start ∧
    start table id ≠ some .onQueue

theorem mem_live_of_open (h : Courses table start s c) (none : NoneOpen table start) {id : RegisterId}
    (hopen : RowStorage.rows s.shared.storage table id = some .start ∨
      RowStorage.rows s.shared.storage table id = some .onQueue) : ∃ p ∈ s.live, p.registerId = id := by
  have hid : c id ≠ .unopened := fun hno => by
    have hrow : RowStorage.rows s.shared.storage table id = start table id := by
      rw [h.legible.rows, h.history, hno]
      rfl
    rw [hrow] at hopen
    exact hopen.elim (none id).1 (none id).2
  rw [h.row_of_opened hid, (c id).last_open, h.isLive_iff] at hopen
  exact List.mem_map.mp hopen

theorem row_of_sayingStarted (h : Courses table start s c) {p : Package} (hp : p ∈ s.sayingStarted) :
    RowStorage.rows s.shared.storage table p.registerId = some .start := by
  rcases mem_sayingStarted.mp hp with ⟨hp, hq⟩ | ⟨r, hr, hsaid, hpr⟩
  · rw [h.row_of_undispatched hp, hq]
    rfl
  · rw [h.row_of_run hr hpr, hsaid]
    rfl

theorem row_of_sayingQueued (h : Courses table start s c) {p : Package} (hp : p ∈ s.sayingQueued) :
    RowStorage.rows s.shared.storage table p.registerId = some .onQueue := by
  rcases mem_sayingQueued.mp hp with ⟨hp, hq⟩ | ⟨r, hr, hsaid, hpr⟩
  · rw [h.row_of_undispatched hp, hq]
    rfl
  · rw [h.row_of_run hr hpr, hsaid]
    rfl

theorem row_start_iff (h : Courses table start s c) (none : NoneOpen table start) (id : RegisterId) :
    RowStorage.rows s.shared.storage table id = some .start ↔ id ∈ s.sayingStarted.map (·.registerId) := by
  constructor
  · intro hrow
    obtain ⟨p, hp, rfl⟩ := h.mem_live_of_open none (Or.inl hrow)
    rcases saying_of_live hp with hp | hp
    · exact List.mem_map_of_mem hp
    · rw [h.row_of_sayingQueued hp] at hrow
      cases hrow
  · intro hid
    obtain ⟨p, hp, rfl⟩ := List.mem_map.mp hid
    exact h.row_of_sayingStarted hp

theorem row_onQueue_iff (h : Courses table start s c) (none : NoneOpen table start) (id : RegisterId) :
    RowStorage.rows s.shared.storage table id = some .onQueue ↔ id ∈ s.sayingQueued.map (·.registerId) := by
  constructor
  · intro hrow
    obtain ⟨p, hp, rfl⟩ := h.mem_live_of_open none (Or.inr hrow)
    rcases saying_of_live hp with hp | hp
    · rw [h.row_of_sayingStarted hp] at hrow
      cases hrow
    · exact List.mem_map_of_mem hp
  · intro hid
    obtain ⟨p, hp, rfl⟩ := List.mem_map.mp hid
    exact h.row_of_sayingQueued hp

/-- Those that say that they were started are the registers of the runs, and those that say that they are queued the
registers of packages that were not dispatched, exactly if every register tells whether its package was dispatched. -/
theorem tellsDispatched_iff (h : Courses table start s c) (none : NoneOpen table start) :
    ((∀ id, RowStorage.rows s.shared.storage table id = some .start ↔ id ∈ s.inRuns.map (·.registerId)) ∧
      ∀ id, RowStorage.rows s.shared.storage table id = some .onQueue ↔ id ∈ s.undispatched.map (·.registerId)) ↔
      s.TellsDispatched := by
  constructor
  · rintro ⟨hstarted, hqueued⟩
    refine ⟨fun p hp => ?_, fun r hr hopen => ?_⟩
    · have hrow := (hqueued p.registerId).mpr (List.mem_map_of_mem hp)
      rw [h.row_of_undispatched hp] at hrow
      cases hq : p.onQueue with
      | true => rfl
      | false =>
        rw [hq] at hrow
        cases hrow
    · have hheld : r.package ∈ r.held := by simp [Run.held, hopen]
      have hrow := (hstarted r.package.registerId).mpr
        (List.mem_map_of_mem (List.mem_flatMap.mpr ⟨r, hr, hheld⟩))
      rw [h.row_of_run hr hheld] at hrow
      cases hsaid : r.saysStarted with
      | true => rfl
      | false =>
        rw [hsaid] at hrow
        cases hrow
  · intro htells
    refine ⟨fun id => (h.row_start_iff none id).trans ?_, fun id => (h.row_onQueue_iff none id).trans ?_⟩
    · simp only [List.mem_map, htells.started_iff]
    · simp only [List.mem_map, htells.queued_iff]

/-- What becomes of a register when the log is opened again. -/
theorem reopened (h : Courses table start s c) {name : String} {repaired : σ}
    (again : Logger.opened name s.shared.storage.storage = (.ok ⟨some table⟩, repaired)) :
    let row := RowStorage.rows s.shared.storage
    let row' := RowStorage.rows repaired
    (∀ id, row' table id = some .interrupted ∧ row table id ≠ some .interrupted ↔ row table id = some .start) ∧
    (∀ id, row' table id = some .notExecuted ∧ row table id ≠ some .notExecuted ↔ row table id = some .onQueue) ∧
    (∀ id, ¬ (row table id = some .start ∨ row table id = some .onQueue) → row' table id = row table id) ∧
    ∀ other, other ≠ table → row' other = row other := by
  intro row row'
  have hsound : RowStorage.Sound s.shared.storage.storage := h.legible.sound
  obtain ⟨hrows, hothers⟩ := Logger.rows_opened hsound again
  refine ⟨fun id => ?_, fun id => ?_, fun id hclosed => ?_, hothers⟩
  · rw [show row' table id = _ from hrows id]
    exact Status.repaired_interrupted (row table id)
  · rw [show row' table id = _ from hrows id]
    exact Status.repaired_notExecuted (row table id)
  · exact (hrows id).trans (Status.repaired_closed hclosed)

end Courses

/-- As long as no call of the storage has failed and nobody has selected other log tables, the service may end at any
moment. Whoever opens its log again marks as interrupted the registers that say that they were started: those of
packages that were not dispatched and did not have to wait, and those of runs whose packages did not have to wait or
whose registers are marked already. The registers that say that they are queued are marked as not executed: those of
packages that were not dispatched and had to wait, and those of runs that have not marked them yet. All others, and all
of other tables, keep their statuses. So the marks tell what was dispatched exactly if every register told so. -/
theorem reopened_by_what_registers_say (kind : ServiceKind) (instanceId cores workers : Nat) (registry : Registry)
    {name : String} {table : LogTable} {before storage : σ} (sound : RowStorage.Sound before)
    (opened : Logger.opened name before = (.ok ⟨some table⟩, storage)) {moves : List Move}
    (stays : ∀ m ∈ moves, m.isSelect = false)
    (ok : ((journaled kind instanceId cores workers ⟨some table⟩ registry storage).after
      moves).shared.storage.failures = [])
    {repaired : σ} (again : Logger.opened name
      ((journaled kind instanceId cores workers ⟨some table⟩ registry storage).after moves).shared.storage.storage =
        (.ok ⟨some table⟩, repaired)) :
    let s := (journaled kind instanceId cores workers ⟨some table⟩ registry storage).after moves
    let row := RowStorage.rows s.shared.storage table
    let row' := RowStorage.rows repaired table
    let marks := fun id status => row' id = some status ∧ row id ≠ some status
    (∀ id, marks id .interrupted ↔ id ∈ s.sayingStarted.map (·.registerId)) ∧
    (∀ id, marks id .notExecuted ↔ id ∈ s.sayingQueued.map (·.registerId)) ∧
    (∀ id, id ∉ s.live.map (·.registerId) → row' id = row id) ∧
    (∀ other, other ≠ table → RowStorage.rows repaired other = RowStorage.rows s.shared.storage other) ∧
    (((∀ id, marks id .interrupted ↔ id ∈ s.inRuns.map (·.registerId)) ∧
      ∀ id, marks id .notExecuted ↔ id ∈ s.undispatched.map (·.registerId)) ↔ s.TellsDispatched) := by
  have hs := onCourse_after kind instanceId cores workers registry (Logger.sound_opened sound opened) table stays
  obtain ⟨c, hc⟩ := hs.courses ok
  have hnone : Courses.NoneOpen table (RowStorage.rows storage) := Logger.none_open_of_opened sound opened
  obtain ⟨hinterrupted, hnotExecuted, hclosed, hothers⟩ := hc.reopened again
  refine ⟨fun id => (hinterrupted id).trans (hc.row_start_iff hnone id),
    fun id => (hnotExecuted id).trans (hc.row_onQueue_iff hnone id),
    fun id hid => hclosed id fun hopen => ?_, hothers, ?_⟩
  · obtain ⟨p, hp, rfl⟩ := hc.mem_live_of_open hnone hopen
    exact hid (List.mem_map_of_mem hp)
  · rw [← hc.tellsDispatched_iff hnone]
    exact and_congr (forall_congr' fun id => iff_congr (hinterrupted id) .rfl)
      (forall_congr' fun id => iff_congr (hnotExecuted id) .rfl)

/-- A process is requested in a service that was not launched: nothing was dispatched. -/
def requestAlone : List Move := .request 1 .epoch :: List.replicate 8 (.admission 0 .epoch)

theorem reopened_by_what_registers_say_of_requestAlone :
    Logger.opened "log" ({} : Memory) = (.ok ⟨some soloTable⟩, soloLog) ∧
      (∀ m ∈ requestAlone, m.isSelect = false) ∧
      let s := (journaled .collector 1 4 2 ⟨some soloTable⟩ soloRegistry soloLog).after requestAlone
      let repaired := (Logger.opened "log" s.shared.storage.storage).2
      s.shared.storage.failures = [] ∧
        Logger.opened "log" s.shared.storage.storage = (.ok ⟨some soloTable⟩, repaired) ∧
        s.runs.length = 0 ∧ s.undispatched.map (·.registerId) = [1] ∧ ¬ s.TellsDispatched ∧
        RowStorage.rows repaired soloTable 1 = some .interrupted := by
  have opened : Logger.opened "log" ({} : Memory) = (.ok ⟨some soloTable⟩, soloLog) := by rfl
  have stays : ∀ m ∈ requestAlone, m.isSelect = false := by decide
  have ok : ((journaled .collector 1 4 2 ⟨some soloTable⟩ soloRegistry soloLog).after
    requestAlone).shared.storage.failures =
      [] := by decide +kernel
  have again : Logger.opened "log"
      ((journaled .collector 1 4 2 ⟨some soloTable⟩ soloRegistry soloLog).after requestAlone).shared.storage.storage =
        (.ok ⟨some soloTable⟩, (Logger.opened "log" ((journaled .collector 1 4 2 ⟨some soloTable⟩ soloRegistry
          soloLog).after requestAlone).shared.storage.storage).2) := by rfl
  have h := reopened_by_what_registers_say .collector 1 4 2 soloRegistry Memory.sound_empty opened stays ok again
  have hmarked := (h.1 1).mpr (by decide +kernel)
  refine ⟨opened, stays, ok, again, by decide +kernel, by decide +kernel, fun htells => ?_, hmarked.1⟩
  have hruns := ((h.2.2.2.2.mpr htells).1 1).mp hmarked
  revert hruns
  decide +kernel

end

end Activities

end ProcessRuns
