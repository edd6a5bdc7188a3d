import ProcessRuns.Proofs.Activities.Courses

/-! # What the log says of the packages

Read off the courses of the registers: the open registers are those of the packages that somebody has in hand, and
each register has the history that its package had. -/

namespace ProcessRuns

/-- Statuses that a register ends with. -/
def Status.isFinal : Status → Bool
  | .done | .error | .notExecuted => true
  | _ => false

namespace Course

/-- Somebody still has to close the register. -/
def isLive : Course → Bool
  | admitted _ _ | queued _ | dispatched _ _ | started _ _ | stripped _ _ => true
  | unopened | ended _ _ _ | dropped _ _ => false

/-- A register is opened and may be marked and started; after that it is closed at most once, by the run or by the
removal that has its package. -/
theorem history_shape (x : Course) : ∃ work closing, x.history = work ++ closing ∧
    work <+: [.start, .onQueue, .start] ∧
    (x ≠ .unopened → work ≠ []) ∧
    (closing = [] ∨ (closing = [.done] ∨ closing = [.error]) ∧ (∃ i, x.place = .run i) ∨
      closing = [.notExecuted] ∧ ∃ i, x.removal? = some i) := by
  have hopening : ∀ q, opening q <+: [.start, .onQueue, .start] ∧ opening q ≠ [] := by decide
  have hrunning : ∀ q, running q <+: [.start, .onQueue, .start] ∧ running q ≠ [] := by decide
  cases x with
  | unopened => exact ⟨[], [], rfl, List.nil_prefix, fun hno => absurd rfl hno, Or.inl rfl⟩
  | admitted i q | queued q | dispatched i q | stripped i q =>
    exact ⟨opening q, [], (List.append_nil _).symm, (hopening q).1, fun _ => (hopening q).2, Or.inl rfl⟩
  | started i q => exact ⟨running q, [], (List.append_nil _).symm, (hrunning q).1, fun _ => (hrunning q).2, Or.inl rfl⟩
  | ended i q failed =>
    refine ⟨running q, _, rfl, (hrunning q).1, fun _ => (hrunning q).2, Or.inr (Or.inl ⟨?_, i, rfl⟩)⟩
    cases failed
    · exact Or.inl rfl
    · exact Or.inr rfl
  | dropped i q =>
    exact ⟨opening q, _, rfl, (hopening q).1, fun _ => (hopening q).2, Or.inr (Or.inr ⟨rfl, i, rfl⟩)⟩

theorem not_dropped_of_run {x : Course} {i : Nat} (h : x.place = .run i) :
    .notExecuted ∉ x.history ∧ x.removal? = none := by
  cases x with
  | dispatched j q | started j q => cases q <;> exact ⟨by simp [history, opening, running], rfl⟩
  | ended j q failed => cases q <;> cases failed <;> exact ⟨by simp [history, running], rfl⟩
  | unopened | admitted | queued | stripped | dropped => cases h

/-- Nothing is written to a register that was closed. -/
theorem final_last (x : Course) : ∀ status ∈ x.history.dropLast, status.isFinal = false := by
  have hopening : ∀ q, ∀ status ∈ opening q, status.isFinal = false := by decide
  have hrunning : ∀ q, ∀ status ∈ running q, status.isFinal = false := by decide
  intro status hstatus
  cases x with
  | unopened => cases hstatus
  | admitted i q | queued q | dispatched i q | stripped i q =>
    exact hopening q status ((List.dropLast_sublist _).subset hstatus)
  | started i q => exact hrunning q status ((List.dropLast_sublist _).subset hstatus)
  | ended i q failed =>
    rw [history, List.dropLast_concat] at hstatus
    exact hrunning q status hstatus
  | dropped i q =>
    rw [history, List.dropLast_concat] at hstatus
    exact hopening q status hstatus

theorem history_of_final {x y : Course} {status : Status} (last : x.history.getLast? = some status)
    (final : status.isFinal = true) (grows : x.history <+: y.history) : y.history = x.history := by
  obtain ⟨rest, hrest⟩ := grows
  obtain ⟨before, hbefore⟩ := List.getLast?_eq_some_iff.mp last
  cases rest with
  | nil => rw [← hrest, List.append_nil]
  | cons next rest =>
    have hmem : status ∈ y.history.dropLast := by
      rw [← hrest, hbefore, List.dropLast_append_of_ne_nil (List.cons_ne_nil _ _)]
      exact List.mem_append_left _ (List.mem_append_right _ (List.mem_singleton.mpr rfl))
    rw [y.final_last status hmem] at final
    cases final

theorem last_open (x : Course) : (x.history.getLast? = some .start ∨ x.history.getLast? = some .onQueue) ↔
    x.isLive = true := by
  cases x with
  | unopened => simp [history, isLive]
  | ended i q failed => cases failed <;> simp [history, isLive]
  | dropped i q => simp [history, isLive]
  | admitted i q | queued q | dispatched i q | started i q | stripped i q =>
    cases q <;> simp [history, opening, running, isLive]

end Course

namespace Run

/-- The run has closed its register. -/
def Stage.isClosed : Stage → Bool
  | release _ | wake _ | report _ | leave | finished => true
  | _ => false

/-- The run has marked its register as started, if that was to be done, and did not close it yet. -/
def Stage.hasStarted : Stage → Bool
  | announce | stampStart | check | working | stampEnd _ | explain _ | close _ => true
  | _ => false

/-- The packages whose registers a run has still to close. -/
def held (r : Run) : List Package := if r.stage.isClosed then [] else [r.package]

end Run

namespace Activities

section
variable {σ : Type} {s : Activities σ} {c : RegisterId → Course}

/-- The packages whose registers somebody still has to close. -/
def live (s : Activities σ) : List Package :=
  s.admissions.flatMap (·.held) ++ s.shared.scheduler.packages ++ s.runs.flatMap (·.held) ++ s.removals.flatMap (·.held)

/-- Lists that belong to different places have no register in common. -/
theorem nodup_ids_flatMap {α : Type} {list : List α} {held : α → List Package} {place : Nat → Place}
    (apart : ∀ i j, place i = place j → i = j)
    (at_place : ∀ (i : Nat) (a : α), list[i]? = some a →
      ((held a).map (·.registerId)).Nodup ∧ ∀ p ∈ held a, (c p.registerId).place = place i) :
    ((list.flatMap held).map (·.registerId)).Nodup := by
  rw [List.map_flatMap, List.nodup_flatMap]
  constructor
  · intro a ha
    obtain ⟨i, hi⟩ := List.mem_iff_getElem?.mp ha
    exact (at_place i a hi).1
  · refine List.pairwise_iff_getElem.mpr fun i j hi hj hij => ?_
    intro id hid hid'
    obtain ⟨p, hp, rfl⟩ := List.mem_map.mp hid
    obtain ⟨q, hq, hqp⟩ := List.mem_map.mp hid'
    have hp := (at_place i _ (List.getElem?_eq_getElem hi)).2 p hp
    have hq := (at_place j _ (List.getElem?_eq_getElem hj)).2 q hq
    rw [hqp, hp] at hq
    exact Nat.ne_of_lt hij (apart i j hq)

end

section
variable {σ : Type} [Storage σ] [RowStorage σ] {s : Activities (Journaled σ)} {table : LogTable} {start : Rows}
  {c : RegisterId → Course}

namespace Courses

theorem place_held (h : Courses table start s c) {i : Nat} {r : Run} (here : s.runs[i]? = some r) :
    (r.held.map (·.registerId)).Nodup ∧ ∀ p ∈ r.held, (c p.registerId).place = .run i := by
  rw [Run.held]
  split
  · exact ⟨List.nodup_nil, fun p hp => by cases hp⟩
  · refine ⟨by simp, fun p hp => ?_⟩
    rw [List.mem_singleton.mp hp]
    exact (h.place_run here).1

theorem place_live (h : Courses table start s c) :
    (∀ p ∈ s.admissions.flatMap (·.held), ∃ i, (c p.registerId).place = .admission i) ∧
    (∀ p ∈ s.shared.scheduler.packages, (c p.registerId).place = .queues) ∧
    (∀ p ∈ s.runs.flatMap (·.held), ∃ i, (c p.registerId).place = .run i) ∧
    (∀ p ∈ s.removals.flatMap (·.held), ∃ i, (c p.registerId).place = .removal i) := by
  refine ⟨fun p hp => ?_, fun p hp => (h.placed.here .queues p hp).1, fun p hp => ?_, fun p hp => ?_⟩
  · obtain ⟨a, ha, hpa⟩ := List.mem_flatMap.mp hp
    obtain ⟨i, hi⟩ := List.mem_iff_getElem?.mp ha
    exact ⟨i, (h.placed.here (.admission i) p (by rwa [heldAt_admission hi])).1⟩
  · obtain ⟨r, hr, hpr⟩ := List.mem_flatMap.mp hp
    obtain ⟨i, hi⟩ := List.mem_iff_getElem?.mp hr
    exact ⟨i, (h.place_held hi).2 p hpr⟩
  · obtain ⟨r, hr, hpr⟩ := List.mem_flatMap.mp hp
    obtain ⟨i, hi⟩ := List.mem_iff_getElem?.mp hr
    exact ⟨i, (h.placed.here (.removal i) p (by rwa [heldAt_removal hi])).1⟩

theorem nodup_live (h : Courses table start s c) : (s.live.map (·.registerId)).Nodup := by
  obtain ⟨hadmissions, hqueues, hruns, hremovals⟩ := h.place_live
  have hA : ((s.admissions.flatMap (·.held)).map (·.registerId)).Nodup :=
    nodup_ids_flatMap (c := c) (fun _ _ => Place.admission.inj) fun i a ha => by
      have hd := h.placed.distinct (.admission i)
      have hp := h.placed.here (.admission i)
      rw [heldAt_admission ha] at hd hp
      exact ⟨hd, fun p hpa => (hp p hpa).1⟩
  have hC : ((s.runs.flatMap (·.held)).map (·.registerId)).Nodup :=
    nodup_ids_flatMap (c := c) (fun _ _ => Place.run.inj) fun i r hr => h.place_held hr
  have hD : ((s.removals.flatMap (·.held)).map (·.registerId)).Nodup :=
    nodup_ids_flatMap (c := c) (fun _ _ => Place.removal.inj) fun i r hr => by
      have hd := h.placed.distinct (.removal i)
      have hp := h.placed.here (.removal i)
      rw [heldAt_removal hr] at hd hp
      exact ⟨hd, fun p hpr => (hp p hpr).1⟩
  -- Within each kind of place nothing is twice; between two kinds, the course of a register names one place.
  rw [live, List.map_append, List.map_append, List.map_append]
  refine List.nodup_append.mpr ⟨List.nodup_append.mpr ⟨List.nodup_append.mpr ⟨hA, h.placed.distinct .queues, ?_⟩,
    hC, ?_⟩,
    hD, ?_⟩ <;> rintro id hid _ hid' rfl <;> obtain ⟨q, hq, hqid⟩ := List.mem_map.mp hid'
  · obtain ⟨p, hp, rfl⟩ := List.mem_map.mp hid
    obtain ⟨i, hi⟩ := hadmissions p hp
    have hplace := hqueues q hq
    rw [hqid, hi] at hplace
    cases hplace
  · obtain ⟨j, hj⟩ := hruns q hq
    rw [hqid] at hj
    rcases List.mem_append.mp hid with hid | hid <;> obtain ⟨p, hp, rfl⟩ := List.mem_map.mp hid
    · obtain ⟨i, hi⟩ := hadmissions p hp
      rw [hi] at hj
      cases hj
    · rw [hqueues p hp] at hj
      cases hj
  · obtain ⟨j, hj⟩ := hremovals q hq
    rw [hqid] at hj
    rcases List.mem_append.mp hid with hid | hid
    · rcases List.mem_append.mp hid with hid | hid <;> obtain ⟨p, hp, rfl⟩ := List.mem_map.mp hid
      · obtain ⟨i, hi⟩ := hadmissions p hp
        rw [hi] at hj
        cases hj
      · rw [hqueues p hp] at hj
        cases hj
    · obtain ⟨p, hp, rfl⟩ := List.mem_map.mp hid
      obtain ⟨i, hi⟩ := hruns p hp
      rw [hi] at hj
      cases hj

theorem isLive_run (h : Courses table start s c) {i : Nat} {r : Run} (here : s.runs[i]? = some r) :
    (c r.package.registerId).isLive = !r.stage.isClosed := by
  have hphase := h.phases i r here
  obtain ⟨p, logger, stage⟩ := r
  cases stage with
  | takeLog | mark | announce | stampStart | check | working | stampEnd | explain | close =>
    obtain ⟨j, q, hc⟩ := hphase
    rw [hc]
    rfl
  | release | wake | report | leave | finished =>
    obtain ⟨j, q, failed, hc⟩ := hphase
    rw [hc]
    rfl

theorem isLive_of_mem (h : Courses table start s c) {p : Package} (hp : p ∈ s.live) :
    (c p.registerId).isLive = true := by
  obtain ⟨hadmissions, hqueues, -, hremovals⟩ := h.place_live
  rcases List.mem_append.mp hp with hp | hp
  · rcases List.mem_append.mp hp with hp | hp
    · rcases List.mem_append.mp hp with hp | hp
      · obtain ⟨i, hi⟩ := hadmissions p hp
        rw [Course.eq_admitted hi]
        rfl
      · rw [Course.eq_queued (hqueues p hp)]
        rfl
    · obtain ⟨r, hr, hpr⟩ := List.mem_flatMap.mp hp
      obtain ⟨i, hi⟩ := List.mem_iff_getElem?.mp hr
      rw [Run.held] at hpr
      split at hpr
      · cases hpr
      · rename_i hopen
        rw [List.mem_singleton.mp hpr, h.isLive_run hi]
        simpa using hopen
  · obtain ⟨i, hi⟩ := hremovals p hp
    rw [Course.eq_stripped hi]
    rfl

theorem isLive_iff (h : Courses table start s c) (id : RegisterId) :
    (c id).isLive = true ↔ id ∈ s.live.map (·.registerId) := by
  constructor
  · intro hlive
    have hthere : ∀ place, (c id).place = place → place ≠ .nowhere → ∃ p ∈ s.heldAt place,
        p.registerId = id := by
      rintro place rfl hno
      obtain ⟨p, hp, hid⟩ := List.mem_map.mp (h.placed.there id hno)
      exact ⟨p, hp, hid⟩
    have hrun : ∀ i, (c id).place = .run i → id ∈ s.live.map (·.registerId) := fun i hi => by
      obtain ⟨p, hp, rfl⟩ := hthere _ hi (by simp)
      obtain ⟨r, hr, rfl⟩ := mem_heldAt_run hp
      have hheld : r.package ∈ r.held := by
        rw [h.isLive_run hr] at hlive
        rw [Run.held, if_neg (by simpa using hlive)]
        exact List.mem_singleton.mpr rfl
      exact List.mem_map_of_mem (List.mem_append_left _ (List.mem_append_right _
        (List.mem_flatMap.mpr ⟨r, List.mem_of_getElem? hr, hheld⟩)))
    -- The course says where the package is, and there is somebody there who holds it.
    cases hc : c id with
    | unopened | ended | dropped =>
      rw [hc] at hlive
      cases hlive
    | admitted i q =>
      obtain ⟨p, hp, rfl⟩ := hthere (.admission i) (by rw [hc]; rfl) (by simp)
      obtain ⟨a, ha, hpa⟩ := mem_heldAt_admission hp
      exact List.mem_map_of_mem (List.mem_append_left _ (List.mem_append_left _ (List.mem_append_left _
        (List.mem_flatMap.mpr ⟨a, List.mem_of_getElem? ha, hpa⟩))))
    | queued q =>
      obtain ⟨p, hp, rfl⟩ := hthere .queues (by rw [hc]; rfl) (by simp)
      exact List.mem_map_of_mem (List.mem_append_left _ (List.mem_append_left _ (List.mem_append_right _ hp)))
    | dispatched i q => exact hrun i (by rw [hc]; rfl)
    | started i q => exact hrun i (by rw [hc]; rfl)
    | stripped i q =>
      obtain ⟨p, hp, rfl⟩ := hthere (.removal i) (by rw [hc]; rfl) (by simp)
      obtain ⟨r, hr, hpr⟩ := mem_heldAt_removal hp
      exact List.mem_map_of_mem (List.mem_append_right _ (List.mem_flatMap.mpr ⟨r, List.mem_of_getElem? hr, hpr⟩))
  · intro hid
    obtain ⟨p, hp, rfl⟩ := List.mem_map.mp hid
    exact h.isLive_of_mem hp

theorem row_of_opened (h : Courses table start s c) {id : RegisterId} (hid : c id ≠ .unopened) :
    RowStorage.rows s.shared.storage table id = (c id).history.getLast? := by
  have hne : (c id).history ≠ [] := fun hnil => hid (Course.eq_unopened hnil)
  rw [h.legible.rows, h.history, List.getLast?_eq_getLast_of_ne_nil hne]
  rfl

end Courses

/-- As long as no call of the storage has failed and nobody has selected other log tables, the open registers of the
log are those of the packages that somebody has in hand, each of one package; and the status of an open register
says where its package is. -/
theorem open_registers_are_in_hand (kind : ServiceKind) (instanceId cores workers : Nat) (registry : Registry)
    {name : String} {table : LogTable} {before storage : σ} (sound : RowStorage.Sound before)
    (opened : Logger.opened name before = (.ok ⟨some table⟩, storage)) {moves : List Move}
    (stays : ∀ m ∈ moves, m.isSelect = false)
    (ok : ((journaled kind instanceId cores workers ⟨some table⟩ registry storage).after
      moves).shared.storage.failures = []) :
    let s := (journaled kind instanceId cores workers ⟨some table⟩ registry storage).after moves
    let row := RowStorage.rows s.shared.storage table
    (s.live.map (·.registerId)).Nodup ∧
    (∀ id, (row id = some .start ∨ row id = some .onQueue) ↔ id ∈ s.live.map (·.registerId)) ∧
    (∀ pid, ∀ p ∈ s.shared.scheduler.waitQueue pid, p.onQueue = true ∧ row p.registerId = some .onQueue) ∧
    (∀ p ∈ s.shared.scheduler.queued, row p.registerId = some (if p.onQueue then .onQueue else .start)) ∧
    ∀ r ∈ s.runs, r.stage.hasStarted = true → row r.package.registerId = some .start := by
  intro s row
  have hs := onCourse_after kind instanceId cores workers registry (Logger.sound_opened sound opened) table stays
  obtain ⟨c, hc⟩ := hs.courses ok
  have hqueued : ∀ p ∈ s.shared.scheduler.packages, row p.registerId =
      some (if p.onQueue then .onQueue else .start) := by
    intro p hp
    have hat := hc.placed.here .queues p hp
    have hcourse : c p.registerId = .queued p.onQueue := hat.2 ▸ Course.eq_queued hat.1
    rw [show row p.registerId = _ from hc.row_of_opened (by rw [hcourse]; simp), hcourse]
    cases p.onQueue <;> rfl
  refine ⟨hc.nodup_live, fun id => ?_, fun pid p hp => ?_, fun p hp => ?_, fun r hr hstarted => ?_⟩
  · rw [← hc.isLive_iff]
    by_cases hid : c id = .unopened
    · -- The rows that were there before have been closed when the log was opened.
      have hclosed := Logger.none_open_of_opened sound opened id
      have hrow : row id = RowStorage.rows storage table id := by
        rw [show row id = _ from hc.legible.rows table id, hc.history, hid]
        rfl
      rw [hrow, hid]
      exact ⟨fun hopen => (hopen.elim hclosed.1 hclosed.2).elim, fun hno => by cases hno⟩
    · rw [show row id = _ from hc.row_of_opened hid]
      exact (c id).last_open
  · have hmark := hs.orderly.waiting pid p hp
    refine ⟨hmark, ?_⟩
    rw [hqueued p (Scheduler.mem_packages_of_waiting hp), hmark]
    rfl
  · exact hqueued p (List.mem_append_left _ hp)
  · obtain ⟨i, hi⟩ := List.mem_iff_getElem?.mp hr
    have hphase := hc.phases i r hi
    obtain ⟨j, q, hcourse⟩ : ∃ j q, c r.package.registerId = .started j q := by
      cases hstage : r.stage <;> rw [hstage] at hphase hstarted <;> first | exact hphase | cases hstarted
    rw [show row r.package.registerId = _ from hc.row_of_opened (by rw [hcourse]; simp), hcourse]
    cases q <;> rfl

theorem open_registers_are_in_hand_of_secondRequest :
    Logger.opened "log" ({} : Memory) = (.ok ⟨some soloTable⟩, soloLog) ∧
      (∀ m ∈ secondRequest, m.isSelect = false) ∧
      let s := (journaled .collector 1 4 2 ⟨some soloTable⟩ soloRegistry soloLog).after secondRequest
      s.shared.storage.failures = [] ∧ s.live.map (·.registerId) = [2, 1] ∧
        ∀ id, (RowStorage.rows s.shared.storage soloTable id = some .start ∨
          RowStorage.rows s.shared.storage soloTable id = some .onQueue) ↔ id ∈ [2, 1] := by
  have opened : Logger.opened "log" ({} : Memory) = (.ok ⟨some soloTable⟩, soloLog) := by rfl
  have stays : ∀ m ∈ secondRequest, m.isSelect = false := by decide
  have ok : ((journaled .collector 1 4 2 ⟨some soloTable⟩ soloRegistry soloLog).after
    secondRequest).shared.storage.failures =
      [] := by decide +kernel
  have hlive : ((journaled .collector 1 4 2 ⟨some soloTable⟩ soloRegistry soloLog).after secondRequest).live.map
      (·.registerId) = [2, 1] := by decide +kernel
  have h := open_registers_are_in_hand .collector 1 4 2 soloRegistry Memory.sound_empty opened stays ok
  exact ⟨opened, stays, ok, hlive, fun id => hlive ▸ h.2.1 id⟩

/-- A run past the release of its process has closed its register. -/
theorem Courses.final_of_released (h : Courses table start s c) {i : Nat} {r : Run} (here : s.runs[i]? = some r)
    (released : r.isUnderWay = false) :
    (c r.package.registerId).history.getLast? = some .done ∨
      (c r.package.registerId).history.getLast? = some .error := by
  have hphase := h.phases i r here
  obtain ⟨j, q, failed, hc⟩ : ∃ j q failed, c r.package.registerId = .ended j q failed := by
    obtain ⟨p, logger, stage⟩ := r
    cases stage <;> first | exact hphase | cases released
  rw [hc]
  cases failed <;> simp [Course.history]

theorem Courses.mem_stripped (h : Courses table start s c) (id : RegisterId) :
    (∃ i, (c id).removal? = some i) ↔ ∃ ts ∈ s.record.stripped, id ∈ ts.map (·.package.registerId) := by
  constructor
  · rintro ⟨i, hi⟩
    rw [h.stripped, Record.takenIds] at hi
    cases hts : s.record.stripped[i]? with
    | none =>
      rw [hts] at hi
      cases hi
    | some ts =>
      rw [hts] at hi
      exact ⟨ts, List.mem_of_getElem? hts, hi⟩
  · rintro ⟨ts, hts, hid⟩
    obtain ⟨i, hi⟩ := List.mem_iff_getElem?.mp hts
    refine ⟨i, (h.stripped id i).mpr ?_⟩
    rw [Record.takenIds, hi]
    exact hid

theorem Courses.ne_unopened (h : Courses table start s c) {id : RegisterId} (hid : id ∈ s.record.openedIds) :
    c id ≠ .unopened := by
  intro hno
  have hopen := (h.opened id).mpr hid
  rw [hno] at hopen
  cases hopen

theorem Courses.history_empty (h : Courses table start s c) {id : RegisterId} (hid : id ∉ s.record.openedIds) :
    (c id).history = [] := by
  have hclosed := mt (h.opened id).mp hid
  cases hx : c id <;> rw [hx] at hclosed <;> first | rfl | exact absurd rfl hclosed

/-- Who has closed a register that is closed. -/
theorem Courses.history_cases (h : Courses table start s c) {id : RegisterId} (hid : id ∈ s.record.openedIds) :
    ∃ work closing, (c id).history = work ++ closing ∧ work ≠ [] ∧ work <+: [.start, .onQueue, .start] ∧
      (closing = [] ∨
        (closing = [.done] ∨ closing = [.error]) ∧ (∃ r ∈ s.runs, r.package.registerId = id) ∨
        closing = [.notExecuted] ∧ ∃ ts ∈ s.record.stripped, id ∈ ts.map (·.package.registerId)) := by
  obtain ⟨work, closing, heq, hprefix, hne, hclosing⟩ := (c id).history_shape
  refine ⟨work, closing, heq, hne (h.ne_unopened hid), hprefix, ?_⟩
  rcases hclosing with hnone | ⟨hend, i, hplace⟩ | ⟨hdropped, i, hremoval⟩
  · exact Or.inl hnone
  · obtain ⟨q, hq, hqid⟩ := List.mem_map.mp (h.placed.there id (by rw [hplace]; simp))
    rw [hplace] at hq
    obtain ⟨r, hr, rfl⟩ := mem_heldAt_run hq
    exact Or.inr (Or.inl ⟨hend, r, List.mem_of_getElem? hr, hqid⟩)
  · exact Or.inr (Or.inr ⟨hdropped, (h.mem_stripped id).mp ⟨i, hremoval⟩⟩)

/-- As long as no call of the storage has failed, nobody has selected other log tables and only runs release their
processes, a register is opened, may be marked as queued and then as started, and is closed at most once: by its run
or by the removal that has taken its package out, never by both. A package is dispatched only when all registers of
its process that were dispatched before are closed. -/
theorem registers_have_one_history (kind : ServiceKind) (instanceId cores workers : Nat) (registry : Registry)
    {name : String} {table : LogTable} {before storage : σ} (sound : RowStorage.Sound before)
    (opened : Logger.opened name before = (.ok ⟨some table⟩, storage)) {moves : List Move}
    (stays : ∀ m ∈ moves, m.isSelect = false) (own : ∀ m ∈ moves, m.isRelease = false)
    (ok : ((journaled kind instanceId cores workers ⟨some table⟩ registry storage).after
      moves).shared.storage.failures = []) :
    let first := journaled kind instanceId cores workers ⟨some table⟩ registry storage
    let s := first.after moves
    let history := s.shared.storage.history table
    (∀ id, id ∉ s.record.openedIds → history id = []) ∧
    (∀ id ∈ s.record.openedIds, RowStorage.rows s.shared.storage table id = (history id).getLast?) ∧
    (∀ id ∈ s.record.openedIds, ∃ work closing, history id = work ++ closing ∧ work ≠ [] ∧
      work <+: [.start, .onQueue, .start] ∧
      (closing = [] ∨
        (closing = [.done] ∨ closing = [.error]) ∧ (∃ r ∈ s.runs, r.package.registerId = id) ∨
        closing = [.notExecuted] ∧ ∃ ts ∈ s.record.stripped, id ∈ ts.map (·.package.registerId))) ∧
    (∀ r ∈ s.runs, .notExecuted ∉ history r.package.registerId ∧
      ∀ ts ∈ s.record.stripped, r.package.registerId ∉ ts.map (·.package.registerId)) ∧
    (∀ done rest, moves = done ++ rest → ∀ id status,
      ((first.after done).shared.storage.history table id).getLast? = some status → status.isFinal = true →
        history id = (first.after done).shared.storage.history table id) ∧
    ∀ p, s.shared.loopStep.1 = some p → ∀ r ∈ s.runs, r.package.processId = p.processId →
      (history r.package.registerId).getLast? = some .done ∨ (history r.package.registerId).getLast? = some .error := by
  intro first s history
  have hsound := Logger.sound_opened sound opened
  have hs := onCourse_after kind instanceId cores workers registry hsound table stays
  obtain ⟨c, hc⟩ := hs.courses ok
  have hhistory : ∀ id, history id = (c id).history := hc.history
  refine ⟨?_, ?_, ?_, ?_, ?_, ?_⟩
  · intro id hid
    exact (hhistory id).trans (hc.history_empty hid)
  · intro id hid
    rw [hc.row_of_opened (hc.ne_unopened hid), hhistory]
  · intro id hid
    rw [hhistory]
    exact hc.history_cases hid
  · intro r hr
    obtain ⟨i, hi⟩ := List.mem_iff_getElem?.mp hr
    have hplace := (hc.place_run hi).1
    obtain ⟨hnot, hnone⟩ := Course.not_dropped_of_run hplace
    refine ⟨(hhistory _).symm ▸ hnot, fun ts hts hid => ?_⟩
    obtain ⟨j, hj⟩ := (hc.mem_stripped r.package.registerId).mpr ⟨ts, hts, hid⟩
    rw [hnone] at hj
    cases hj
  -- A status that ends a course is the last one of a history, and the history of the first moves begins that of all.
  · intro done rest hmoves id status last final
    have hstays : ∀ m ∈ done, m.isSelect = false := fun m hm => stays m (hmoves ▸ List.mem_append_left _ hm)
    have hs' := onCourse_after kind instanceId cores workers registry hsound table hstays
    have hcalls : Storage.Calls (first.after done).shared.storage s.shared.storage := by
      show Storage.Calls _ (first.after moves).shared.storage
      rw [hmoves, after_append]
      exact calls_after _ rest
    obtain ⟨c', hc'⟩ := hs'.courses (Journaled.calls_failures hcalls ok)
    have hgrows := Journaled.history_grows hcalls table id
    rw [hc'.history] at hgrows last ⊢
    rw [hc.history] at hgrows
    rw [hhistory]
    exact Course.history_of_final last final hgrows
  -- While a package is under way no other one of its process is dispatched, so this run has closed its register.
  · intro p hp r hr hpid
    obtain ⟨i, hi⟩ := List.mem_iff_getElem?.mp hr
    rw [hhistory]
    exact hc.final_of_released hi (not_underWay_of_dispatch (exclusive_after own (exclusive_start _ rfl)) hp hr hpid)

/-- After the second request the process is removed, and then the first run ends. -/
def removalBehindRun : List Move :=
  secondRequest ++ [.forget 1] ++ List.replicate 6 (.removal 0 .epoch) ++ List.replicate 5 (.run 0 .epoch) ++
    [.answer 0 (.done none [])] ++ List.replicate 8 (.run 0 .epoch)

theorem registers_have_one_history_of_removalBehindRun :
    Logger.opened "log" ({} : Memory) = (.ok ⟨some soloTable⟩, soloLog) ∧
      (∀ m ∈ removalBehindRun, m.isSelect = false) ∧ (∀ m ∈ removalBehindRun, m.isRelease = false) ∧
      let s := (journaled .collector 1 4 2 ⟨some soloTable⟩ soloRegistry soloLog).after removalBehindRun
      s.shared.storage.failures = [] ∧ s.shared.storage.history soloTable 1 = [.start, .done] ∧
        s.shared.storage.history soloTable 2 = [.start, .onQueue, .notExecuted] ∧
        RowStorage.rows s.shared.storage soloTable 2 = some .notExecuted := by
  have opened : Logger.opened "log" ({} : Memory) = (.ok ⟨some soloTable⟩, soloLog) := by rfl
  have stays : ∀ m ∈ removalBehindRun, m.isSelect = false := by decide
  have own : ∀ m ∈ removalBehindRun, m.isRelease = false := by decide
  have ok : ((journaled .collector 1 4 2 ⟨some soloTable⟩ soloRegistry soloLog).after
      removalBehindRun).shared.storage.failures = [] := by decide +kernel
  have hsecond : ((journaled .collector 1 4 2 ⟨some soloTable⟩ soloRegistry soloLog).after
      removalBehindRun).shared.storage.history soloTable 2 = [.start, .onQueue, .notExecuted] := by decide +kernel
  have h := registers_have_one_history .collector 1 4 2 soloRegistry Memory.sound_empty opened stays own ok
  refine ⟨opened, stays, own, ok, by decide +kernel, hsecond, (h.2.1 2 (by decide +kernel)).trans ?_⟩
  rw [hsecond]
  rfl

end

end Activities

end ProcessRuns
