import ProcessRuns.Proofs.Activities.OneLog
import ProcessRuns.Proofs.Activities.Transfers

/-! # How registers go on

As long as nobody selects other log tables and a new register has a number that none had, every step takes one register,
or the registers of the packages that a removal takes out, a step further on its course, and asks the storage for the
status that belongs to it. `Located.step` says so once for all moves; whether the storage did as it was asked is left to
those who look at the rows. -/

namespace ProcessRuns

namespace Course

/-- The register was opened. -/
def isOpened : Course → Bool
  | unopened => false
  | _ => true

/-- The removal that has taken the package out. -/
def removal? : Course → Option Nat
  | stripped i _ | dropped i _ => some i
  | _ => none

/-- How a register goes on that is not closed by its run, and the status that is asked for by then. -/
inductive Next : Course → Option Status → Course → Prop where
  | mark (i : Nat) : Next (admitted i false) (some .onQueue) (admitted i true)
  | publish (i : Nat) (q : Bool) : Next (admitted i q) none (queued q)
  | dispatch (i : Nat) (q : Bool) : Next (queued q) none (dispatched i q)
  /-- What did not have to wait is marked as started already. -/
  | start (i : Nat) : Next (dispatched i false) none (started i false)
  | restart (i : Nat) : Next (dispatched i true) (some .start) (started i true)
  | drop (i : Nat) (q : Bool) : Next (stripped i q) (some .notExecuted) (dropped i q)

variable {x y : Course} {status? : Option Status}

theorem Next.history (h : x.Next status? y) : y.history = x.history ++ status?.toList := by
  cases h with
  | mark | restart | drop => rfl
  | publish | dispatch | start => exact (List.append_nil _).symm

theorem Next.isOpened (h : x.Next status? y) : x.isOpened = true ∧ y.isOpened = true := by
  cases h <;> exact ⟨rfl, rfl⟩

theorem Next.removal? (h : x.Next status? y) : y.removal? = x.removal? := by
  cases h <;> rfl

theorem isOpened_of_run {i : Nat} (h : x.place = .run i) : x.isOpened = true ∧ x.removal? = none := by
  cases x <;> cases h <;> exact ⟨rfl, rfl⟩

end Course

namespace Record

/-- The registers that were opened, oldest first. -/
def openedIds (r : Record) : List RegisterId := r.opened.map (·.package.registerId)

/-- The registers that a removal took out. -/
def takenIds (r : Record) (i : Nat) : List RegisterId := (r.stripped[i]?).elim [] (·.map (·.package.registerId))

theorem takenIds_admitted (r : Record) (i : Nat) (a a' : Admission) : (r.admitted i a a').takenIds = r.takenIds := by
  unfold admitted
  split <;> rfl

theorem takenIds_concat (r : Record) (i : Nat) :
    ({ r with stripped := r.stripped ++ [[]] } : Record).takenIds i = r.takenIds i :=
  elim_concat (by rfl) i

end Record

namespace Activities.Recorded

variable {σ : Type} {s : Activities σ} {i : Nat} {pid : ProcessId}

/-- A removal that is about to take packages out has taken none out before. -/
theorem takenIds_empty (h : s.Recorded) (here : s.removals[i]? = some (.strip pid)) : s.record.takenIds i = [] := by
  rw [Record.takenIds]
  cases hts : s.record.stripped[i]? with
  | none => rfl
  | some ts => rw [Option.elim_some, List.map_eq_nil_iff.mp (h.stripped i _ ts here hts), List.map_nil]

theorem takenIds_strip [Storage σ] (h : s.Recorded) (here : s.removals[i]? = some (.strip pid))
    (now : Instant) (j : Nat) :
    (s.stepRemoval i (.strip pid) now).record.takenIds j =
      if j = i then (s.shared.scheduler.lineOf pid).map (·.registerId) else s.record.takenIds j := by
  have hi : i < s.record.stripped.length := by
    rw [h.removals]
    exact (List.getElem?_eq_some_iff.mp here).1
  show ((s.record.stripped.set i (s.record.pendingOf pid))[j]?).elim [] _ = _
  split
  · rename_i hj
    rw [hj, List.getElem?_set_self hi, Option.elim_some, ← h.pending, List.map_map]
    rfl
  · rename_i hj
    rw [List.getElem?_set_ne (Ne.symm hj)]
    rfl

end Activities.Recorded

theorem Ending.status_eq (e : Ending) : ∃ failed : Bool, e.status = if failed then .error else .done := by
  cases e with
  | done | noData => exact ⟨false, rfl⟩
  | failed => exact ⟨true, rfl⟩

/-- How far a run at this stage has come with its register. -/
def Run.Stage.At (course : Course) : Run.Stage → Prop
  | .takeLog | .mark => ∃ i q, course = .dispatched i q
  | .announce | .stampStart | .check | .working | .stampEnd _ | .explain _ | .close _ => ∃ i q, course = .started i q
  | .release _ | .wake _ | .report _ | .leave | .finished => ∃ i q failed, course = .ended i q failed

/-- The end of a run, and whether the log has taken it. -/
structure Closing where
  run : Nat
  package : Package
  ending : Ending
  time : Instant
  written : Bool

/-- What the step of a run to its end is. -/
def Run.closing? {σ : Type} [Storage σ] (r : Run) (i : Nat) (now : Instant) (s : Shared σ) : Option Closing :=
  match r.stage with
  | .close e => some ⟨i, r.package, e, now,
      (r.logger.result e.status (e.dataTimestamp now) r.package.registerId now s.storage).1.isOk⟩
  | _ => none

namespace Activities

variable {σ : Type} {s t : Activities σ} {m : Move} {l : Logger} {c : RegisterId → Course}

/-- Each register is as far on its course as the activities and the record say. -/
structure Located (s : Activities σ) (c : RegisterId → Course) : Prop where
  placed : s.Placed c
  phases : ∀ (i : Nat) (r : Run), s.runs[i]? = some r → r.stage.At (c r.package.registerId)
  opened : ∀ id, (c id).isOpened = true ↔ id ∈ s.record.openedIds
  stripped : ∀ id i, (c id).removal? = some i ↔ id ∈ s.record.takenIds i

theorem located_start (service : Service σ) (fresh : service.shared.scheduler = {}) :
    (ofService service).Located fun _ => .unopened where
  placed := by
    refine ⟨fun place p hp => ?_, fun _ hid => absurd rfl hid, fun place => ?_⟩
    · cases place with
      | queues =>
        have hp : p ∈ service.shared.scheduler.packages := hp
        rw [fresh] at hp
        cases hp
      | nowhere | admission | run | removal => cases hp
    · cases place with
      | queues =>
        show (service.shared.scheduler.packages.map (·.registerId)).Nodup
        rw [fresh]
        exact List.nodup_nil
      | nowhere | admission | run | removal => exact List.nodup_nil
  phases _ _ h := by cases h
  opened id := by simp [Course.isOpened, Record.openedIds, ofService]
  stripped id i := by simp [Course.removal?, Record.takenIds, ofService]

namespace Located

/-- Nobody has got or given a package. -/
theorem stay (h : s.Located c) (held : ∀ place, (t.heldAt place).Perm (s.heldAt place))
    (phases : ∀ (i : Nat) (r : Run), t.runs[i]? = some r → r.stage.At (c r.package.registerId))
    (opened : t.record.openedIds = s.record.openedIds) (stripped : t.record.takenIds = s.record.takenIds) :
    t.Located c where
  placed := h.placed.stay held fun _ => ⟨rfl, rfl⟩
  phases := phases
  opened := opened ▸ h.opened
  stripped := stripped ▸ h.stripped

/-- One register goes on, and no package is taken out. -/
theorem advance (h : s.Located c) {id : RegisterId} {x : Course} (placed : t.Placed (Function.update c id x))
    (phases : ∀ (i : Nat) (r : Run), t.runs[i]? = some r → r.stage.At (Function.update c id x r.package.registerId))
    (removal : x.removal? = (c id).removal?) (stripped : t.record.takenIds = s.record.takenIds)
    (opened : ∀ i, (Function.update c id x i).isOpened = true ↔ i ∈ t.record.openedIds) :
    t.Located (Function.update c id x) := by
  refine ⟨placed, phases, opened, fun i j => ?_⟩
  rw [stripped, ← h.stripped]
  by_cases hi : i = id
  · rw [hi, Function.update_self, removal]
  · rw [Function.update_of_ne hi]

theorem opened_update (h : s.Located c) {id : RegisterId} {x : Course} (isOpened : x.isOpened = (c id).isOpened)
    (same : t.record.openedIds = s.record.openedIds) (i : RegisterId) :
    (Function.update c id x i).isOpened = true ↔ i ∈ t.record.openedIds := by
  rw [same, ← h.opened]
  by_cases hi : i = id
  · rw [hi, Function.update_self, isOpened]
  · rw [Function.update_of_ne hi]

/-- Runs that have no part in where a register goes. -/
theorem phases_update (h : s.Located c) {id : RegisterId} {x : Course} {i : Nat} {r : Run} (here : s.runs[i]? = some r)
    (apart : (c id).place ≠ .run i) : r.stage.At (Function.update c id x r.package.registerId) := by
  have hne : r.package.registerId ≠ id := fun heq => apart (by
    rw [← heq]
    exact (h.placed.at_run here).1)
  rw [Function.update_of_ne hne]
  exact h.phases i r here

/-- A register goes on that is not with a run. -/
theorem goesOn (h : s.Located c) {id : RegisterId} {x : Course} {status? : Option Status}
    (next : (c id).Next status? x) (placed : t.Placed (Function.update c id x)) (runs : t.runs = s.runs)
    (apart : ∀ i, (c id).place ≠ .run i) (opened : t.record.openedIds = s.record.openedIds)
    (stripped : t.record.takenIds = s.record.takenIds) : t.Located (Function.update c id x) := by
  refine h.advance placed (fun j r hr => ?_) next.removal? stripped
    (h.opened_update (next.isOpened.2.trans next.isOpened.1.symm) opened)
  exact h.phases_update (runs ▸ hr) (apart j)

/-- A run that has not marked its register as started has it as it was dispatched. -/
theorem dispatched_of_run (h : s.Located c) {i : Nat} {r : Run} (here : s.runs[i]? = some r)
    (phase : ∃ j q, c r.package.registerId = .dispatched j q) :
    c r.package.registerId = .dispatched i r.package.onQueue := by
  obtain ⟨j, q, hc⟩ := phase
  have hat := h.placed.at_run here
  rw [hc] at hat ⊢
  obtain ⟨hplace, rfl⟩ := hat
  cases hplace
  rfl

theorem started_of_run (h : s.Located c) {i : Nat} {r : Run} (here : s.runs[i]? = some r)
    (phase : ∃ j q, c r.package.registerId = .started j q) : c r.package.registerId = .started i r.package.onQueue := by
  obtain ⟨j, q, hc⟩ := phase
  have hat := h.placed.at_run here
  rw [hc] at hat ⊢
  obtain ⟨hplace, rfl⟩ := hat
  cases hplace
  rfl

/-- What is pending of a process is taken out, and its registers with it. -/
theorem taken_cases (h : s.Located c) (hr : s.Recorded) (i : Nat) (pid : ProcessId) (id : RegisterId) :
    (id ∈ (s.shared.scheduler.lineOf pid).map (·.registerId) ∧
      ∃ q, c id = .queued q ∧ Placed.taken s c i pid id = .stripped i q) ∨
    (id ∉ (s.shared.scheduler.lineOf pid).map (·.registerId) ∧ Placed.taken s c i pid id = c id) := by
  by_cases hid : id ∈ (s.shared.scheduler.lineOf pid).map (·.registerId)
  · obtain ⟨p, hp, rfl⟩ := List.mem_map.mp hid
    have hcourse := h.placed.at_line hr hp
    refine Or.inl ⟨hid, p.onQueue, hcourse, ?_⟩
    rw [Placed.taken, if_pos hid, hcourse]
    rfl
  · exact Or.inr ⟨hid, if_neg hid⟩

end Located

section
variable [Storage σ]

/-- A step that opens a register was told its number by the storage. -/
theorem opened_stepped (hm : Stepped s m t) :
    t.record.opened = s.record.opened ∨
      ∃ i logger pid date now id, s.admissions[i]? = some (.openRegister logger pid date) ∧
        logger.start pid now s.shared.storage = (.ok id, t.shared.storage) ∧
        t.admissions = s.admissions.set i (.place logger ⟨pid, id, date, false⟩) ∧
        t.record.opened = s.record.opened ++ [⟨i, logger, ⟨pid, id, date, false⟩⟩] := by
  cases hm with
  | alike ht => exact Or.inl (congrArg Record.opened ht.record)
  | request | forget | run | answer | release | select => exact Or.inl rfl
  | dispatch popped => exact Or.inl (s.record.opened_dispatch _)
  | @removal i now r here => exact Or.inl (s.record.opened_removed i r)
  | @admission i now a here =>
    cases a with
    | openRegister logger pid date =>
      rcases Admission.step_openRegister now s.shared logger pid date with ⟨id, storage, hstart, hstep⟩ |
        ⟨e, storage, -, hstep⟩
      · refine Or.inr ⟨i, logger, pid, date, now, id, here, ?_, ?_, ?_⟩ <;> simp only [stepAdmission, hstep]
        · exact hstart
        · rfl
      · refine Or.inl ?_
        simp only [stepAdmission, hstep, Record.admitted]
    | place logger p =>
      refine Or.inl ?_
      rcases Admission.step_place now s.shared logger p with ⟨-, hstep⟩ | ⟨-, -, hstep⟩ | ⟨-, -, hstep⟩ <;>
        simp only [stepAdmission, hstep, Record.admitted]
    | find | takeLog | mark | wake | announce | done => exact Or.inl rfl

/-- The run that a move ends. -/
def closing? (s : Activities σ) : Move → Option Closing
  | .run i now => (s.runs[i]?).bind (·.closing? i now s.shared)
  | _ => none

/-- What a step does with the registers, and what it asks of the storage. -/
inductive Went (l : Logger) (s t : Activities σ) (c : RegisterId → Course) :
    Option Closing → (RegisterId → Course) → Prop where
  | stays (storage : Storage.Quiet s.shared.storage t.shared.storage) : Went l s t c none c
  | refused {pid : ProcessId} {now : Instant} {e : Failure}
    (start : l.start pid now s.shared.storage = (.error e, t.shared.storage)) : Went l s t c none c
  | opens {i : Nat} {pid : ProcessId} {now : Instant} {id : RegisterId} (fresh : c id = .unopened)
    (start : l.start pid now s.shared.storage = (.ok id, t.shared.storage)) :
    Went l s t c none (Function.update c id (.admitted i false))
  | goes {id : RegisterId} {x : Course} (next : (c id).Next none x) (storage : t.shared.storage = s.shared.storage) :
    Went l s t c none (Function.update c id x)
  | writes {id : RegisterId} {status : Status} {x : Course} {now : Instant} (next : (c id).Next (some status) x)
    (storage : t.shared.storage = (l.result status none id now s.shared.storage).2) :
    Went l s t c none (Function.update c id x)
  | closes {i : Nat} {p : Package} {e : Ending} {now : Instant} {q failed : Bool} 
    (here : s.runs[i]? = some ⟨p, l, .close e⟩)
    (started : c p.registerId = .started i q) (status : e.status = if failed then .error else .done)
    (storage : t.shared.storage = (l.result e.status (e.dataTimestamp now) p.registerId now s.shared.storage).2) :
    Went l s t c
      (some ⟨i, p, e, now, (l.result e.status (e.dataTimestamp now) p.registerId now s.shared.storage).1.isOk⟩)
      (Function.update c p.registerId (.ended i q failed))
  | strips {i : Nat} {c' : RegisterId → Course}
    (taken : ∀ id, c' id = c id ∨ ∃ q, c id = .queued q ∧ c' id = .stripped i q)
    (storage : t.shared.storage = s.shared.storage) : Went l s t c none c'

namespace Located

/-! ### Steps of requests -/

theorem admission_stay (h : s.Located c) {i : Nat} {a : Admission} (here : s.admissions[i]? = some a) {now : Instant}
    (held : (a.step now s.shared).1.held = a.held)
    (scheduler : (a.step now s.shared).2.scheduler = s.shared.scheduler)
    (opened : (s.record.admitted i a (a.step now s.shared).1).openedIds = s.record.openedIds) :
    (s.stepAdmission i a now).Located c :=
  h.stay (fun place => .of_eq (heldAt_keepAdmission here held scheduler place)) h.phases opened
    (s.record.takenIds_admitted i a _)

theorem publish (h : s.Located c) {i : Nat} {p : Package} {now : Instant} {a : Admission}
    (here : s.admissions[i]? = some a) (held : a.held = [p]) (free : (a.step now s.shared).1.held = [])
    (packages : (a.step now s.shared).2.scheduler.packages.Perm (p :: s.shared.scheduler.packages))
    (opened : (s.record.admitted i a (a.step now s.shared).1).openedIds = s.record.openedIds)
    (storage : (a.step now s.shared).2.storage = s.shared.storage) :
    ∃ c', (s.stepAdmission i a now).Located c' ∧ Went l s (s.stepAdmission i a now) c none c' := by
  have hcourse := h.placed.at_admission here (held ▸ List.mem_singleton.mpr rfl)
  have next : (c p.registerId).Next none (.queued p.onQueue) := hcourse ▸ .publish i p.onQueue
  refine ⟨_, h.goesOn next (h.placed.publish here held free packages) rfl (fun j => ?_) opened
    (s.record.takenIds_admitted i a _), .goes next storage⟩
  rw [hcourse]
  simp [Course.place]

theorem opens (h : s.Located c) {i : Nat} {pid : ProcessId} {date now : Instant} {id : RegisterId} {storage : σ}
    (here : s.admissions[i]? = some (.openRegister l pid date)) (fresh : c id = .unopened)
    (hstart : l.start pid now s.shared.storage = (.ok id, storage))
    (hstep : (Admission.openRegister l pid date).step now s.shared =
      (.place l ⟨pid, id, date, false⟩, { s.shared with storage })) :
    ∃ c', (s.stepAdmission i (.openRegister l pid date) now).Located c' ∧
      Went l s (s.stepAdmission i (.openRegister l pid date) now) c none c' := by
  have hplaced := h.placed.opens here (congrArg Course.place fresh) hstep
  have hopened : (s.stepAdmission i (.openRegister l pid date) now).record =
      { s.record with opened := s.record.opened ++ [⟨i, l, ⟨pid, id, date, false⟩⟩] } := by
    simp only [Activities.stepAdmission, hstep, Record.admitted]
  have hasked : l.start pid now s.shared.storage =
      (.ok id, (s.stepAdmission i (.openRegister l pid date) now).shared.storage) := by
    simp only [Activities.stepAdmission, hstep]
    exact hstart
  refine ⟨_, h.advance hplaced (fun j r hr => h.phases_update hr ?_) ?_ ?_ fun k => ?_, .opens fresh hasked⟩
  · rw [fresh]
    simp [Course.place]
  · rw [fresh]
    rfl
  · rw [hopened]
    rfl
  · rw [hopened]
    show _ ↔ k ∈ (s.record.opened ++ [_]).map _
    rw [List.map_append, List.mem_append, List.map_singleton, List.mem_singleton]
    by_cases hk : k = id
    · simp [hk, Course.isOpened]
    · rw [Function.update_of_ne hk, h.opened]
      exact ⟨Or.inl, fun hcase => hcase.resolve_right hk⟩

theorem marks (h : s.Located c) {i : Nat} {p : Package} {now : Instant} (here : s.admissions[i]? = some (.mark l p))
    (unmarked : p.onQueue = false) :
    ∃ c', (s.stepAdmission i (.mark l p) now).Located c' ∧ Went l s (s.stepAdmission i (.mark l p) now) c none c' := by
  have hcourse : c p.registerId = .admitted i false :=
    unmarked ▸ h.placed.at_admission here (List.mem_singleton.mpr rfl)
  have next : (c p.registerId).Next (some .onQueue) (.admitted i true) := hcourse ▸ .mark i
  refine ⟨_, h.goesOn next (h.placed.marks here) rfl (fun j => ?_) rfl rfl, .writes next rfl⟩
  rw [hcourse]
  simp [Course.place]

theorem stepAdmission (h : s.Located c) (hs : Orderly l s)
    (fresh : ∀ pid now id storage, l.start pid now s.shared.storage = (.ok id, storage) → c id = .unopened)
    {i : Nat} {a : Admission} (here : s.admissions[i]? = some a) (now : Instant) :
    ∃ c', (s.stepAdmission i a now).Located c' ∧ Went l s (s.stepAdmission i a now) c none c' := by
  have hlog := hs.admissions a (List.mem_of_getElem? here)
  cases a with
  | find pid date =>
    have hsame : ((Admission.find pid date).step now s.shared).2 = s.shared := by
      rcases Admission.step_find now s.shared pid date with hstep | hstep <;> rw [hstep]
    refine ⟨c, h.admission_stay here ?_ (congrArg Shared.scheduler hsame) ?_, .stays ?_⟩
    · rcases Admission.step_find now s.shared pid date with hstep | hstep <;> rw [hstep] <;> rfl
    · rfl
    · simp only [Activities.stepAdmission, hsame]
      exact .none
  | takeLog pid date => exact ⟨c, h.admission_stay here rfl rfl rfl, .stays .none⟩
  | openRegister logger pid date =>
    have hlogger : logger = l := hlog
    subst hlogger
    rcases Admission.step_openRegister now s.shared logger pid date with
      ⟨id, storage, hstart, hstep⟩ | ⟨e, storage, hstart, hstep⟩
    · exact h.opens here (fresh pid now id storage hstart) hstart hstep
    · have hasked : logger.start pid now s.shared.storage =
          (.error e, (s.stepAdmission i (.openRegister logger pid date) now).shared.storage) := by
        simp only [Activities.stepAdmission, hstep]
        exact hstart
      refine ⟨c, h.admission_stay here ?_ ?_ ?_, .refused hasked⟩ <;> rw [hstep] <;> rfl
  | place logger p =>
    rcases Admission.step_place now s.shared logger p with ⟨idle, hstep⟩ | ⟨active, hq, hstep⟩ |
      ⟨active, hq, hstep⟩
    · refine h.publish (p := p) here rfl ?_ ?_ ?_ ?_ <;> rw [hstep]
      · rfl
      · exact Scheduler.packages_enqueue _ p
      · rfl
    · refine h.publish (p := p) here rfl ?_ ?_ ?_ ?_ <;> rw [hstep]
      · rfl
      · exact Scheduler.packages_wait _ p
      · rfl
    -- The process has become active since the request looked, so the package is to be marked and placed again.
    · refine ⟨c, h.admission_stay here ?_ ?_ ?_, .stays ?_⟩
      · rw [hstep]
        rfl
      · rw [hstep]
      · rw [hstep]
        rfl
      · simp only [Activities.stepAdmission, hstep]
        exact .none
  | mark logger p =>
    have hlogger : logger = l := hlog.1
    subst hlogger
    exact h.marks here hlog.2
  | wake p =>
    have hwake := alike_wake s
    exact ⟨c, h.admission_stay here rfl hwake.scheduler rfl, .stays hwake.storage⟩
  | announce p event => exact ⟨c, h.admission_stay here rfl rfl rfl, .stays .none⟩
  | done => exact ⟨c, h.admission_stay here rfl rfl rfl, .stays .none⟩

/-! ### Steps of removals -/

theorem removal_stay (h : s.Located c) {i : Nat} {r : Removal} (here : s.removals[i]? = some r) {now : Instant}
    (held : (r.step now s.shared).1.held = r.held) (scheduler : (r.step now s.shared).2.scheduler = s.shared.scheduler)
    (record : s.record.removed i r = s.record) : (s.stepRemoval i r now).Located c :=
  h.stay (fun place => .of_eq (heldAt_keepRemoval here held scheduler place)) h.phases
    (congrArg Record.openedIds record)
    (congrArg Record.takenIds record)

theorem strips (h : s.Located c) (hr : s.Recorded) {i : Nat} {pid : ProcessId}
    (here : s.removals[i]? = some (.strip pid)) (now : Instant) :
    (s.stepRemoval i (.strip pid) now).Located (Placed.taken s c i pid) := by
  refine ⟨h.placed.strips hr here now, ?_, ?_, ?_⟩
  -- A register that is taken out is in the queues, so no run has it.
  · intro j r hj
    rcases h.taken_cases hr i pid r.package.registerId with ⟨-, q, hq, -⟩ | ⟨-, hsame⟩
    · have hplace := (h.placed.at_run hj).1
      rw [hq] at hplace
      cases hplace
    · rw [hsame]
      exact h.phases j r hj
  · intro id
    rw [show (s.stepRemoval i (.strip pid) now).record.openedIds = s.record.openedIds from rfl, ← h.opened]
    rcases h.taken_cases hr i pid id with ⟨-, q, hq, hnew⟩ | ⟨-, hsame⟩
    · rw [hq, hnew]
      exact ⟨fun _ => rfl, fun _ => rfl⟩
    · rw [hsame]
  · intro id j
    rw [hr.takenIds_strip here now j]
    rcases h.taken_cases hr i pid id with ⟨hid, q, hq, hnew⟩ | ⟨hid, hsame⟩
    · rw [hnew]
      by_cases hj : j = i
      · simp [Course.removal?, hj, hid]
      · rw [if_neg hj, ← h.stripped, hq]
        simp [Course.removal?, Ne.symm hj]
    · rw [hsame, h.stripped]
      by_cases hj : j = i
      · rw [if_pos hj, hj, hr.takenIds_empty here]
        exact ⟨fun hno => absurd hno List.not_mem_nil, fun hno => absurd hno hid⟩
      · rw [if_neg hj]

theorem stepRemoval (h : s.Located c) (hs : Orderly l s) (hr : s.Recorded) {i : Nat} {r : Removal}
    (here : s.removals[i]? = some r) (now : Instant) :
    ∃ c', (s.stepRemoval i r now).Located c' ∧ Went l s (s.stepRemoval i r now) c none c' := by
  have hlog := hs.removals r (List.mem_of_getElem? here)
  cases r with
  | strip pid =>
    refine ⟨_, h.strips hr here now, .strips (i := i) (fun id => ?_) rfl⟩
    rcases h.taken_cases hr i pid id with ⟨-, htaken⟩ | ⟨-, hsame⟩
    · exact Or.inr htaken
    · exact Or.inl hsame
  | close logger count packages =>
    have hlogger : logger = l := hlog
    subst hlogger
    cases packages with
    | nil => exact ⟨c, h.removal_stay here rfl rfl rfl, .stays .none⟩
    | cons p packages =>
      have hcourse : c p.registerId = .stripped i p.onQueue := h.placed.at_removal here List.mem_cons_self
      have next : (c p.registerId).Next (some .notExecuted) (.dropped i p.onQueue) := hcourse ▸ .drop i p.onQueue
      refine ⟨_, h.goesOn next (h.placed.drops here) rfl (fun j => ?_) rfl rfl, .writes next rfl⟩
      rw [hcourse]
      simp [Course.place]
  | forget | takeLog | announce | done => exact ⟨c, h.removal_stay here rfl rfl rfl, .stays .none⟩

/-! ### Steps of runs -/

theorem run_stay (h : s.Located c) {i : Nat} {r : Run} (here : s.runs[i]? = some r) {now : Instant}
    (packages : (r.step now s.shared).2.scheduler.packages.Perm s.shared.scheduler.packages)
    (phase : (r.step now s.shared).1.stage.At (c r.package.registerId)) : (s.stepRun i r now).Located c := by
  refine h.stay (heldAt_stepRun here packages) (fun j r' hr' => ?_) rfl rfl
  rcases getElem?_set_cases here hr' with ⟨-, rfl⟩ | ⟨-, hr'⟩
  · rw [r.package_step now s.shared]
    exact phase
  · exact h.phases j r' hr'

theorem run_goes (h : s.Located c) {i : Nat} {r : Run} (here : s.runs[i]? = some r) {now : Instant} {x : Course}
    (scheduler : (r.step now s.shared).2.scheduler = s.shared.scheduler)
    (place : x.place = .run i) (onQueue : x.onQueue = r.package.onQueue)
    (phase : (r.step now s.shared).1.stage.At x) :
    (s.stepRun i r now).Located (Function.update c r.package.registerId x) := by
  have hat := h.placed.at_run here
  obtain ⟨hopened, hremoval⟩ := Course.isOpened_of_run hat.1
  obtain ⟨hopened', hremoval'⟩ := Course.isOpened_of_run place
  refine h.advance ?_ (fun j r' hr' => ?_) (hremoval'.trans hremoval.symm) rfl
    (h.opened_update (hopened'.trans hopened.symm) rfl)
  · refine h.placed.stay (heldAt_stepRun here (.of_eq (congrArg Scheduler.packages scheduler))) fun id => ?_
    by_cases hid : id = r.package.registerId
    · rw [hid, Function.update_self, place, onQueue, hat.1, hat.2]
      exact ⟨rfl, rfl⟩
    · rw [Function.update_of_ne hid]
      exact ⟨rfl, rfl⟩
  · rcases getElem?_set_cases here hr' with ⟨-, rfl⟩ | ⟨hj, hr'⟩
    · rw [r.package_step now s.shared, Function.update_self]
      exact phase
    · refine h.phases_update hr' ?_
      rw [hat.1]
      simpa using Ne.symm hj

/-- A run takes its copy of the log; what did not have to wait has been marked as started already. -/
theorem run_takesLog (h : s.Located c) {i : Nat} {p : Package} {logger : Logger}
    (here : s.runs[i]? = some ⟨p, logger, .takeLog⟩) (now : Instant) :
    ∃ c', (s.stepRun i ⟨p, logger, .takeLog⟩ now).Located c' ∧
        Went l s (s.stepRun i ⟨p, logger, .takeLog⟩ now) c none c' := by
  have hcourse : c p.registerId = .dispatched i p.onQueue := h.dispatched_of_run here (h.phases i _ here)
  cases honQueue : p.onQueue with
  | true =>
    refine ⟨c, h.run_stay here (.refl _) ?_, .stays .none⟩
    simp only [Run.step, honQueue]
    exact ⟨i, _, hcourse⟩
  | false =>
    rw [honQueue] at hcourse
    refine ⟨_, h.run_goes (x := .started i false) here rfl rfl honQueue.symm ?_, .goes (hcourse ▸ .start i) rfl⟩
    simp only [Run.step, honQueue]
    exact ⟨i, false, rfl⟩

theorem stepRun (h : s.Located c) (hs : Orderly l s) (hr : s.Recorded) {i : Nat} {r : Run}
    (here : s.runs[i]? = some r) (now : Instant) :
    ∃ c', (s.stepRun i r now).Located c' ∧ Went l s (s.stepRun i r now) c (r.closing? i now s.shared) c' := by
  have hlog := hs.runs r (List.mem_of_getElem? here)
  have hphase := h.phases i r here
  obtain ⟨p, logger, stage⟩ := r
  cases stage with
  | takeLog => exact h.run_takesLog here now
  -- Only a package that waited is marked, and its course goes from dispatched to started.
  | mark =>
    obtain ⟨hlogger, marked⟩ : logger = l ∧ p.onQueue = true := hlog
    subst hlogger
    have hcourse : c p.registerId = .dispatched i true := marked ▸ h.dispatched_of_run here hphase
    exact ⟨_, h.run_goes (x := .started i true) here rfl rfl marked.symm ⟨i, true, rfl⟩,
      .writes (hcourse ▸ .restart i) rfl⟩
  | close e =>
    have hlogger : logger = l := hlog
    subst hlogger
    obtain ⟨failed, hfailed⟩ := e.status_eq
    exact ⟨_, h.run_goes (x := .ended i p.onQueue failed) here rfl rfl rfl ⟨i, p.onQueue, failed, rfl⟩,
      .closes here (h.started_of_run here hphase) hfailed rfl⟩
  | release e =>
    refine ⟨c, h.run_stay here (Scheduler.packages_finish hr.tidy.sorted _) ?_, .stays .none⟩
    simp only [Run.step, Run.enter]
    cases (s.shared.scheduler.finish p.processId).1 <;> exact hphase
  | explain e =>
    refine ⟨c, h.run_stay here (.of_eq ?_) hphase, .stays ?_⟩
    · simp only [Run.step]
      cases e.message? <;> rfl
    · simp only [Activities.stepRun, Run.step]
      cases e.message? with
      | none => exact .none
      | some message => exact logger.quiet_log _ _ _ _ _
  | check =>
    refine ⟨c, h.run_stay here (.refl _) ?_, .stays .none⟩
    simp only [Run.step, Run.enter]
    cases s.shared.owned <;> exact hphase
  | stampStart => exact ⟨c, h.run_stay here (.refl _) hphase, .stays (logger.quiet_addValue _ _ _ _)⟩
  | stampEnd e => exact ⟨c, h.run_stay here (.refl _) hphase, .stays (logger.quiet_addValue _ _ _ _)⟩
  | wake e =>
    have hwake := alike_wake s
    exact ⟨c, h.run_stay here (.of_eq (congrArg Scheduler.packages hwake.scheduler)) hphase, .stays hwake.storage⟩
  | announce | working | report | leave | finished => exact ⟨c, h.run_stay here (.refl _) hphase, .stays .none⟩

/-! ### The main loop, and all moves together -/

theorem dispatch (h : s.Located c) {p : Package} {scheduler : Scheduler}
    (popped : s.shared.scheduler.pop? = some (p, scheduler)) :
    ∃ c', (s.dispatch p scheduler).Located c' ∧ Went l s (s.dispatch p scheduler) c none c' := by
  have hcourse : c p.registerId = .queued p.onQueue :=
    h.placed.at_queues (Scheduler.packages_pop? popped ▸ List.mem_cons_self)
  have next : (c p.registerId).Next none (.dispatched s.runs.length p.onQueue) := hcourse ▸ .dispatch _ p.onQueue
  have hrecord : (s.dispatch p scheduler).record.openedIds = s.record.openedIds ∧
      (s.dispatch p scheduler).record.takenIds = s.record.takenIds := by
    simp only [Activities.dispatch, Record.dispatch]
    split <;> exact ⟨rfl, rfl⟩
  refine ⟨_, h.advance (h.placed.dispatch popped) (fun j r hr => ?_) next.removal? hrecord.2
    (h.opened_update (next.isOpened.2.trans next.isOpened.1.symm) hrecord.1), .goes next rfl⟩
  rcases getElem?_concat_cases hr with ⟨-, rfl⟩ | hr
  · rw [Function.update_self]
    exact ⟨_, _, rfl⟩
  · exact h.phases_update hr (by rw [hcourse]; simp [Course.place])

end Located

/-- A move by which no run goes on ends none. -/
theorem closing?_of_runs (same : (s.step m).runs = s.runs) : s.closing? m = none := by
  cases m with
  | run i now =>
    cases here : s.runs[i]? with
    | none => simp only [closing?, here, Option.bind_none]
    | some r =>
      have hi := (List.getElem?_eq_some_iff.mp here).1
      have hstep : (r.step now s.shared).1 = r := by
        have hnew : (s.step (.run i now)).runs[i]? = some (r.step now s.shared).1 := by
          simp only [step, here, Option.elim_some, stepRun]
          exact List.getElem?_set_self hi
        rw [same, here] at hnew
        exact (Option.some.inj hnew).symm
      obtain ⟨p, logger, stage⟩ := r
      cases stage with
      | close e => cases hstep
      | _ => simp only [closing?, here, Option.bind_some, Run.closing?]
  | _ => rfl

/-- A step takes the registers on as the activities go on. -/
theorem Located.step (h : s.Located c) (hs : Orderly l s) (hr : s.Recorded) (stays : m.isSelect = false)
    (fresh : ∀ pid now id storage, l.start pid now s.shared.storage = (.ok id, storage) → c id = .unopened) :
    ∃ c', (s.step m).Located c' ∧ Went l s (s.step m) c (s.closing? m) c' := by
  -- The state after the step gets a name, or the cases could not be told apart.
  obtain ⟨t, ht⟩ : ∃ t, s.step m = t := ⟨_, rfl⟩
  have hm := step_cases s m
  rw [ht] at hm ⊢
  cases hm with
  | alike halike =>
    rw [closing?_of_runs (ht ▸ halike.runs)]
    exact ⟨c, h.stay (fun place => .of_eq (heldAt_alike halike place)) (halike.runs ▸ h.phases) (by rw [halike.record])
      (by rw [halike.record]), .stays halike.storage⟩
  | request pid date =>
    exact ⟨c, h.stay (fun place => .of_eq (heldAt_request s pid date place)) h.phases rfl rfl, .stays .none⟩
  | forget pid =>
    exact ⟨c, h.stay (fun place => .of_eq (heldAt_forget s pid place)) h.phases rfl (funext s.record.takenIds_concat),
      .stays .none⟩
  | admission now here => exact h.stepAdmission hs fresh here now
  | removal now here => exact h.stepRemoval hs hr here now
  | run now here =>
    rw [closing?, here]
    exact h.stepRun hs hr here now
  | @answer i result r here working =>
    refine ⟨c, h.stay (fun place => .of_eq (heldAt_answer here _ place)) (fun j r' hr' => ?_) rfl rfl, .stays .none⟩
    rcases getElem?_set_cases here hr' with ⟨-, rfl⟩ | ⟨-, hr'⟩
    · have hphase := h.phases i r here
      rw [working] at hphase
      exact hphase
    · exact h.phases j r' hr'
  | dispatch popped => exact h.dispatch popped
  | release pid => exact ⟨c, h.stay (heldAt_release hr pid) h.phases rfl rfl, .stays .none⟩
  | select => cases stays

end

end Activities

end ProcessRuns
