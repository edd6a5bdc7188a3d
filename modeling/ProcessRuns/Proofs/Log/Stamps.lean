import ProcessRuns.Proofs.Log.Entries

/-! # When rows were written

A row bears the time at which it was opened, or of the last status that was written to it; the repair of a table
leaves the times alone. `StampStorage` states it for any storage, and that the last run of a process is looked for
among the times of its rows, whatever their statuses. -/

namespace ProcessRuns

theorem Instant.newest_eq_none {dates : Set Instant} {d : Option Instant} (h : Newest dates d) :
    d = none ↔ ¬ dates.Nonempty := by
  cases d with
  | none => exact ⟨fun _ => Set.not_nonempty_iff_eq_empty.mpr h, fun _ => rfl⟩
  | some a => exact ⟨nofun, fun hno => absurd ⟨a, h.1⟩ hno⟩

/-- The time that a row bears, and the process that it is of. -/
structure Stamp where
  processId : ProcessId
  time : Instant
deriving DecidableEq

/-- The times of the registers of all tables. -/
abbrev Stamps : Type := LogTable → RegisterId → Option Stamp

/-- A write that a log has taken and that gives a row its time. -/
inductive Stamping where
  | opened (table : LogTable) (id : RegisterId) (processId : ProcessId) (time : Instant)
  | written (table : LogTable) (id : RegisterId) (time : Instant)
deriving DecidableEq

namespace Stamps

/-- Adds what was written. -/
def put (ws : Stamps) : Stamping → Stamps
  | .opened table id processId time => fun t i => if t = table ∧ i = id then some ⟨processId, time⟩ else ws t i
  | .written table id time => fun t i => if t = table ∧ i = id then (ws t i).map fun w => { w with time } else ws t i

/-- The times of the registers of a process. -/
def times (ws : Stamps) (table : LogTable) (pid : ProcessId) : Set Instant :=
  {a | ∃ id, ws table id = some ⟨pid, a⟩}

variable {ws : Stamps} {table t : LogTable} {id i : RegisterId} {pid processId : ProcessId} {time : Instant}

theorem put_opened : ws.put (.opened table id processId time) t i =
    if t = table ∧ i = id then some ⟨processId, time⟩ else ws t i := rfl

theorem put_written : ws.put (.written table id time) t i =
    if t = table ∧ i = id then (ws t i).map fun w => { w with time } else ws t i := rfl

theorem put_written_of_none (none : ws table id = none) : ws.put (.written table id time) = ws := by
  funext t i
  rw [put_written]
  split
  · rename_i hcase
    rw [hcase.1, hcase.2, none]
    rfl
  · rfl

/-- A row that is opened under a new number is one more of its process. -/
theorem times_opened (fresh : ws table id = none) :
    ((ws.put (.opened table id processId time)).times t pid).Nonempty ↔
      (ws.times t pid).Nonempty ∨ t = table ∧ pid = processId := by
  constructor
  · rintro ⟨a, i, h⟩
    rw [put_opened] at h
    split at h
    · rename_i hcase
      cases h
      exact Or.inr ⟨hcase.1, rfl⟩
    · exact Or.inl ⟨a, i, h⟩
  · rintro (⟨a, i, h⟩ | ⟨rfl, rfl⟩)
    · refine ⟨a, i, ?_⟩
      rw [put_opened, if_neg, h]
      rintro ⟨rfl, rfl⟩
      rw [fresh] at h
      cases h
    · exact ⟨time, id, if_pos ⟨rfl, rfl⟩⟩

theorem times_written : ((ws.put (.written table id time)).times t pid).Nonempty ↔ (ws.times t pid).Nonempty := by
  constructor
  · rintro ⟨a, i, h⟩
    rw [put_written] at h
    split at h
    · obtain ⟨w, hw, heq⟩ := Option.map_eq_some_iff.mp h
      cases heq
      exact ⟨w.time, i, hw⟩
    · exact ⟨a, i, h⟩
  · rintro ⟨a, i, h⟩
    by_cases hcase : t = table ∧ i = id
    · refine ⟨time, i, ?_⟩
      rw [put_written, if_pos hcase, h]
      rfl
    · refine ⟨a, i, ?_⟩
      rw [put_written, if_neg hcase, h]

end Stamps

/-- A storage of whose rows the times can be seen. -/
class StampStorage (σ : Type) [Storage σ] [RowStorage σ] where
  stamps : σ → Stamps
  there (s : σ) (table : LogTable) (id : RegisterId) : (stamps s table id).isSome = (RowStorage.rows s table id).isSome
  quiet {s t : σ} : RowStorage.Sound s → Storage.Quiet s t → stamps t = stamps s
  sweep {s : σ} (table : LogTable) (old : List Status) (new : Status) :
    RowStorage.Sound s → stamps (Storage.updateStatus table old new s).2 = stamps s
  insert_ok {s t : σ} {table : LogTable} {pid : ProcessId} {status : Status} {now : Instant} {id : RegisterId} :
    RowStorage.Sound s → Storage.insertRegister table pid status now s = (.ok id, t) →
      stamps t = (stamps s).put (.opened table id pid now)
  insert_error {s t : σ} {table : LogTable} {pid : ProcessId} {status : Status} {now : Instant} {e : Failure} :
    RowStorage.Sound s → Storage.insertRegister table pid status now s = (.error e, t) → stamps t = stamps s
  update_ok {s t : σ} {table : LogTable} {id : RegisterId} {status : Status} {date : Option Instant} {now : Instant}
    {found : Bool} :
    RowStorage.Sound s → Storage.updateResult table id status date now s = (.ok found, t) →
      stamps t = (stamps s).put (.written table id now)
  update_error {s t : σ} {table : LogTable} {id : RegisterId} {status : Status} {date : Option Instant} {now : Instant}
    {e : Failure} :
    RowStorage.Sound s → Storage.updateResult table id status date now s = (.error e, t) → stamps t = stamps s
  latest_ok {s t : σ} {table : LogTable} {pid : ProcessId} {d : Option Instant} :
    RowStorage.Sound s → Storage.maxLastProcess table pid s = (.ok d, t) → Instant.Newest ((stamps s).times table pid) d

/-! ## What a log writes -/

namespace Logger

variable {σ : Type} [Storage σ]

/-- What the opening of a register writes, if it succeeds. -/
def opening? (l : Logger) (pid : ProcessId) (now : Instant) (s : σ) : Option Stamping :=
  l.table.bind fun table => ((l.start pid now s).1.toOption).map fun id => .opened table id pid now

/-- What a result writes, if it succeeds. -/
def writing? (l : Logger) (status : Status) (date : Option Instant) (id : RegisterId) (now : Instant) (s : σ) :
    Option Stamping :=
  l.table.bind fun table => ((l.result status date id now s).1.toOption).map fun _ => .written table id now

theorem lastProcess_apply (l : Logger) (s : σ) {table : LogTable} (h : l.table = some table) (pid : ProcessId) :
    l.lastProcess pid s = Storage.maxLastProcess table pid s := by
  rw [lastProcess, onTable, h]

variable [RowStorage σ] [StampStorage σ] {s : σ}

open StampStorage (stamps)

theorem stamps_start (l : Logger) (sound : RowStorage.Sound s) (pid : ProcessId) (now : Instant) :
    stamps (l.start pid now s).2 = (l.opening? pid now s).elim (stamps s) (stamps s).put := by
  unfold opening?
  cases hl : l.table with
  | none =>
    rw [start, onTable, hl]
    rfl
  | some table =>
    rw [l.start_apply s hl]
    cases hcall : Storage.insertRegister table pid .start now s with
    | mk answer t =>
      cases answer with
      | ok id => exact StampStorage.insert_ok sound hcall
      | error e => exact StampStorage.insert_error sound hcall

/-- A status that finds no row gives no row a time. -/
theorem stamps_result (l : Logger) (sound : RowStorage.Sound s) (status : Status) (date : Option Instant)
    (id : RegisterId) (now : Instant) :
    stamps (l.result status date id now s).2 = (l.writing? status date id now s).elim (stamps s) (stamps s).put := by
  unfold writing?
  cases hl : l.table with
  | none =>
    rw [result, onTable, hl]
    rfl
  | some table =>
    rw [l.result_apply s hl]
    cases hcall : Storage.updateResult table id status date now s with
    | mk answer t =>
      cases answer with
      | error e =>
        rw [expect_error hcall]
        exact StampStorage.update_error sound hcall
      | ok found =>
        cases found with
        | true =>
          rw [expect_found hcall]
          exact StampStorage.update_ok sound hcall
        | false =>
          have hnone : stamps s table id = none := by
            have hfound := (RowStorage.update_ok sound hcall).1
            rw [← StampStorage.there] at hfound
            exact Option.not_isSome_iff_eq_none.mp (by rw [← hfound]; exact Bool.false_ne_true)
          rw [expect, Action.bind_apply, hcall]
          exact (StampStorage.update_ok sound hcall).trans (Stamps.put_written_of_none hnone)

/-- A selection gives no row a time, whatever comes of it. -/
theorem stamps_select (l : Logger) (sound : RowStorage.Sound s) (name : String) :
    RowStorage.Sound (select name (l, s)).2.2 ∧ stamps (select name (l, s)).2.2 = stamps s :=
  l.keep_select (P := fun u => RowStorage.Sound u ∧ stamps u = stamps s)
    (fun _ table hu =>
      ⟨RowStorage.sound hu.1 (.quiet (.init table)), (StampStorage.quiet hu.1 (.init table)).trans hu.2⟩)
    (fun _ table old new hu =>
      ⟨RowStorage.sound hu.1 (.updateStatus table old new), (StampStorage.sweep table old new hu.1).trans hu.2⟩)
    name ⟨sound, rfl⟩

theorem stamps_opened {l : Logger} {t : σ} {name : String} (sound : RowStorage.Sound s)
    (h : opened name s = (.ok l, t)) : stamps t = stamps s := by
  obtain ⟨-, hselect⟩ := (⟨none⟩ : Logger).stamps_select sound name
  unfold opened at h
  split at h
  · rename_i hcall
    rw [hcall] at hselect
    cases h
    exact hselect
  · cases h

end Logger

/-! ## The storage in memory -/

namespace Memory

variable {m n : Memory} {table : LogTable}

/-- The times of the registers in memory. -/
def stamps (m : Memory) : Stamps := m.view fun r => ⟨r.processId, r.lastProcess⟩

theorem isSome_view {α : Type} (f : Register → α) (m : Memory) (table : LogTable) (id : RegisterId) :
    (m.view f table id).isSome = (m.rows table id).isSome := by
  rw [view, rows]
  cases m.tables.get? table with
  | none => rfl
  | some t => simp only [Option.bind_some, MemoryTable.status?, Option.isSome_map]

theorem latest_ok {pid : ProcessId} {d : Option Instant} (hm : m.Sound)
    (h : Storage.maxLastProcess table pid m = (.ok d, n)) : Instant.Newest (m.stamps.times table pid) d := by
  have htimes : m.stamps.times table pid = {a | ∃ id r, (m.tables.get? table).bind (·.find? id) = some r ∧
      r.processId = pid ∧ some r.lastProcess = some a} := by
    ext a
    constructor
    · rintro ⟨id, hw⟩
      obtain ⟨r, hr, heq⟩ := Option.map_eq_some_iff.mp hw
      cases heq
      exact ⟨id, r, hr, rfl, rfl⟩
    · rintro ⟨id, r, hr, rfl, htime⟩
      cases htime
      exact ⟨id, Option.map_eq_some_iff.mpr ⟨r, hr, rfl⟩⟩
  rw [htimes]
  have hcall : query table (fun t => MemoryTable.latest? ((t.ofProcess pid).filterMap fun r => some r.lastProcess)) m =
      (.ok d, n) := by
    rw [← h]
    exact congrArg (fun f => query table f m) (funext fun t => congrArg _ (congrFun List.filterMap_eq_map _))
  exact newest_query hm hcall

theorem stamps_update {id : RegisterId} {status : Status} {date : Option Instant} {now : Instant} {found : Bool}
    (h : Storage.updateResult table id status date now m = (.ok found, n)) :
    n.stamps = m.stamps.put (.written table id now) := by
  funext other i
  rw [stamps, view_updateResult _ h, Stamps.put_written]
  split
  · rw [stamps, view, view, Option.map_map]
    rfl
  · rfl

instance : StampStorage Memory where
  stamps := stamps
  there := isSome_view _
  quiet _ h := view_quiet _ (fun _ _ => rfl) h
  sweep table old new _ := view_updateStatus _ (fun _ _ => rfl) table old new _
  insert_ok hm h := funext fun other => funext fun i => view_insertRegister _ hm h other i
  insert_error _ h := congrArg stamps (onTable_error h)
  update_ok _ h := stamps_update h
  update_error _ h := congrArg stamps (onTable_error h)
  latest_ok hm h := latest_ok hm h

end Memory

/-! ## Storages around others -/

section
variable {σ : Type} [Storage σ] [RowStorage σ] [StampStorage σ]

instance : StampStorage (Journaled σ) where
  stamps j := StampStorage.stamps j.storage
  there j := StampStorage.there j.storage
  quiet hj h := StampStorage.quiet hj (Journaled.quiet_inside h)
  sweep table old new hj := StampStorage.sweep table old new hj
  insert_ok hj h := StampStorage.insert_ok hj (Journaled.asking_inside h)
  insert_error hj h := StampStorage.insert_error hj (Journaled.asking_inside h)
  update_ok hj h := StampStorage.update_ok hj (Journaled.asking_inside h)
  update_error hj h := StampStorage.update_error hj (Journaled.asking_inside h)
  latest_ok hj h := StampStorage.latest_ok hj (Journaled.asking_inside h)

instance : StampStorage (Flaky σ) where
  stamps s := StampStorage.stamps s.storage
  there s := StampStorage.there s.storage
  quiet hs h := StampStorage.quiet hs (Flaky.quiet_inside h)
  sweep {s} table old new hs := by
    rcases Flaky.asking_snd .updateStatus (Storage.updateStatus table old new) s with h | h
    · exact congrArg StampStorage.stamps h
    · exact (congrArg StampStorage.stamps h).trans (StampStorage.sweep table old new hs)
  insert_ok hs h := StampStorage.insert_ok hs (Flaky.asking_ok h)
  insert_error hs h := (Flaky.asking_error h).elim (congrArg StampStorage.stamps) (StampStorage.insert_error hs)
  update_ok hs h := StampStorage.update_ok hs (Flaky.asking_ok h)
  update_error hs h := (Flaky.asking_error h).elim (congrArg StampStorage.stamps) (StampStorage.update_error hs)
  latest_ok hs h := StampStorage.latest_ok hs (Flaky.asking_ok h)

end

end ProcessRuns
