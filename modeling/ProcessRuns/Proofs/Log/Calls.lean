import ProcessRuns.Log.Logger
import ProcessRuns.Proofs.Log.Rows

/-! # What a log asks of its storage

Statuses are written by `start`, `result` and the repair of a table only; whatever else a log does is quiet. After
the repair of a table nothing in it is open. -/

namespace ProcessRuns

/-- An action whose result is only looked at. -/
theorem Action.snd_of_pure {σ α β : Type} {a : Action σ α} {f : α → Action σ β} {s : σ}
    (pure : ∀ x s, (f x s).2 = s) : ((a >>= f) s).2 = (a s).2 := by
  rw [Action.bind_apply]
  cases h : a s with
  | mk r t =>
    cases r with
    | ok x => exact pure x t
    | error e => rfl

/-! ### Calls of the log that write no status -/

namespace Logger

variable {σ α : Type}

theorem expect_snd (table : LogTable) (id : RegisterId) (write : Action σ Bool) (s : σ) :
    (expect table id write s).2 = (write s).2 :=
  Action.snd_of_pure fun found s => by cases found <;> rfl

theorem expect_found {table : LogTable} {id : RegisterId} {write : Action σ Bool} {s t : σ}
    (h : write s = (.ok true, t)) :
    expect table id write s = (.ok (), t) := by
  rw [expect, Action.bind_apply, h]
  rfl

theorem expect_error {table : LogTable} {id : RegisterId} {write : Action σ Bool} {s t : σ} {e : Failure}
    (h : write s = (.error e, t)) : expect table id write s = (.error e, t) := by
  rw [expect, Action.bind_apply, h]

variable (l : Logger) (s : σ)

theorem keep_onTable {P : σ → Prop} {f : LogTable → Action σ α} (same : P s) (each : ∀ table, P (f table s).2) :
    P (l.onTable f s).2 := by
  rw [onTable]
  cases l.table with
  | none => exact same
  | some table => exact each table

variable [Storage σ]

theorem quiet_onTable {f : LogTable → Action σ α} (each : ∀ table, Storage.Quiet s (f table s).2) :
    Storage.Quiet s (l.onTable f s).2 :=
  l.keep_onTable s .none each

theorem quiet_log (type : MessageType) (description : String) (id : RegisterId) (now : Instant) :
    Storage.Quiet s (l.log type description id now s).2 :=
  l.quiet_onTable s fun table => by
    rw [expect_snd, Action.snd_of_pure fun _ _ => rfl]
    exact .insertMessage table id type (withoutNul description) now

theorem quiet_addValue (tag value : String) (id : RegisterId) : Storage.Quiet s (l.addValue tag value id s).2 :=
  l.quiet_onTable s fun table => by
    rw [expect_snd]
    exact .appendValue table id tag (withoutNul value)

theorem start_apply {table : LogTable} (h : l.table = some table) (pid : ProcessId) (now : Instant) :
    l.start pid now s = Storage.insertRegister table pid .start now s := by
  rw [start, onTable, h]

theorem start_ok {l : Logger} {s t : σ} {pid : ProcessId} {now : Instant} {id : RegisterId}
    (h : l.start pid now s = (.ok id, t)) :
    ∃ table, l.table = some table ∧ Storage.insertRegister table pid .start now s = (.ok id, t) := by
  cases htable : l.table with
  | none =>
    rw [start, onTable, htable] at h
    cases h
  | some table => exact ⟨table, rfl, l.start_apply s htable pid now ▸ h⟩

theorem result_apply {table : LogTable} (h : l.table = some table) (status : Status) (date : Option Instant)
    (id : RegisterId) (now : Instant) :
    l.result status date id now s = expect table id (Storage.updateResult table id status date now) s := by
  rw [result, onTable, h]

theorem result_snd {table : LogTable} (h : l.table = some table) (status : Status) (date : Option Instant)
    (id : RegisterId) (now : Instant) :
    (l.result status date id now s).2 = (Storage.updateResult table id status date now s).2 := by
  rw [l.result_apply s h]
  exact expect_snd table id _ s

theorem lastData_apply {table : LogTable} (h : l.table = some table) (pid : ProcessId) :
    l.lastData pid s = Storage.maxData table pid s := by
  rw [lastData, onTable, h]

theorem quiet_lastProcess (pid : ProcessId) : Storage.Quiet s (l.lastProcess pid s).2 :=
  l.quiet_onTable s fun table => .maxLastProcess table pid

theorem quiet_lastData (pid : ProcessId) : Storage.Quiet s (l.lastData pid s).2 :=
  l.quiet_onTable s fun table => .maxData table pid

/-! ### The parts of a selection -/

/-- Creates the tables of a name where they are missing, and turns the log to them. -/
def turn (name : String) : Action (Logger × σ) Unit := fun (l, s) =>
  match LogTable.ofName name with
  | .error e => (.error e, l, s)
  | .ok table =>
    match Storage.init table s with
    | (.error e, s) => (.error e, l, s)
    | (.ok (), s) => (.ok (), ⟨some table⟩, s)

/-- A selection turns the log to its tables, and then repairs them. -/
theorem select_apply (name : String) (l : Logger) (s : σ) :
    select name (l, s) = match turn name (l, s) with
      | (.ok (), l, s) => ((l.repair s).1, l, (l.repair s).2)
      | (.error e, l, s) => (.error e, l, s) := by
  simp only [select, turn]
  cases LogTable.ofName name with
  | error e => rfl
  | ok table =>
    simp only
    cases Storage.init table s with
    | mk r t => cases r <;> rfl

section
variable {P : σ → Prop} {s : σ} (init : ∀ s table, P s → P (Storage.init table s).2)
  (sweep : ∀ s table old new, P s → P (Storage.updateStatus table old new s).2)

include init in
theorem keep_turn (name : String) (hs : P s) : P (turn name (l, s)).2.2 := by
  simp only [turn]
  cases LogTable.ofName name with
  | error e => exact hs
  | ok table =>
    have hinit := init s table hs
    simp only
    cases h : Storage.init table s with
    | mk result t =>
      rw [h] at hinit
      cases result <;> exact hinit

include sweep in
theorem keep_updateStatus (old : List Status) (new : Status) (hs : P s) : P (l.updateStatus old new s).2 :=
  l.keep_onTable s hs fun table => sweep s table old new hs

include sweep in
theorem keep_repair (hs : P s) : P (l.repair s).2 := by
  have hfirst := l.keep_updateStatus sweep [.start] .interrupted hs
  rw [repair, Action.bind_apply]
  split
  · rename_i count t h
    rw [h] at hfirst
    rw [Action.snd_of_pure fun _ _ => rfl]
    exact l.keep_updateStatus sweep [.onQueue] .notExecuted hfirst
  · rename_i e t h
    rwa [h] at hfirst

include init sweep in
/-- What the creation of tables and the changes of a repair keep, a selection keeps. -/
theorem keep_select (name : String) (hs : P s) : P (select name (l, s)).2.2 := by
  have hturn := l.keep_turn init name hs
  rw [select_apply]
  split
  · rename_i l' t h
    rw [h] at hturn
    exact l'.keep_repair sweep hturn
  · rename_i e l' t h
    rwa [h] at hturn

end

/-! ### Calls of the log in general -/

theorem calls_onTable {f : LogTable → Action σ α} (each : ∀ table, Storage.Calls s (f table s).2) :
    Storage.Calls s (l.onTable f s).2 :=
  l.keep_onTable s .none each

theorem calls_start (pid : ProcessId) (now : Instant) : Storage.Calls s (l.start pid now s).2 :=
  l.calls_onTable s fun table => (Storage.Call.insertRegister table pid .start now).calls

theorem calls_result (status : Status) (date : Option Instant) (id : RegisterId) (now : Instant) :
    Storage.Calls s (l.result status date id now s).2 :=
  l.calls_onTable s fun table => by
    rw [expect_snd]
    exact (Storage.Call.updateResult table id status date now).calls

theorem calls_updateStatus (old : List Status) (new : Status) : Storage.Calls s (l.updateStatus old new s).2 :=
  l.calls_onTable s fun table => (Storage.Call.updateStatus table old new).calls

theorem calls_turn (name : String) : Storage.Calls s (turn name (l, s)).2.2 :=
  l.keep_turn (fun _ table h => h.next (.quiet (.init table))) name .none

theorem calls_repair : Storage.Calls s (l.repair s).2 :=
  l.keep_repair (fun _ table old new h => h.next (.updateStatus table old new)) .none

theorem calls_select (name : String) : Storage.Calls s (select name (l, s)).2.2 :=
  l.keep_select (fun _ table h => h.next (.quiet (.init table)))
    (fun _ table old new h => h.next (.updateStatus table old new)) name .none

end Logger

/-! ### Opening a log -/

namespace Logger

variable {σ : Type} [Storage σ]

theorem repair_ok {table : LogTable} {s t : σ} (h : (⟨some table⟩ : Logger).repair s = (.ok (), t)) :
    ∃ u n₁ n₂, Storage.updateStatus table [.start] .interrupted s = (.ok n₁, u) ∧
      Storage.updateStatus table [.onQueue] .notExecuted u = (.ok n₂, t) := by
  rw [repair, Action.bind_apply] at h
  split at h
  · rename_i n₁ u h₁
    rw [Action.bind_apply] at h
    split at h
    · rename_i n₂ v h₂
      cases h
      exact ⟨u, n₁, n₂, h₁, h₂⟩
    · cases h
  · cases h

theorem opened_ok {name : String} {s t : σ} {l : Logger} (h : opened name s = (.ok l, t)) :
    ∃ table u, l = ⟨some table⟩ ∧ Storage.Quiet s u ∧ l.repair u = (.ok (), t) := by
  unfold opened select at h
  cases hname : LogTable.ofName name with
  | error e =>
    simp only [hname] at h
    cases h
  | ok table =>
    cases hinit : Storage.init table s with
    | mk result u =>
      have hquiet := Storage.Quiet.init (s := s) table
      rw [hinit] at hquiet
      simp only [hname, hinit] at h
      cases result with
      | error e => cases h
      | ok =>
        cases hrepair : (⟨some table⟩ : Logger).repair u with
        | mk result v =>
          simp only [hrepair] at h
          cases result with
          | error e => cases h
          | ok =>
            cases h
            exact ⟨table, u, rfl, hquiet, hrepair⟩

variable [RowStorage σ]

theorem sound_opened {name : String} {s t : σ} {l : Logger} (sound : RowStorage.Sound s)
    (h : opened name s = (.ok l, t)) : RowStorage.Sound t := by
  obtain ⟨table, u, -, hquiet, hrepair⟩ := opened_ok h
  have hcalls := (Storage.Call.quiet hquiet).calls.trans (l.calls_repair u)
  rw [hrepair] at hcalls
  exact hcalls.keep (fun _ _ => RowStorage.sound) sound

/-- Nothing is open in a log that was just opened. -/
theorem none_open_of_opened {name : String} {s t : σ} {table : LogTable} (sound : RowStorage.Sound s)
    (h : opened name s = (.ok ⟨some table⟩, t)) (id : RegisterId) :
    RowStorage.rows t table id ≠ some .start ∧ RowStorage.rows t table id ≠ some .onQueue := by
  obtain ⟨_, u, hl, hquiet, hrepair⟩ := opened_ok h
  obtain ⟨v, n₁, n₂, h₁, h₂⟩ := repair_ok hrepair
  have hu := RowStorage.sound sound (.quiet hquiet)
  have hv : RowStorage.Sound v := by
    have hsound := RowStorage.sound hu (.updateStatus table [.start] .interrupted)
    rwa [h₁] at hsound
  rw [RowStorage.sweep_ok hv h₂, RowStorage.sweep_ok hu h₁]
  simp only [Rows.sweep, if_true]
  cases RowStorage.rows u table id with
  | none => simp
  | some status => cases status <;> simp

end Logger

end ProcessRuns
