import ProcessRuns.Proofs.Log.FailedSelections

/-! # Repairs

A selection of tables creates them where they are missing, and then marks every register in them that is open: one
that says it was started as interrupted, and one that says it is queued as not executed. No mark is one that a repair
goes by. So a table that was repaired stays as it is, and however many selections have stopped on their way, the first
one that comes to its end leaves what a single one would have left. -/

namespace ProcessRuns

/-! ## What a repair does to the rows -/

/-- What a log that is opened again makes of a status. -/
def Status.repaired : Status → Status
  | .start => .interrupted
  | .onQueue => .notExecuted
  | status => status

theorem Status.repaired_interrupted (row : Option Status) :
    (row.map repaired = some .interrupted ∧ row ≠ some .interrupted) ↔ row = some .start := by
  cases row with
  | none => simp
  | some status => cases status <;> simp [repaired]

theorem Status.repaired_notExecuted (row : Option Status) :
    (row.map repaired = some .notExecuted ∧ row ≠ some .notExecuted) ↔ row = some .onQueue := by
  cases row with
  | none => simp
  | some status => cases status <;> simp [repaired]

theorem Status.repaired_closed {row : Option Status} (closed : ¬ (row = some .start ∨ row = some .onQueue)) :
    row.map repaired = row := by
  cases row with
  | none => rfl
  | some status => cases status <;> first | rfl | exact absurd (by simp) closed

namespace Logger

variable {σ : Type} [Storage σ] [RowStorage σ]

theorem rows_opened {name : String} {s t : σ} {table : LogTable} (sound : RowStorage.Sound s)
    (h : opened name s = (.ok ⟨some table⟩, t)) :
    (∀ id, RowStorage.rows t table id = (RowStorage.rows s table id).map Status.repaired) ∧
    ∀ other, other ≠ table → RowStorage.rows t other = RowStorage.rows s other := by
  obtain ⟨table', u, hl, hquiet, hrepair⟩ := opened_ok h
  cases hl
  obtain ⟨v, n₁, n₂, h₁, h₂⟩ := repair_ok hrepair
  have hu := RowStorage.sound sound (.quiet hquiet)
  have hv : RowStorage.Sound v := by
    have hsound := RowStorage.sound hu (.updateStatus table [.start] .interrupted)
    rwa [h₁] at hsound
  have hrows : RowStorage.rows t =
      ((RowStorage.rows s).sweep table [.start] .interrupted).sweep table [.onQueue] .notExecuted := by
    rw [RowStorage.sweep_ok hv h₂, RowStorage.sweep_ok hu h₁, RowStorage.quiet sound hquiet]
  rw [hrows]
  refine ⟨fun id => ?_, fun other hother => funext fun id => ?_⟩
  · simp only [Rows.sweep, if_true, Option.map_map]
    refine Option.map_congr fun status _ => ?_
    cases status <;> rfl
  · simp only [Rows.sweep, if_neg hother]

end Logger

/-! ## Selections -/

namespace Logger

variable {σ : Type} [Storage σ] {name : String} {l l' : Logger} {table : LogTable} {s s₁ s₂ t : σ} {n₁ n₂ : Nat}

theorem repair_of_ok (h₁ : Storage.updateStatus table [.start] .interrupted s = (.ok n₁, s₁))
    (h₂ : Storage.updateStatus table [.onQueue] .notExecuted s₁ = (.ok n₂, t)) :
    (⟨some table⟩ : Logger).repair s = (.ok (), t) := by
  have hfirst : (⟨some table⟩ : Logger).updateStatus [.start] .interrupted s = (.ok n₁, s₁) := h₁
  have hsecond : (⟨some table⟩ : Logger).updateStatus [.onQueue] .notExecuted s₁ = (.ok n₂, t) := h₂
  rw [repair, Action.bind_apply, hfirst]
  simp only [Action.bind_apply, hsecond]
  rfl

/-- A selection succeeds if each of its three calls does. -/
theorem select_of_ok (hname : LogTable.ofName name = .ok table) (h : Storage.init table s = (.ok (), s₁))
    (h₁ : Storage.updateStatus table [.start] .interrupted s₁ = (.ok n₁, s₂))
    (h₂ : Storage.updateStatus table [.onQueue] .notExecuted s₂ = (.ok n₂, t)) (l : Logger) :
    select name (l, s) = (.ok (), ⟨some table⟩, t) := by
  rw [select_apply, turn_of_ok hname l h]
  simp only [repair_of_ok h₁ h₂]

theorem select_ok (hname : LogTable.ofName name = .ok table) (h : select name (l, s) = (.ok (), l', t)) :
    ∃ s₁ s₂ n₁ n₂, Storage.init table s = (.ok (), s₁) ∧
      Storage.updateStatus table [.start] .interrupted s₁ = (.ok n₁, s₂) ∧
      Storage.updateStatus table [.onQueue] .notExecuted s₂ = (.ok n₂, t) := by
  rw [select_apply] at h
  cases hinit : Storage.init table s with
  | mk r s₁ =>
    cases r with
    | error e =>
      rw [turn_of_error hname l hinit] at h
      cases h
    | ok =>
      rw [turn_of_ok hname l hinit] at h
      obtain ⟨hresult, hrest⟩ := Prod.mk.inj h
      obtain ⟨s₂, n₁, n₂, h₁, h₂⟩ := repair_ok (Prod.ext hresult (Prod.mk.inj hrest).2)
      exact ⟨s₁, s₂, n₁, n₂, rfl, h₁, h₂⟩

/-- What each call of a selection keeps, the selection keeps wherever it stops. -/
theorem keep_selection {P : σ → Prop} (hname : LogTable.ofName name = .ok table)
    (each : ∀ o ∈ selection table, ∀ s, P s → P (o.perform s).2) (l : Logger) (hs : P s) :
    P (select name (l, s)).2.2 := by
  obtain ⟨asked, -, hafter, hasked⟩ := LogCall.select_noted l ⟨s, []⟩ name
  simp only [LogCall.act] at hafter
  rw [hafter, Operation.after]
  refine List.foldlRecOn (motive := P) asked _ hs fun t ht o ho => each o ?_ t ht
  obtain ⟨other, hother, hrequest⟩ := hasked o ho
  have hsame : other = table := Except.ok.inj (hother.symm.trans hname)
  rw [hsame] at hrequest
  have hcases : o = .init table ∨ o = .updateStatus table [.start] .interrupted ∨
      o = .updateStatus table [.onQueue] .notExecuted := hrequest
  simpa [selection] using hcases

/-- The storage after some loggers have tried to select the tables of a name, whatever came of it. -/
def attempts (name : String) (s : σ) (loggers : List Logger) : σ :=
    loggers.foldl (fun s l => (select name (l, s)).2.2) s

end Logger

/-! ## Tables in memory -/

namespace MemoryTable

variable {old : List Status} {new : Status}

/-- The table with every open register marked. -/
def repaired (t : MemoryTable) : MemoryTable :=
  { t with registers := t.registers.map fun r => { r with status := r.status.repaired } }

/-- A repair makes no difference between statuses that it marks alike, nor then between tables. -/
theorem repaired_updateStatus (alike : ∀ status ∈ old, status.repaired = new.repaired) (t : MemoryTable) :
    (t.updateStatus old new).repaired = t.repaired := by
  simp only [repaired, updateStatus, List.map_map, mk.injEq, true_and, and_true]
  refine List.map_congr_left fun r _ => ?_
  rw [Function.comp_apply]
  split
  · rename_i hold
    rw [alike r.status hold]
  · rfl

theorem repaired_repaired (t : MemoryTable) : t.repaired.repaired = t.repaired := by
  simp only [repaired, List.map_map, mk.injEq, true_and, and_true]
  refine List.map_congr_left fun r _ => ?_
  rw [Function.comp_apply]
  cases r.status <;> rfl

/-- The two updates of a repair. -/
theorem updateStatus_updateStatus (t : MemoryTable) :
    (t.updateStatus [.start] .interrupted).updateStatus [.onQueue] .notExecuted = t.repaired := by
  simp only [repaired, updateStatus, List.map_map, mk.injEq, true_and, and_true]
  refine List.map_congr_left fun r _ => ?_
  rw [Function.comp_apply]
  obtain ⟨id, processId, status, start, dataTimestamp, lastProcess, data⟩ := r
  cases status <;> rfl

theorem none_open_of_repaired {t : MemoryTable} {r : Register} (h : r ∈ t.repaired.registers) :
    r.status ≠ .start ∧ r.status ≠ .onQueue := by
  obtain ⟨q, -, rfl⟩ := List.mem_map.mp h
  cases q.status <;> simp [Status.repaired]

end MemoryTable

namespace Memory

variable {m : Memory} {table : LogTable} {t : MemoryTable}

/-- The memory with a table created where it is missing, and with every open register of it marked. -/
def repaired (m : Memory) (table : LogTable) : Memory := ⟨m.tables.set table (m.tableAt table).repaired⟩

theorem tableAt_set (m : Memory) (table : LogTable) (t : MemoryTable) : tableAt ⟨m.tables.set table t⟩ table = t :=
  tableAt_eq (Keyed.get?_set_self ..)

theorem repaired_set (h : t.repaired = (m.tableAt table).repaired) :
    repaired ⟨m.tables.set table t⟩ table = m.repaired table := by
  rw [repaired, tableAt_set, Keyed.set_set, h, repaired]

theorem repaired_repaired (m : Memory) (table : LogTable) : (m.repaired table).repaired table = m.repaired table :=
  repaired_set (MemoryTable.repaired_repaired _)

/-- To create a table is to put it where it is, if it is anywhere. -/
theorem init_eq (m : Memory) (table : LogTable) :
    Storage.init table m = (.ok (), ⟨m.tables.set table (m.tableAt table)⟩) := by
  rcases init_cases table m with ⟨⟨t, ht⟩, hcall⟩ | ⟨hnone, hcall⟩ <;> rw [hcall]
  · rw [tableAt_eq ht, Keyed.set_same ht]
  · rw [tableAt, hnone, Option.getD_none]

theorem updateStatus_set (m : Memory) (table : LogTable) (t : MemoryTable) (old : List Status) (new : Status) :
    Storage.updateStatus table old new ⟨m.tables.set table t⟩ =
      (.ok (t.registers.countP fun r => r.status ∈ old),
          (⟨m.tables.set table (t.updateStatus old new)⟩ : Memory)) := by
  simp only [Storage.updateStatus, onTable, Keyed.get?_set_self, Keyed.set_set]

/-- A selection in memory succeeds. -/
theorem select_eq {name : String} (hname : LogTable.ofName name = .ok table) (l : Logger) (m : Memory) :
    Logger.select name (l, m) = (.ok (), ⟨some table⟩, m.repaired table) := by
  have hsecond := m.updateStatus_set table ((m.tableAt table).updateStatus [.start] .interrupted)
    [.onQueue] .notExecuted
  rw [MemoryTable.updateStatus_updateStatus] at hsecond
  exact Logger.select_of_ok hname (m.init_eq table) (m.updateStatus_set table _ _ _) hsecond l

/-- It makes no difference to a repair if some of a selection was done before. -/
theorem repaired_perform {o : Operation} (ho : o ∈ Logger.selection table) (m : Memory) :
    (o.perform m).2.repaired table = m.repaired table := by
  have update : ∀ {old : List Status} {new : Status}, (∀ status ∈ old, status.repaired = new.repaired) →
      (Storage.updateStatus table old new m).2.repaired table = m.repaired table := by
    intro old new alike
    rcases onTable_cases table
        (fun t => .ok (t.registers.countP fun r => r.status ∈ old, t.updateStatus old new)) m with
      ⟨e, hcall⟩ | ⟨t, x, u, ht, hf, hcall⟩ <;> simp only [Storage.updateStatus, hcall]
    cases hf
    exact repaired_set (by rw [tableAt_eq ht, MemoryTable.repaired_updateStatus alike])
  simp only [Logger.selection, List.mem_cons, List.not_mem_nil, or_false] at ho
  rcases ho with rfl | rfl | rfl <;> rw [Operation.perform, Action.map_apply]
  · rw [init_eq]
    exact repaired_set rfl
  · exact update (by simp [Status.repaired])
  · exact update (by simp [Status.repaired])

end Memory

/-! ## Selections that stop on their way -/

namespace Flaky

variable {σ : Type} [Storage σ]

theorem perform_snd (o : Operation) (s : Flaky σ) :
    (o.perform s).2.storage = s.storage ∨ (o.perform s).2.storage = (o.perform s.storage).2 := by
  cases o <;> simp only [Operation.perform, Action.map_apply] <;> exact asking_snd _ _ s

/-- A selection that succeeds has done what it would do if no call failed. -/
theorem select_inside {name : String} {table : LogTable} (hname : LogTable.ofName name = .ok table)
    {l : Logger} {s : Flaky σ}
    (h : (Logger.select name (l, s)).1 = .ok ()) :
    (Logger.select name (l, s)).2.2.storage = (Logger.select name (l, s.storage)).2.2 := by
  rcases hselect : Logger.select name (l, s) with ⟨r, l', t⟩
  rw [hselect] at h
  obtain rfl : r = .ok () := h
  obtain ⟨s₁, s₂, n₁, n₂, hinit, h₁, h₂⟩ := Logger.select_ok hname hselect
  rw [Logger.select_of_ok hname (asking_ok hinit) (asking_ok h₁) (asking_ok h₂) l]

end Flaky

namespace Logger

variable {name : String} {table : LogTable}

/-- Whether attempts succeed or stop, a repair makes of the table what it would have made of it before. -/
theorem repaired_attempts (hname : LogTable.ofName name = .ok table) (loggers : List Logger) (s : Flaky Memory) :
    (attempts name s loggers).storage.repaired table = s.storage.repaired table := by
  refine List.foldlRecOn (motive := fun t : Flaky Memory => t.storage.repaired table =
    s.storage.repaired table) loggers _
    rfl fun t ht l _ => ?_
  refine keep_selection (P := fun t : Flaky Memory => t.storage.repaired table = s.storage.repaired table) hname
    (fun o ho u hu => ?_) l ht
  rcases Flaky.perform_snd o u with hsame | hinside
  · rw [hsame, hu]
  · rw [hinside, Memory.repaired_perform ho, hu]

/-- A selection turns every started register of its table to interrupted and every queued one to not executed, and
leaves all else as it was, so that nothing in the table is open; a table that was missing is there and empty. To select
it again changes nothing. And whatever attempts there were before and wherever they stopped, the first selection that
succeeds leaves the same storage as one without them. -/
theorem selection_repairs_and_resumes (m : Memory) (hname : LogTable.ofName name = .ok table) :
    ∃ n : Memory, (∀ l, select name (l, m) = (.ok (), ⟨some table⟩, n)) ∧
      n.tables.get? table = some { m.tableAt table with
        registers := (m.tableAt table).registers.map fun r => { r with status := r.status.repaired } } ∧
      (∀ other, other ≠ table → n.tables.get? other = m.tables.get? other) ∧
      (∀ r ∈ (n.tableAt table).registers, r.status ≠ .start ∧ r.status ≠ .onQueue) ∧
      (∀ l, select name (l, n) = (.ok (), ⟨some table⟩, n)) ∧
      ∀ failing loggers l, let s : Flaky Memory := attempts name ⟨m, failing⟩ loggers;
        (select name (l, s)).1 = .ok () → (select name (l, s)).2.2.storage = n := by
  refine ⟨m.repaired table, fun l => Memory.select_eq hname l m, Keyed.get?_set_self .., fun other hother => ?_,
    fun r hr => ?_, fun l => ?_, ?_⟩
  · exact Keyed.get?_set_of_ne _ _ hother
  · rw [Memory.repaired, Memory.tableAt_set] at hr
    exact MemoryTable.none_open_of_repaired hr
  · rw [Memory.select_eq hname, Memory.repaired_repaired]
  · intro failing loggers l s hok
    rw [Flaky.select_inside hname hok, Memory.select_eq hname]
    exact repaired_attempts hname loggers ⟨m, failing⟩

/-- A register that was started, one that is queued and one that is done, and a message. -/
def leftOpen : MemoryTable where
  lastRegister := 3
  lastMessage := 1
  registers := [⟨1, 7, .start, .epoch, none, .epoch, none⟩, ⟨2, 7, .onQueue, .epoch, none, .epoch, none⟩,
    ⟨3, 8, .done, .epoch, some .epoch, .epoch, none⟩]
  messages := [⟨1, 1, .info, "loaded", .epoch⟩]

/-- One attempt stops before the first update, the next one before the second. -/
theorem selection_repairs_and_resumes_of_twoStops :
    let m : Memory := ⟨⟨[(⟨"log", by decide⟩, leftOpen)]⟩⟩
    let s : Flaky Memory := attempts "log" ⟨m, [false, true, false, false, true]⟩ [⟨none⟩, ⟨none⟩]
    s.storage ≠ m ∧ (s.storage.tableAt ⟨"log", by decide⟩).status? 2 = some .onQueue ∧
      (select "log" (⟨none⟩, s)).2.2.storage = (select "log" (⟨none⟩, m)).2.2 := by
  intro m s
  have hname : LogTable.ofName "log" = .ok ⟨"log", by decide⟩ := by decide +kernel
  have hok : (select "log" (⟨none⟩, s)).1 = .ok () := by decide +kernel
  obtain ⟨n, honce, -, -, -, -, hresumed⟩ := selection_repairs_and_resumes m hname
  have hstorage : (select "log" (⟨none⟩, s)).2.2.storage = n := hresumed _ [⟨none⟩, ⟨none⟩] ⟨none⟩ hok
  refine ⟨by decide +kernel, by decide +kernel, ?_⟩
  rw [hstorage, honce ⟨none⟩]

end Logger

end ProcessRuns
