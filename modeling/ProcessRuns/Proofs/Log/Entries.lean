import Mathlib.Data.Set.Basic
import Mathlib.Order.Bounds.Defs
import ProcessRuns.Proofs.Log.Calls
import ProcessRuns.Proofs.Log.Journal

/-! # Rows with their dates

Beside its status a row says of which process it is and how new the data is that its run produced. `EntryStorage`
states what a process log relies on in its storage as to these: a call that succeeds has done to the rows what it says,
one that fails has done nothing, and the newest date of a process is looked for in its rows. The storage in memory is
one; so is any of them behind a journal, and with any pattern of calls that fail. -/

namespace ProcessRuns

namespace Instant

theorem latest_eq (a b : Instant) : latest a b = a ∨ latest a b = b := by
  unfold latest
  split
  · exact Or.inr rfl
  · exact Or.inl rfl

theorem le_latest (a b : Instant) : a ≤ latest a b ∧ b ≤ latest a b := by
  unfold latest
  split
  · rename_i hab
    exact ⟨hab, le_refl b⟩
  · rename_i hab
    exact ⟨le_refl a, (le_total a b).resolve_left hab⟩

/-- The newest of some dates, if there are any. -/
def Newest (dates : Set Instant) : Option Instant → Prop
  | none => dates = ∅
  | some a => IsGreatest dates a

/-- The newest of all dates is the newest of some exactly if none of the others is newer than all of these. -/
theorem newest_left_iff {dates others : Set Instant} {d : Option Instant} (h : Newest (dates ∪ others) d) :
    Newest dates d ↔ ∀ a ∈ others, ∃ b ∈ dates, a ≤ b := by
  cases d with
  | none =>
    have hempty : dates ∪ others = ∅ := h
    obtain ⟨hdates, hothers⟩ := Set.union_empty_iff.mp hempty
    refine ⟨fun _ a ha => ?_, fun _ => hdates⟩
    rw [hothers] at ha
    cases ha
  | some a =>
    obtain ⟨hmem, hupper⟩ := h
    refine ⟨fun hdates b hb => ⟨a, hdates.1, hupper (Or.inr hb)⟩,
      fun hcovered => ⟨?_, fun b hb => hupper (Or.inl hb)⟩⟩
    rcases hmem with hdates | hothers
    · exact hdates
    · obtain ⟨b, hb, hab⟩ := hcovered a hothers
      rwa [le_antisymm hab (hupper (Or.inl hb))]

theorem greatest_foldl_latest (a : Instant) (rest : List Instant) :
    IsGreatest {x | x = a ∨ x ∈ rest} (rest.foldl latest a) := by
  induction rest generalizing a with
  | nil =>
    refine ⟨Or.inl rfl, ?_⟩
    rintro x (rfl | hx)
    · exact le_refl x
    · cases hx
  | cons b rest ih =>
    obtain ⟨hmem, hupper⟩ := ih (latest a b)
    have hlatest : latest a b ≤ rest.foldl latest (latest a b) := hupper (Or.inl rfl)
    constructor
    · rcases hmem with heq | hrest
      · rw [List.foldl_cons, heq]
        rcases latest_eq a b with hl | hl <;> rw [hl]
        · exact Or.inl rfl
        · exact Or.inr List.mem_cons_self
      · exact Or.inr (List.mem_cons_of_mem _ hrest)
    · rintro x (rfl | hx)
      · exact le_trans (le_latest x b).1 hlatest
      · rcases List.mem_cons.mp hx with rfl | hx
        · exact le_trans (le_latest a x).2 hlatest
        · exact hupper (Or.inr hx)

theorem newest_latest? (l : List Instant) : Newest {a | a ∈ l} (MemoryTable.latest? l) := by
  cases l with
  | nil => exact Set.ext fun a => ⟨fun ha => absurd ha List.not_mem_nil, False.elim⟩
  | cons a rest =>
    simp only [List.mem_cons]
    exact greatest_foldl_latest a rest

end Instant

/-- What a row says of its run. -/
structure Entry where
  processId : ProcessId
  status : Status
  /-- The time of the newest data that the run produced. -/
  date : Option Instant
deriving DecidableEq

/-- What the rows of all tables say. -/
abbrev Entries : Type := LogTable → RegisterId → Option Entry

namespace Entries

/-- One entry more, or another one in its place. -/
def insert (es : Entries) (table : LogTable) (id : RegisterId) (e : Entry) : Entries := fun t i =>
  if t = table ∧ i = id then some e else es t i

/-- The rows with another status and date in one of them, if it is there. -/
def write (es : Entries) (table : LogTable) (id : RegisterId) (status : Status) (date : Option Instant) : Entries :=
  fun t i => if t = table ∧ i = id then (es t i).map fun e => { e with status, date } else es t i

/-- The dates that the rows of a process say. -/
def dates (es : Entries) (table : LogTable) (pid : ProcessId) : Set Instant :=
  {a | ∃ id e, es table id = some e ∧ e.processId = pid ∧ e.date = some a}

variable {es : Entries} {table : LogTable} {id i : RegisterId} {e : Entry} {status : Status} {date : Option Instant}

theorem insert_self : es.insert table id e table id = some e := if_pos ⟨rfl, rfl⟩

theorem insert_of_ne (h : i ≠ id) : es.insert table id e table i = es table i := if_neg fun hcase => h hcase.2

theorem write_self (there : es table id = some e) :
    es.write table id status date table id = some ⟨e.processId, status, date⟩ := by
  rw [write, if_pos ⟨rfl, rfl⟩, there]
  rfl

theorem write_of_ne (h : i ≠ id) : es.write table id status date table i = es table i := if_neg fun hcase => h hcase.2

end Entries

/-- A storage of whose rows it can be seen what they say. -/
class EntryStorage (σ : Type) [Storage σ] [RowStorage σ] where
  entries : σ → Entries
  rows (s : σ) (table : LogTable) (id : RegisterId) : RowStorage.rows s table id = (entries s table id).map (·.status)
  quiet {s t : σ} : RowStorage.Sound s → Storage.Quiet s t → entries t = entries s
  insert_ok {s t : σ} {table : LogTable} {pid : ProcessId} {status : Status} {now : Instant} {id : RegisterId} :
    RowStorage.Sound s → Storage.insertRegister table pid status now s = (.ok id, t) →
      entries t = (entries s).insert table id ⟨pid, status, none⟩
  insert_error {s t : σ} {table : LogTable} {pid : ProcessId} {status : Status} {now : Instant} {e : Failure} :
    RowStorage.Sound s → Storage.insertRegister table pid status now s = (.error e, t) → entries t = entries s
  update_ok {s t : σ} {table : LogTable} {id : RegisterId} {status : Status} {date : Option Instant} {now : Instant}
    {found : Bool} :
    RowStorage.Sound s → Storage.updateResult table id status date now s = (.ok found, t) →
      entries t = (entries s).write table id status date
  update_error {s t : σ} {table : LogTable} {id : RegisterId} {status : Status} {date : Option Instant} {now : Instant}
    {e : Failure} :
    RowStorage.Sound s → Storage.updateResult table id status date now s = (.error e, t) → entries t = entries s
  newest_ok {s t : σ} {table : LogTable} {pid : ProcessId} {d : Option Instant} :
    RowStorage.Sound s → Storage.maxData table pid s = (.ok d, t) → Instant.Newest ((entries s).dates table pid) d

/-- A new register has a number that no row has. -/
theorem EntryStorage.insert_fresh {σ : Type} [Storage σ] [RowStorage σ] [EntryStorage σ] {s t : σ} {table : LogTable}
    {pid : ProcessId} {status : Status} {now : Instant} {id : RegisterId} (sound : RowStorage.Sound s)
    (h : Storage.insertRegister table pid status now s = (.ok id, t)) : entries s table id = none := by
  have hnone := (RowStorage.insert_ok sound h).1
  rwa [EntryStorage.rows, Option.map_eq_none_iff] at hnone

/-- A status that is written to a row that is there finds it. -/
theorem EntryStorage.update_found {σ : Type} [Storage σ] [RowStorage σ] [EntryStorage σ] {s t : σ} {table : LogTable}
    {id : RegisterId} {status : Status} {date : Option Instant} {now : Instant} {found : Bool}
    (sound : RowStorage.Sound s)
    (there : (entries s table id).isSome) (h : Storage.updateResult table id status date now s = (.ok found, t)) :
    found = true := by
  rw [(RowStorage.update_ok sound h).1, EntryStorage.rows, Option.isSome_map, there]

/-- A status is written to a row that is there, or the log says that it was not. -/
theorem Logger.result_cases {σ : Type} [Storage σ] [RowStorage σ] [EntryStorage σ] {l : Logger} {table : LogTable}
    (hl : l.table = some table) {s : σ} (sound : RowStorage.Sound s) {id : RegisterId}
    (there : (EntryStorage.entries s table id).isSome) (status : Status) (date : Option Instant) (now : Instant) :
    (l.result status date id now s).1.isOk = true ∧
      EntryStorage.entries (l.result status date id now s).2 = (EntryStorage.entries s).write table id status date ∨
    (l.result status date id now s).1.isOk = false ∧
      EntryStorage.entries (l.result status date id now s).2 = EntryStorage.entries s := by
  rw [l.result_apply s hl]
  cases hcall : Storage.updateResult table id status date now s with
  | mk outcome t =>
    cases outcome with
    | error e =>
      rw [expect_error hcall]
      exact Or.inr ⟨rfl, EntryStorage.update_error sound hcall⟩
    | ok found =>
      obtain rfl := EntryStorage.update_found sound there hcall
      rw [expect_found hcall]
      exact Or.inl ⟨rfl, EntryStorage.update_ok sound hcall⟩

/-! ## The storage in memory -/

namespace Memory

variable {m n : Memory} {table : LogTable} {t : MemoryTable}

/-- The entries of the tables in memory. -/
def entries (m : Memory) : Entries := fun table id =>
  ((m.tables.get? table).bind (·.find? id)).map fun r => ⟨r.processId, r.status, r.dataTimestamp⟩

theorem entries_eq (m : Memory) : m.entries = m.view fun r => ⟨r.processId, r.status, r.dataTimestamp⟩ := rfl

theorem rows_entries (m : Memory) (table : LogTable) (id : RegisterId) :
    m.rows table id = (m.entries table id).map (·.status) := by
  rw [rows, entries, Option.map_map]
  cases m.tables.get? table <;> rfl

theorem entries_insert (hm : m.Sound) {pid : ProcessId} {status : Status} {now : Instant} {id : RegisterId}
    (h : Storage.insertRegister table pid status now m = (.ok id, n)) :
    n.entries = m.entries.insert table id ⟨pid, status, none⟩ :=
  funext fun other => funext fun i => view_insertRegister _ hm h other i

theorem entries_update {id : RegisterId} {status : Status} {date : Option Instant} {now : Instant} {found : Bool}
    (h : Storage.updateResult table id status date now m = (.ok found, n)) :
    n.entries = m.entries.write table id status date := by
  funext other i
  rw [entries_eq, view_updateResult _ h, Entries.write]
  split
  · rw [entries, Option.map_map]
    rfl
  · rfl

/-- The newest of the dates that are picked from the registers of a process. -/
theorem newest_query {pick : Register → Option Instant} {pid : ProcessId} {d : Option Instant} (hm : m.Sound)
    (h : query table (fun t => MemoryTable.latest? ((t.ofProcess pid).filterMap pick)) m = (.ok d, n)) :
    Instant.Newest {a | ∃ id r, (m.tables.get? table).bind (·.find? id) = some r ∧ r.processId = pid ∧
        pick r = some a} d := by
  unfold query at h
  split at h
  · cases h
  · rename_i t ht
    cases h
    have hdates : {a | ∃ id r, (m.tables.get? table).bind (·.find? id) = some r ∧ r.processId = pid ∧
      pick r = some a} =
        {a | a ∈ (t.ofProcess pid).filterMap pick} := by
      ext a
      simp only [ht, Option.bind_some, Set.mem_ofPred_eq, List.mem_filterMap, MemoryTable.ofProcess, List.mem_filter,
        decide_eq_true_eq]
      constructor
      · rintro ⟨id, r, hr, hpid, hpick⟩
        exact ⟨r, ⟨List.mem_of_find?_eq_some hr, hpid⟩, hpick⟩
      · rintro ⟨r, ⟨hr, hpid⟩, hpick⟩
        exact ⟨r.id, r, MemoryTable.Numbered.find?_mem (hm table t ht) hr, hpid, hpick⟩
    rw [hdates]
    exact Instant.newest_latest? _

theorem newest_ok {pid : ProcessId} {d : Option Instant} (hm : m.Sound) (h : Storage.maxData table pid m = (.ok d, n)) :
    Instant.Newest (m.entries.dates table pid) d := by
  have hdates : m.entries.dates table pid = {a | ∃ id r, (m.tables.get? table).bind (·.find? id) = some r ∧
      r.processId = pid ∧ r.dataTimestamp = some a} := by
    ext a
    constructor
    · rintro ⟨id, e, he, hpid, hdate⟩
      obtain ⟨r, hr, rfl⟩ := Option.map_eq_some_iff.mp he
      exact ⟨id, r, hr, hpid, hdate⟩
    · rintro ⟨id, r, hr, hpid, hdate⟩
      exact ⟨id, _, Option.map_eq_some_iff.mpr ⟨r, hr, rfl⟩, hpid, hdate⟩
  rw [hdates]
  exact newest_query hm h

instance : EntryStorage Memory where
  entries := entries
  rows := rows_entries
  quiet _ h := view_quiet _ (fun _ _ => rfl) h
  insert_ok hm h := entries_insert hm h
  insert_error _ h := congrArg entries (onTable_error h)
  update_ok _ h := entries_update h
  update_error _ h := congrArg entries (onTable_error h)
  newest_ok hm h := newest_ok hm h

end Memory

/-! ## Storages around others -/

section
variable {σ : Type} [Storage σ] [RowStorage σ] [EntryStorage σ]

instance : EntryStorage (Journaled σ) where
  entries j := EntryStorage.entries j.storage
  rows j := EntryStorage.rows j.storage
  quiet hj h := EntryStorage.quiet hj (Journaled.quiet_inside h)
  insert_ok hj h := EntryStorage.insert_ok hj (Journaled.asking_inside h)
  insert_error hj h := EntryStorage.insert_error hj (Journaled.asking_inside h)
  update_ok hj h := EntryStorage.update_ok hj (Journaled.asking_inside h)
  update_error hj h := EntryStorage.update_error hj (Journaled.asking_inside h)
  newest_ok hj h := EntryStorage.newest_ok hj (Journaled.asking_inside h)

variable {l : Logger} {table : LogTable} {j : Journaled σ}

/-- A status is written to a row that is there, by a call that does not fail. -/
theorem Journaled.result_ok (hl : l.table = some table) (sound : RowStorage.Sound j) {id : RegisterId}
    (there : (EntryStorage.entries j table id).isSome) {status : Status} {date : Option Instant} {now : Instant}
    (ok : (l.result status date id now j).2.failures = []) : (l.result status date id now j).1.isOk = true := by
  rw [l.result_snd j hl] at ok
  obtain ⟨-, found, hfound⟩ := asking_failures ok
  have hcall : Storage.updateResult table id status date now j =
      (.ok found, (Storage.updateResult table id status date now j).2) := Prod.ext hfound rfl
  obtain rfl := EntryStorage.update_found sound there hcall
  rw [l.result_apply j hl, Logger.expect_found hcall]
  rfl

/-- The log tells the newest date in the rows of a process, by a call that does not fail. -/
theorem Journaled.lastData_ok (hl : l.table = some table) (sound : RowStorage.Sound j) {pid : ProcessId}
    (ok : (l.lastData pid j).2.failures = []) :
    j.failures = [] ∧ ∃ d, (l.lastData pid j).1 = .ok d ∧
        Instant.Newest ((EntryStorage.entries j).dates table pid) d := by
  rw [l.lastData_apply j hl] at ok ⊢
  obtain ⟨hbefore, d, hd⟩ := asking_failures ok
  have hcall : Storage.maxData table pid j = (.ok d, (Storage.maxData table pid j).2) := Prod.ext hd rfl
  exact ⟨hbefore, d, hd, EntryStorage.newest_ok sound hcall⟩

end

/-- A storage of which each call may fail before it does anything. -/
structure Flaky (σ : Type) where
  storage : σ
  /-- Whether the calls to come fail; later ones do not. -/
  failing : List Bool := []

namespace Flaky

variable {σ α : Type}

/-- A call whose failure is the next one on the list, or not. -/
def asking (call : StorageCall) (a : Action σ α) : Action (Flaky σ) α := fun s =>
  if s.failing.headD false then (.error (.injected call), { s with failing := s.failing.tail })
  else ((a s.storage).1, ⟨(a s.storage).2, s.failing.tail⟩)

instance [Storage σ] : Storage (Flaky σ) where
  init table := asking .init (Storage.init table)
  insertRegister table pid status now := asking .insertRegister (Storage.insertRegister table pid status now)
  updateResult table id status date now := asking .updateResult (Storage.updateResult table id status date now)
  insertMessage table id type description now :=
    asking .insertMessage (Storage.insertMessage table id type description now)
  appendValue table id tag value := asking .appendValue (Storage.appendValue table id tag value)
  maxLastProcess table pid := asking .maxLastProcess (Storage.maxLastProcess table pid)
  maxData table pid := asking .maxData (Storage.maxData table pid)
  registers table pid offset limit := asking .registers (Storage.registers table pid offset limit)
  messages table ids := asking .messages (Storage.messages table ids)
  updateStatus table old new := asking .updateStatus (Storage.updateStatus table old new)

variable {s t : Flaky σ} {call : StorageCall} {a : Action σ α}

/-- A call fails and does nothing, or it is one of the storage inside. -/
theorem asking_cases (call : StorageCall) (a : Action σ α) (s : Flaky σ) :
    (∃ t, asking call a s = (.error (.injected call), t) ∧ t.storage = s.storage) ∨
      ∃ t, asking call a s = ((a s.storage).1, t) ∧ t.storage = (a s.storage).2 := by
  unfold asking
  split
  · exact Or.inl ⟨_, rfl, rfl⟩
  · exact Or.inr ⟨_, rfl, rfl⟩

theorem asking_ok {x : α} (h : asking call a s = (.ok x, t)) : a s.storage = (.ok x, t.storage) := by
  rcases asking_cases call a s with ⟨u, hu, -⟩ | ⟨u, hu, hstorage⟩ <;> rw [h] at hu
  · cases hu
  · obtain ⟨hanswer, rfl⟩ := Prod.mk.inj hu
    exact Prod.ext hanswer.symm hstorage.symm

theorem asking_error {e : Failure} (h : asking call a s = (.error e, t)) :
    t.storage = s.storage ∨ a s.storage = (.error e, t.storage) := by
  rcases asking_cases call a s with ⟨u, hu, hstorage⟩ | ⟨u, hu, hstorage⟩ <;> rw [h] at hu
  · cases hu
    exact Or.inl hstorage
  · obtain ⟨hanswer, rfl⟩ := Prod.mk.inj hu
    exact Or.inr (Prod.ext hanswer.symm hstorage.symm)

theorem asking_snd (call : StorageCall) (a : Action σ α) (s : Flaky σ) :
    (asking call a s).2.storage = s.storage ∨ (asking call a s).2.storage = (a s.storage).2 := by
  rcases asking_cases call a s with ⟨u, hu, hstorage⟩ | ⟨u, hu, hstorage⟩ <;> rw [hu]
  · exact Or.inl hstorage
  · exact Or.inr hstorage

section
variable [Storage σ]

theorem quiet_inside (h : Storage.Quiet s t) : Storage.Quiet s.storage t.storage := by
  have either : ∀ {α : Type} {call : StorageCall} {a : Action σ α}, Storage.Quiet s.storage (a s.storage).2 →
      Storage.Quiet s.storage (asking call a s).2.storage := by
    intro α call a h
    rcases asking_snd call a s with hsame | hinside
    · exact hsame ▸ .none
    · exact hinside ▸ h
  cases h with
  | none => exact .none
  | init table => exact either (.init table)
  | insertMessage table id type description now => exact either (.insertMessage table id type description now)
  | appendValue table id tag value => exact either (.appendValue table id tag value)
  | maxLastProcess table pid => exact either (.maxLastProcess table pid)
  | maxData table pid => exact either (.maxData table pid)
  | registers table pid offset limit => exact either (.registers table pid offset limit)
  | messages table ids => exact either (.messages table ids)

theorem call_inside (h : Storage.Call s t) : Storage.Call s.storage t.storage := by
  have either : ∀ {α : Type} {call : StorageCall} {a : Action σ α}, Storage.Call s.storage (a s.storage).2 →
      Storage.Call s.storage (asking call a s).2.storage := by
    intro α call a h
    rcases asking_snd call a s with hsame | hinside
    · exact hsame ▸ .quiet .none
    · exact hinside ▸ h
  cases h with
  | quiet h => exact .quiet (quiet_inside h)
  | insertRegister table pid status now => exact either (.insertRegister table pid status now)
  | updateResult table id status date now => exact either (.updateResult table id status date now)
  | updateStatus table old new => exact either (.updateStatus table old new)

instance [RowStorage σ] : RowStorage (Flaky σ) where
  Sound s := RowStorage.Sound s.storage
  rows s := RowStorage.rows s.storage
  sound hs h := RowStorage.sound hs (call_inside h)
  kept hs h := RowStorage.kept hs (call_inside h)
  quiet hs h := RowStorage.quiet hs (quiet_inside h)
  insert_ok hs h := RowStorage.insert_ok hs (asking_ok h)
  update_ok hs h := RowStorage.update_ok hs (asking_ok h)
  sweep_ok hs h := RowStorage.sweep_ok hs (asking_ok h)

instance [RowStorage σ] [EntryStorage σ] : EntryStorage (Flaky σ) where
  entries s := EntryStorage.entries s.storage
  rows s := EntryStorage.rows s.storage
  quiet hs h := EntryStorage.quiet hs (quiet_inside h)
  insert_ok hs h := EntryStorage.insert_ok hs (asking_ok h)
  insert_error hs h := (asking_error h).elim (congrArg EntryStorage.entries) (EntryStorage.insert_error hs)
  update_ok hs h := EntryStorage.update_ok hs (asking_ok h)
  update_error hs h := (asking_error h).elim (congrArg EntryStorage.entries) (EntryStorage.update_error hs)
  newest_ok hs h := EntryStorage.newest_ok hs (asking_ok h)

end

end Flaky

end ProcessRuns
