import Mathlib.Data.List.Nodup
import ProcessRuns.Log.Memory

/-! # Rows and their statuses

What a process log relies on in its storage, so far as statuses go: a call that succeeds has done to the rows
what it says and nothing else, a new register has an id that no row of its table has, and no row ever goes
away. `RowStorage` states it for any storage; the storage in memory is one, in every state in which its tables
number their registers. -/

namespace ProcessRuns

/-- The statuses of the registers of all tables. -/
abbrev Rows : Type := LogTable → RegisterId → Option Status

namespace Rows

/-- The rows with one more, or with another status in one of them. -/
def set (rows : Rows) (table : LogTable) (id : RegisterId) (status : Status) : Rows := fun t i =>
  if t = table ∧ i = id then some status else rows t i

/-- The rows of a table with a new status in place of some old ones. -/
def sweep (rows : Rows) (table : LogTable) (old : List Status) (new : Status) : Rows := fun t i =>
  if t = table then (rows t i).map fun status => if status ∈ old then new else status else rows t i

end Rows

namespace Storage
variable {σ : Type} [Storage σ]

/-- No call, or one that writes no status and adds no register. -/
inductive Quiet (s : σ) : σ → Prop where
  | none : Quiet s s
  | init (table : LogTable) : Quiet s (Storage.init table s).2
  | insertMessage (table : LogTable) (id : RegisterId) (type : MessageType) (description : String) (now : Instant) :
    Quiet s (Storage.insertMessage table id type description now s).2
  | appendValue (table : LogTable) (id : RegisterId) (tag value : String) :
    Quiet s (Storage.appendValue table id tag value s).2
  | maxLastProcess (table : LogTable) (pid : ProcessId) : Quiet s (Storage.maxLastProcess table pid s).2
  | maxData (table : LogTable) (pid : ProcessId) : Quiet s (Storage.maxData table pid s).2
  | registers (table : LogTable) (pid : ProcessId) (offset limit : Nat) :
    Quiet s (Storage.registers table pid offset limit s).2
  | messages (table : LogTable) (ids : List RegisterId) : Quiet s (Storage.messages table ids s).2

/-- One call of a storage leads from a state to another. -/
inductive Call (s : σ) : σ → Prop where
  | quiet {t : σ} (h : Quiet s t) : Call s t
  | insertRegister (table : LogTable) (pid : ProcessId) (status : Status) (now : Instant) :
    Call s (Storage.insertRegister table pid status now s).2
  | updateResult (table : LogTable) (id : RegisterId) (status : Status) (date : Option Instant) (now : Instant) :
    Call s (Storage.updateResult table id status date now s).2
  | updateStatus (table : LogTable) (old : List Status) (new : Status) : Call s (Storage.updateStatus table old new s).2

/-- Calls of a storage lead from a state to another. -/
inductive Calls (s : σ) : σ → Prop where
  | none : Calls s s
  | next {t u : σ} (before : Calls s t) (call : Call t u) : Calls s u

theorem Call.calls {s t : σ} (h : Call s t) : Calls s t := .next .none h

theorem Calls.trans {s t u : σ} (h : Calls s t) (h' : Calls t u) : Calls s u := by
  induction h' with
  | none => exact h
  | next _ call ih => exact ih.next call

theorem Calls.keep {P : σ → Prop} (each : ∀ s t, P s → Call s t → P t) {s t : σ} (h : Calls s t)
    (hs : P s) : P t := by
  induction h with
  | none => exact hs
  | next _ call ih => exact each _ _ ih call

end Storage

/-- A storage whose rows can be looked at, in the states that its calls lead to. -/
class RowStorage (σ : Type) [Storage σ] where
  Sound : σ → Prop
  rows : σ → Rows
  sound {s t : σ} : Sound s → Storage.Call s t → Sound t
  /-- No row goes away, whether the call succeeds or not. -/
  kept {s t : σ} {table : LogTable} {id : RegisterId} :
    Sound s → Storage.Call s t → (rows s table id).isSome → (rows t table id).isSome
  quiet {s t : σ} : Sound s → Storage.Quiet s t → rows t = rows s
  /-- A new register has an id that was not used. -/
  insert_ok {s t : σ} {table : LogTable} {pid : ProcessId} {status : Status} {now : Instant} {id : RegisterId} :
    Sound s → Storage.insertRegister table pid status now s = (.ok id, t) →
      rows s table id = none ∧ rows t = (rows s).set table id status
  update_ok {s t : σ} {table : LogTable} {id : RegisterId} {status : Status} {date : Option Instant}
    {now : Instant} {found : Bool} :
    Sound s → Storage.updateResult table id status date now s = (.ok found, t) →
      found = (rows s table id).isSome ∧ rows t = if found then (rows s).set table id status else rows s
  sweep_ok {s t : σ} {table : LogTable} {old : List Status} {new : Status} {count : Nat} :
    Sound s → Storage.updateStatus table old new s = (.ok count, t) → rows t = (rows s).sweep table old new

theorem RowStorage.there_after {σ : Type} [Storage σ] [RowStorage σ] {s t : σ} (h : Storage.Calls s t)
    (sound : RowStorage.Sound s) {table : LogTable} {id : RegisterId} (there : (RowStorage.rows s table id).isSome) :
    (RowStorage.rows t table id).isSome := by
  refine (h.keep (P := fun t => RowStorage.Sound t ∧ (RowStorage.rows t table id).isSome) ?_ ⟨sound, there⟩).2
  exact fun _ _ ht call => ⟨RowStorage.sound ht.1 call, RowStorage.kept ht.1 call ht.2⟩

/-- A storage that numbers the registers of a table upwards. -/
class AscendingStorage (σ : Type) [Storage σ] [RowStorage σ] : Prop where
  insert_last {s t : σ} {table : LogTable} {pid : ProcessId} {status : Status} {now : Instant} {id : RegisterId} :
    RowStorage.Sound s → Storage.insertRegister table pid status now s = (.ok id, t) →
      ∀ other, (RowStorage.rows s table other).isSome → other < id

/-! ## The storage in memory -/

namespace MemoryTable

variable {t u : MemoryTable}

/-- The registers are numbered from one, without a gap. -/
def Numbered (t : MemoryTable) : Prop := t.registers.map (·.id) = List.range' 1 t.lastRegister

/-- The status of a register. -/
def status? (t : MemoryTable) (id : RegisterId) : Option Status := (t.find? id).map (·.status)

theorem Numbered.insertRegister (h : t.Numbered) (pid : ProcessId) (status : Status) (now : Instant) :
    (t.insertRegister pid status now).Numbered := by
  simp only [Numbered, MemoryTable.insertRegister, List.map_append, List.map_cons, List.map_nil, List.range'_1_concat]
  rw [h, Nat.add_comm]

theorem Numbered.find?_fresh (h : t.Numbered) : t.find? (t.lastRegister + 1) = none := by
  refine List.find?_eq_none.mpr fun r hr hid => ?_
  have hmem : r.id ∈ List.range' 1 t.lastRegister := h ▸ List.mem_map.mpr ⟨r, hr, rfl⟩
  rw [of_decide_eq_true hid, List.mem_range'_1] at hmem
  omega

theorem Numbered.le_last (h : t.Numbered) {id : RegisterId} (found : (t.status? id).isSome) : id ≤ t.lastRegister := by
  rw [status?, Option.isSome_map] at found
  obtain ⟨r, hr, hid⟩ := List.find?_isSome.mp found
  have hmem : r.id ∈ List.range' 1 t.lastRegister := h ▸ List.mem_map.mpr ⟨r, hr, rfl⟩
  rw [of_decide_eq_true hid, List.mem_range'_1] at hmem
  exact Nat.lt_one_add_iff.mp hmem.2

/-- A register is found by its number. -/
theorem Numbered.find?_mem (h : t.Numbered) {r : Register} (hr : r ∈ t.registers) : t.find? r.id = some r := by
  have hnodup : (t.registers.map (·.id)).Nodup := by
    rw [h]
    exact List.nodup_range'
  have hfound : (t.find? r.id).isSome := List.find?_isSome.mpr ⟨r, hr, decide_eq_true rfl⟩
  obtain ⟨r', hr'⟩ := Option.isSome_iff_exists.mp hfound
  have hid : r'.id = r.id := by simpa using List.find?_some hr'
  rw [hr', List.inj_on_of_nodup_map hnodup (List.mem_of_find?_eq_some hr') hr hid]

theorem Numbered.of_ids (h : t.Numbered) (hids : u.registers.map (·.id) = t.registers.map (·.id))
    (hlast : u.lastRegister = t.lastRegister) : u.Numbered := by
  rw [Numbered, hids, hlast]
  exact h

/-! ### Changes that keep the ids -/

theorem ids_map {f : Register → Register} (hf : ∀ r, (f r).id = r.id) (registers : List Register) :
    (registers.map f).map (·.id) = registers.map (·.id) := by
  rw [List.map_map]
  exact List.map_congr_left fun r _ => hf r

theorem find?_map {f : Register → Register} (hf : ∀ r, (f r).id = r.id) (registers : List Register) (id : RegisterId) :
    (registers.map f).find? (fun r => r.id = id) = (registers.find? fun r => r.id = id).map f := by
  rw [List.find?_map]
  congr 2
  funext r
  simp [hf]

theorem Numbered.modify (h : t.Numbered) (id : RegisterId) {f : Register → Register} (hf : ∀ r, (f r).id = r.id) :
    (t.modify id f).Numbered :=
  h.of_ids (ids_map (fun r => by split <;> simp [hf]) t.registers) rfl

theorem find?_insertRegister (h : t.Numbered) (pid : ProcessId) (status : Status) (now : Instant) (i : RegisterId) :
    (t.insertRegister pid status now).find? i =
      if i = t.lastRegister + 1 then some ⟨t.lastRegister + 1, pid, status, now, none, now, none⟩ else t.find? i := by
  simp only [find?, MemoryTable.insertRegister, List.find?_append]
  by_cases hi : i = t.lastRegister + 1
  · have hnone : t.registers.find? (fun r => r.id = t.lastRegister + 1) = none := h.find?_fresh
    simp [hi, hnone]
  · simp [hi, Ne.symm hi]

theorem find?_modify (t : MemoryTable) (id : RegisterId) {f : Register → Register} (hf : ∀ r, (f r).id = r.id)
    (i : RegisterId) : (t.modify id f).find? i = if i = id then (t.find? i).map f else t.find? i := by
  have hg : ∀ r : Register, (if r.id = id then f r else r).id = r.id := fun r => by split <;> simp [hf]
  simp only [find?, MemoryTable.modify, find?_map hg]
  cases hr : t.registers.find? fun r => r.id = i with
  | none => simp
  | some r =>
    have hid : r.id = i := by simpa using List.find?_some hr
    by_cases hi : i = id <;> simp [hid, hi]

theorem status?_insertRegister (h : t.Numbered) (pid : ProcessId) (status : Status) (now : Instant) (i : RegisterId) :
    (t.insertRegister pid status now).status? i = if i = t.lastRegister + 1 then some status else t.status? i := by
  rw [status?, find?_insertRegister h]
  split <;> rfl

theorem status?_modify (t : MemoryTable) (id : RegisterId) {f : Register → Register} (hf : ∀ r, (f r).id = r.id)
    (i : RegisterId) :
    (t.modify id f).status? i = if i = id then (t.find? i).map fun r => (f r).status else t.status? i := by
  rw [status?, find?_modify t id hf]
  split
  · rw [Option.map_map]
    rfl
  · rfl

theorem status?_updateResult (t : MemoryTable) (id : RegisterId) (status : Status) (date : Option Instant)
    (now : Instant) (i : RegisterId) :
    (t.updateResult id status date now).status? i =
      if i = id then (t.status? i).map fun _ => status else t.status? i := by
  refine (status?_modify t id (by intro; rfl) i).trans ?_
  rw [status?, Option.map_map]
  rfl

theorem status?_updateStatus (t : MemoryTable) (old : List Status) (new : Status) (i : RegisterId) :
    (t.updateStatus old new).status? i = (t.status? i).map fun status => if status ∈ old then new else status := by
  have hg : ∀ r : Register, (if r.status ∈ old then { r with status := new } else r).id = r.id := fun r => by
    split <;> rfl
  simp only [status?, find?, MemoryTable.updateStatus, find?_map hg, Option.map_map]
  cases t.registers.find? fun r => r.id = i with
  | none => rfl
  | some r => by_cases hr : r.status ∈ old <;> simp [hr]

end MemoryTable

namespace Memory

variable {m n : Memory} {table : LogTable} {t : MemoryTable}

/-- Every table numbers its registers. -/
def Sound (m : Memory) : Prop := ∀ table t, m.tables.get? table = some t → t.Numbered

/-- The statuses in the tables in memory. -/
def rows (m : Memory) : Rows := fun table id => (m.tables.get? table).bind (·.status? id)

theorem Sound.set (h : m.Sound) (ht : t.Numbered) : (⟨m.tables.set table t⟩ : Memory).Sound := by
  intro other u hu
  by_cases ho : other = table
  · subst ho
    rw [Keyed.get?_set_self, Option.some.injEq] at hu
    exact hu ▸ ht
  · rw [Keyed.get?_set_of_ne _ _ ho] at hu
    exact h other u hu

theorem rows_set (m : Memory) (table : LogTable) (t : MemoryTable) (other : LogTable) (id : RegisterId) :
    rows ⟨m.tables.set table t⟩ other id = if other = table then t.status? id else m.rows other id := by
  by_cases ho : other = table
  · simp [rows, ho]
  · simp [rows, ho, Keyed.get?_set_of_ne _ _ ho]

/-- A table that is put back with the rows that it had. -/
theorem rows_set_same (ht : m.tables.get? table = some t) {u : MemoryTable} (hu : ∀ id, u.status? id = t.status? id) :
    rows ⟨m.tables.set table u⟩ = m.rows := by
  funext other id
  rw [rows_set]
  split
  · rename_i ho
    simp [rows, ho, ht, hu]
  · rfl

/-- An operation on a table leaves the memory alone, or puts another table in its place. -/
theorem onTable_cases {α : Type} (table : LogTable) (f : MemoryTable → Except Failure (α × MemoryTable)) (m : Memory) :
    (∃ e, Memory.onTable table f m = (.error e, m)) ∨
      ∃ t x u, m.tables.get? table = some t ∧ f t = .ok (x, u) ∧
        Memory.onTable table f m = (.ok x, ⟨m.tables.set table u⟩) := by
  unfold Memory.onTable
  split
  · exact Or.inl ⟨_, rfl⟩
  · rename_i t ht
    split
    · rename_i x u hf
      exact Or.inr ⟨t, x, u, ht, hf, rfl⟩
    · exact Or.inl ⟨_, rfl⟩

theorem onTable_ok {α : Type} {f : MemoryTable → Except Failure (α × MemoryTable)} {x : α}
    (h : Memory.onTable table f m = (.ok x, n)) :
    ∃ t u, m.tables.get? table = some t ∧ f t = .ok (x, u) ∧ n = ⟨m.tables.set table u⟩ := by
  rcases onTable_cases table f m with ⟨e, h'⟩ | ⟨t, y, u, ht, hf, h'⟩ <;> rw [h] at h'
  · cases h'
  · cases h'
    exact ⟨t, u, ht, hf, rfl⟩

theorem query_snd {α : Type} (table : LogTable) (f : MemoryTable → α) (m : Memory) : (query table f m).2 = m := by
  unfold query
  split <;> rfl

/-- An operation keeps the memory sound, and the rows as far as `P` says, if it does so on the table. -/
theorem onTable_keep {α : Type} {f : MemoryTable → Except Failure (α × MemoryTable)} {P : Rows → Rows → Prop}
    (hm : m.Sound) (same : P m.rows m.rows)
    (each : ∀ t x u, m.tables.get? table = some t → t.Numbered → f t = .ok (x, u) →
      u.Numbered ∧ P m.rows (rows ⟨m.tables.set table u⟩)) :
    (Memory.onTable table f m).2.Sound ∧ P m.rows (rows (Memory.onTable table f m).2) := by
  rcases onTable_cases table f m with ⟨e, h⟩ | ⟨t, x, u, ht, hf, h⟩ <;> rw [h]
  · exact ⟨hm, same⟩
  · obtain ⟨hu, hP⟩ := each t x u ht (hm table t ht) hf
    exact ⟨hm.set hu, hP⟩

theorem init_quiet (hm : m.Sound) (table : LogTable) :
    (Memory.init table m).2.Sound ∧ rows (Memory.init table m).2 = m.rows := by
  unfold Memory.init
  split
  · exact ⟨hm, rfl⟩
  · rename_i hnone
    refine ⟨hm.set rfl, ?_⟩
    funext other id
    rw [rows_set]
    split
    · rename_i ho
      simp [rows, ho, hnone, MemoryTable.status?, MemoryTable.find?]
    · rfl

theorem quiet (hm : m.Sound) (h : Storage.Quiet m n) : n.Sound ∧ n.rows = m.rows := by
  have hquery : ∀ {α : Type} (table : LogTable) (f : MemoryTable → α),
      (query table f m).2.Sound ∧ rows (query table f m).2 = m.rows := fun table f => by
    rw [query_snd]
    exact ⟨hm, rfl⟩
  cases h with
  | none => exact ⟨hm, rfl⟩
  | init table => exact init_quiet hm table
  | insertMessage table id type description now =>
    refine onTable_keep (P := fun r r' => r' = r) hm rfl fun t x u ht hn hf => ?_
    split at hf <;> cases hf
    · exact ⟨hn.of_ids rfl rfl, rows_set_same ht fun _ => rfl⟩
    · exact ⟨hn, rows_set_same ht fun _ => rfl⟩
  | appendValue table id tag value =>
    refine onTable_keep (P := fun r r' => r' = r) hm rfl fun t x u ht hn hf => ?_
    split at hf
    · rename_i r hr
      cases hd : Values.append r.data tag value with
      | error e => simp [hd, Except.map] at hf
      | ok data =>
        simp only [hd, Except.map, Except.ok.injEq, Prod.mk.injEq] at hf
        obtain ⟨-, rfl⟩ := hf
        refine ⟨hn.modify id fun _ => rfl, rows_set_same ht fun i => ?_⟩
        refine (MemoryTable.status?_modify t id (by intro; rfl) i).trans ?_
        split <;> rfl
    · cases hf
      exact ⟨hn, rows_set_same ht fun _ => rfl⟩
  | maxLastProcess table pid => exact hquery table _
  | maxData table pid => exact hquery table _
  | registers table pid offset limit => exact hquery table _
  | messages table ids => exact hquery table _

theorem insert_ok (hm : m.Sound) {pid : ProcessId} {status : Status} {now : Instant} {id : RegisterId}
    (h : Storage.insertRegister table pid status now m = (.ok id, n)) :
    m.rows table id = none ∧ n.rows = m.rows.set table id status := by
  obtain ⟨t, u, ht, hf, rfl⟩ := onTable_ok h
  cases hf
  have hn := hm table t ht
  refine ⟨by simp [rows, ht, MemoryTable.status?, hn.find?_fresh], ?_⟩
  funext other i
  rw [rows_set, MemoryTable.status?_insertRegister hn, Rows.set]
  by_cases ho : other = table <;> simp [ho, rows, ht]

theorem update_ok {id : RegisterId} {status : Status} {date : Option Instant} {now : Instant}
    {found : Bool} (h : Storage.updateResult table id status date now m = (.ok found, n)) :
    found = (m.rows table id).isSome ∧ n.rows = if found then m.rows.set table id status else m.rows := by
  obtain ⟨t, u, ht, hf, rfl⟩ := onTable_ok h
  cases hr : t.find? id with
  | none =>
    simp only [hr, Except.ok.injEq, Prod.mk.injEq] at hf
    obtain ⟨rfl, rfl⟩ := hf
    exact ⟨by simp [rows, ht, MemoryTable.status?, hr], rows_set_same ht fun _ => rfl⟩
  | some r =>
    simp only [hr, Except.map, Except.ok.injEq, Prod.mk.injEq] at hf
    obtain ⟨rfl, rfl⟩ := hf
    have hs : t.status? id = some r.status := by simp [MemoryTable.status?, hr]
    refine ⟨by simp [rows, ht, hs], ?_⟩
    funext other i
    rw [rows_set, MemoryTable.status?_updateResult, if_pos rfl, Rows.set]
    by_cases ho : other = table
    · by_cases hi : i = id
      · simp [ho, hi, hs]
      · simp [rows, ho, hi, ht]
    · simp [ho]

theorem sweep_ok {old : List Status} {new : Status} {count : Nat}
    (h : Storage.updateStatus table old new m = (.ok count, n)) : n.rows = m.rows.sweep table old new := by
  obtain ⟨t, u, ht, hf, rfl⟩ := onTable_ok h
  cases hf
  funext other i
  rw [rows_set, MemoryTable.status?_updateStatus, Rows.sweep]
  by_cases ho : other = table <;> simp [ho, rows, ht]

theorem kept_call (hm : m.Sound) (h : Storage.Call m n) :
    n.Sound ∧ ∀ table id, (m.rows table id).isSome → (n.rows table id).isSome := by
  cases h with
  | quiet h =>
    obtain ⟨hn, hrows⟩ := quiet hm h
    exact ⟨hn, fun table id => by simp [hrows]⟩
  | insertRegister table pid status now =>
    refine onTable_keep (P := fun r r' => ∀ table id, (r table id).isSome → (r' table id).isSome) hm
      (fun _ _ h => h) fun t x u ht hn hf => ?_
    cases hf
    refine ⟨hn.insertRegister pid status now, fun other id h => ?_⟩
    rw [rows_set, MemoryTable.status?_insertRegister hn]
    -- A fresh number is above all that are there.
    split
    · rename_i ho
      split
      · rfl
      · simpa [rows, ho, ht] using h
    · exact h
  | updateResult table id status date now =>
    refine onTable_keep (P := fun r r' => ∀ table id, (r table id).isSome → (r' table id).isSome) hm
      (fun _ _ h => h) fun t x u ht hn hf => ?_
    split at hf
    · simp only [Except.map, Except.ok.injEq, Prod.mk.injEq] at hf
      obtain ⟨-, rfl⟩ := hf
      refine ⟨hn.modify id fun _ => rfl, fun other i h => ?_⟩
      rw [rows_set, MemoryTable.status?_updateResult]
      split
      · rename_i ho
        simp only [rows, ho, ht, Option.bind_some] at h
        split
        · simpa using h
        · exact h
      · exact h
    · cases hf
      exact ⟨hn, fun other i h => by rwa [rows_set_same ht fun _ => rfl]⟩
  | updateStatus table old new =>
    refine onTable_keep (P := fun r r' => ∀ table id, (r table id).isSome → (r' table id).isSome) hm
      (fun _ _ h => h) fun t x u ht hn hf => ?_
    cases hf
    refine ⟨hn.of_ids (MemoryTable.ids_map (fun r => by split <;> rfl) _) rfl, fun other i h => ?_⟩
    rw [rows_set, MemoryTable.status?_updateStatus]
    split
    · rename_i ho
      simpa [rows, ho, ht] using h
    · exact h

instance : RowStorage Memory where
  Sound := Sound
  rows := rows
  sound hm h := (kept_call hm h).1
  kept hm h := (kept_call hm h).2 _ _
  quiet hm h := (quiet hm h).2
  insert_ok hm h := insert_ok hm h
  update_ok _ h := update_ok h
  sweep_ok _ h := sweep_ok h

instance : AscendingStorage Memory where
  insert_last hm h other found := by
    obtain ⟨t, u, ht, hf, -⟩ := onTable_ok h
    cases hf
    have found : ((Memory.rows _ _ other).isSome) := found
    rw [Memory.rows, ht, Option.bind_some] at found
    exact Nat.lt_succ_of_le ((hm _ t ht).le_last found)

theorem sound_empty : ({} : Memory).Sound := fun _ _ h => by cases h

/-- An operation on a table that fails leaves the memory as it was. -/
theorem onTable_error {α : Type} {f : MemoryTable → Except Failure (α × MemoryTable)} {e : Failure}
    (h : Memory.onTable table f m = (.error e, n)) : n = m := by
  rcases onTable_cases table f m with ⟨e', h'⟩ | ⟨t, x, u, -, -, h'⟩ <;> rw [h] at h' <;> cases h'
  rfl

/-! ### What is to be seen of the registers -/

section
variable {α : Type} (f : Register → α)

/-- What is to be seen of the register of a number in a table. -/
def view (m : Memory) (table : LogTable) (id : RegisterId) : Option α :=
  ((m.tables.get? table).bind (·.find? id)).map f

theorem view_of_table (ht : m.tables.get? table = some t) (id : RegisterId) :
    m.view f table id = (t.find? id).map f := by
  rw [view, ht, Option.bind_some]

theorem view_set (m : Memory) (table : LogTable) (t : MemoryTable) (other : LogTable) (id : RegisterId) :
    view f ⟨m.tables.set table t⟩ other id = if other = table then (t.find? id).map f else m.view f other id := by
  by_cases ho : other = table
  · simp [view, ho]
  · simp [view, ho, Keyed.get?_set_of_ne _ _ ho]

/-- A table that is put back with registers that look the same. -/
theorem view_set_same (ht : m.tables.get? table = some t) {u : MemoryTable} {g : Register → Register}
    (hu : ∀ id, u.find? id = (t.find? id).map g) (same : ∀ r, f (g r) = f r) :
    view f ⟨m.tables.set table u⟩ = m.view f := by
  funext other id
  rw [view_set]
  split
  · rename_i ho
    rw [ho, view_of_table f ht, hu, Option.map_map]
    exact congrArg (Option.map · (t.find? id)) (funext same)
  · rfl

theorem view_set_back (ht : m.tables.get? table = some t) {u : MemoryTable} (hu : u.registers = t.registers) :
    view f ⟨m.tables.set table u⟩ = m.view f :=
  view_set_same (g := id) f ht (fun id => by rw [MemoryTable.find?, hu, Option.map_id]; rfl) fun _ => rfl

/-- One register changes. -/
theorem view_set_modify (ht : m.tables.get? table = some t) (id : RegisterId) {g : Register → Register}
    (hg : ∀ r, (g r).id = r.id) (other : LogTable) (i : RegisterId) :
    view f ⟨m.tables.set table (t.modify id g)⟩ other i =
      if other = table ∧ i = id then m.view (fun r => f (g r)) other i else m.view f other i := by
  rw [view_set, MemoryTable.find?_modify t id hg]
  by_cases ho : other = table
  · by_cases hi : i = id <;> simp [ho, hi, view, ht, Function.comp_def]
  · simp [ho]

theorem view_init (table : LogTable) (m : Memory) : view f (Memory.init table m).2 = m.view f := by
  unfold Memory.init
  split
  · rfl
  · rename_i hnone
    funext other id
    rw [view_set]
    split
    · rename_i ho
      simp [view, ho, hnone, MemoryTable.find?]
    · rfl

theorem view_insertMessage (table : LogTable) (id : RegisterId) (type : MessageType) (description : String)
    (now : Instant)
    (m : Memory) : view f (Storage.insertMessage table id type description now m).2 = m.view f := by
  rcases onTable_cases table (fun t => if t.contains id then
    .ok (some (t.lastMessage + 1), t.insertMessage id type description now) else .ok (none, t)) m with
    ⟨e, hcall⟩ | ⟨t, x, u, ht, hf, hcall⟩
  · exact congrArg (view f) (congrArg Prod.snd hcall)
  · refine (congrArg (view f) (congrArg Prod.snd hcall)).trans (view_set_back f ht ?_)
    split at hf <;> cases hf <;> rfl

theorem view_insertRegister (hm : m.Sound) {pid : ProcessId} {status : Status} {now : Instant} {id : RegisterId}
    (h : Storage.insertRegister table pid status now m = (.ok id, n)) (other : LogTable) (i : RegisterId) :
    n.view f other i =
      if other = table ∧ i = id then some (f ⟨id, pid, status, now, none, now, none⟩) else m.view f other i := by
  obtain ⟨t, u, ht, hf, rfl⟩ := onTable_ok h
  cases hf
  rw [view_set, MemoryTable.find?_insertRegister (hm table t ht)]
  by_cases ho : other = table
  · by_cases hi : i = t.lastRegister + 1 <;> simp [ho, hi, view, ht]
  · simp [ho]

theorem view_updateResult {id : RegisterId} {status : Status} {date : Option Instant} {now : Instant} {found : Bool}
    (h : Storage.updateResult table id status date now m = (.ok found, n)) (other : LogTable) (i : RegisterId) :
    n.view f other i = if other = table ∧ i = id then
      m.view (fun r => f { r with status, dataTimestamp := date, lastProcess := now }) other i
      else m.view f other i := by
  obtain ⟨t, u, ht, hf, rfl⟩ := onTable_ok h
  cases hr : t.find? id with
  | none =>
    simp only [hr, Except.ok.injEq, Prod.mk.injEq] at hf
    rw [← hf.2, view_set_back f ht rfl]
    split
    · rename_i hcase
      rw [hcase.1, hcase.2, view_of_table _ ht, view_of_table _ ht, hr]
      rfl
    · rfl
  | some r =>
    simp only [hr, Except.map, Except.ok.injEq, Prod.mk.injEq] at hf
    rw [← hf.2]
    exact view_set_modify f ht id (g := fun r => { r with status, dataTimestamp := date, lastProcess := now })
      (fun _ => rfl) other i

theorem view_updateStatus (same : ∀ r status, f { r with status } = f r) (table : LogTable) (old : List Status)
    (new : Status) (m : Memory) : view f (Storage.updateStatus table old new m).2 = m.view f := by
  rcases onTable_cases table (fun t => .ok (t.registers.countP fun r => r.status ∈ old, t.updateStatus old new)) m with
    ⟨e, hcall⟩ | ⟨t, x, u, ht, hf, hcall⟩
  · exact congrArg (view f) (congrArg Prod.snd hcall)
  · refine (congrArg (view f) (congrArg Prod.snd hcall)).trans ?_
    cases hf
    exact view_set_same f ht (MemoryTable.find?_map (fun r => by split <;> rfl) t.registers) fun r => by
      split
      · exact same r new
      · rfl

/-- Where the text of the values does not show. -/
theorem view_appendValue (same : ∀ r data, f { r with data } = f r) (table : LogTable) (id : RegisterId)
    (tag value : String) (m : Memory) : view f (Storage.appendValue table id tag value m).2 = m.view f := by
  rcases onTable_cases table _ m with ⟨e, hcall⟩ | ⟨t, x, u, ht, hf, hcall⟩
  · exact congrArg (view f) (congrArg Prod.snd hcall)
  · refine (congrArg (view f) (congrArg Prod.snd hcall)).trans ?_
    cases hr : t.find? id with
    | none =>
      simp only [hr, Except.ok.injEq, Prod.mk.injEq] at hf
      exact view_set_back f ht (hf.2 ▸ rfl)
    | some r =>
      cases hd : Values.append r.data tag value with
      | error e => simp [hr, hd, Except.map] at hf
      | ok data =>
        simp only [hr, hd, Except.map, Except.ok.injEq, Prod.mk.injEq] at hf
        rw [← hf.2]
        funext other i
        refine (view_set_modify f ht id (g := fun r => { r with data := some data }) (fun _ => rfl) other i).trans ?_
        simp only [same, ite_self]

theorem view_quiet (same : ∀ r data, f { r with data } = f r) (h : Storage.Quiet m n) : n.view f = m.view f := by
  have hquery : ∀ {β : Type} (table : LogTable) (g : MemoryTable → β), view f (query table g m).2 = m.view f :=
    fun table g => by rw [query_snd]
  cases h with
  | none => rfl
  | init table => exact view_init f table m
  | insertMessage table id type description now => exact view_insertMessage f table id type description now m
  | appendValue table id tag value => exact view_appendValue f same table id tag value m
  | maxLastProcess table pid => exact hquery table _
  | maxData table pid => exact hquery table _
  | registers table pid offset limit => exact hquery table _
  | messages table ids => exact hquery table _

end

end Memory

end ProcessRuns
