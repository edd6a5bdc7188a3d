import ProcessRuns.Proofs.Log.Calls
import ProcessRuns.Proofs.Log.Values

/-! # Values that many loggers add

Any number of loggers share one storage in memory; each has selected tables of its own or the same as others, and
their calls come in any order. The values of a register are those that calls have added to it while it was there, and
no other call makes a difference to them. -/

namespace ProcessRuns

/-! ### Notes -/

/-- A value that was added to a register. -/
structure Note where
  table : LogTable
  id : RegisterId
  tag : String
  value : String

/-- The values that were added to one register, with their tags. -/
def Note.ofRegister (notes : List Note) (table : LogTable) (id : RegisterId) : List (String × String) :=
  (notes.filter fun n => n.table = table ∧ n.id = id).map fun n => (n.tag, n.value)

theorem Note.ofRegister_append (notes : List Note) (n : Note) (table : LogTable) (id : RegisterId) :
    ofRegister (notes ++ [n]) table id =
      if table = n.table ∧ id = n.id then ofRegister notes table id ++ [(n.tag, n.value)]
      else ofRegister notes table id := by
  by_cases hn : table = n.table ∧ id = n.id
  · obtain ⟨rfl, rfl⟩ := hn
    simp [ofRegister]
  · have hother : ¬ (n.table = table ∧ n.id = id) := fun h => hn ⟨h.1.symm, h.2.symm⟩
    simp [ofRegister, hn, hother]

/-! ### Calls of a logger -/

/-- A call of a logger, with what it is given. -/
inductive LogCall where
  /-- The first part of a selection, after which others may come before the two parts of the repair. -/
  | turn (name : String)
  | select (name : String)
  | start (processId : ProcessId) (now : Instant)
  | result (status : Status) (dataTimestamp : Option Instant) (id : RegisterId) (now : Instant)
  | log (type : MessageType) (description : String) (id : RegisterId) (now : Instant)
  | addValue (tag value : String) (id : RegisterId)
  | setStart (time : Instant) (id : RegisterId)
  | setEnd (time : Instant) (id : RegisterId)
  | updateStatus (old : List Status) (new : Status)
  | lastProcess (processId : ProcessId)
  | lastData (processId : ProcessId)
  | logs (processId : ProcessId) (a b : Nat)

namespace LogCall

/-- The logger and the storage after a call. -/
def act {σ : Type} [Storage σ] (l : Logger) (s : σ) : LogCall → Logger × σ
  | turn name => (Logger.turn name (l, s)).2
  | select name => (Logger.select name (l, s)).2
  | start processId now => (l, (l.start processId now s).2)
  | result status date id now => (l, (l.result status date id now s).2)
  | log type description id now => (l, (l.log type description id now s).2)
  | addValue tag value id => (l, (l.addValue tag value id s).2)
  | setStart time id => (l, (l.setStart time id s).2)
  | setEnd time id => (l, (l.setEnd time id s).2)
  | updateStatus old new => (l, (l.updateStatus old new s).2)
  | lastProcess processId => (l, (l.lastProcess processId s).2)
  | lastData processId => (l, (l.lastData processId s).2)
  | logs processId a b => (l, (l.logs processId a b s).2)

/-- The tag, the value and the register, where the call is to add a value. -/
def addition? : LogCall → Option (String × String × RegisterId)
  | addValue tag value id => some (tag, value, id)
  | setStart time id => some (Logger.startTag, time.millisText, id)
  | setEnd time id => some (Logger.endTag, time.millisText, id)
  | _ => none

theorem act_addition {c : LogCall} {tag value : String} {id : RegisterId} (h : c.addition? = some (tag, value, id))
    (l : Logger) (m : Memory) : c.act l m = (l, (l.addValue tag value id m).2) := by
  cases c <;> cases h <;> rfl

end LogCall

/-! ### What a call does to the texts of the values -/

namespace Memory

variable {m n : Memory}

/-- The values of a register, where there is one. -/
abbrev data? (m : Memory) (table : LogTable) (id : RegisterId) : Option (Option String) := m.view (·.data) table id

/-- No register's text has changed; one that is new has none. -/
def Untouched (m n : Memory) : Prop :=
  ∀ table id, n.data? table id = m.data? table id ∨ m.data? table id = none ∧ n.data? table id = some none

theorem Untouched.of_eq (h : n.data? = m.data?) : Untouched m n := fun table id => Or.inl (by rw [h])

theorem data?_eq_none_iff {table : LogTable} {id : RegisterId} : m.data? table id = none ↔ m.rows table id = none := by
  rw [data?, view, rows, Option.map_eq_none_iff]
  cases m.tables.get? table with
  | none => simp
  | some t => simp [MemoryTable.status?]

theorem data?_updateResult (table : LogTable) (id : RegisterId) (status : Status) (date : Option Instant)
    (now : Instant)
    (m : Memory) : (Storage.updateResult table id status date now m).2.data? = m.data? := by
  cases h : Storage.updateResult table id status date now m with
  | mk result n =>
    cases result with
    | error e => rw [onTable_error h]
    | ok found =>
      funext other i
      rw [data?, view_updateResult _ h, ite_self]

theorem untouched_insertRegister (hm : m.Sound) (table : LogTable) (pid : ProcessId) (status : Status) (now : Instant) :
    Untouched m (Storage.insertRegister table pid status now m).2 := by
  cases h : Storage.insertRegister table pid status now m with
  | mk result n =>
    cases result with
    | error e => exact .of_eq (by rw [onTable_error h])
    | ok id =>
      intro other i
      have hview := view_insertRegister (·.data) hm h other i
      split at hview
      · rename_i hnew
        obtain ⟨rfl, rfl⟩ := hnew
        exact Or.inr ⟨data?_eq_none_iff.mpr (insert_ok hm h).1, hview⟩
      · exact Or.inl hview

theorem appendValue_ok {table : LogTable} {id : RegisterId} {data : Option String} {tag value text : String}
    (hdata : m.data? table id = some data) (happend : Values.append data tag value = .ok text) :
    ∃ n, Storage.appendValue table id tag value m = (.ok true, n) ∧
      ∀ other i, n.data? other i = if other = table ∧ i = id then some (some text) else m.data? other i := by
  obtain ⟨r, hr, rfl⟩ := Option.map_eq_some_iff.mp hdata
  obtain ⟨t, ht, hr⟩ := Option.bind_eq_some_iff.mp hr
  refine ⟨⟨m.tables.set table (t.modify id fun r => { r with data := some text })⟩, ?_, fun other i => ?_⟩
  · show Memory.onTable table _ m = _
    simp only [Memory.onTable, ht, hr, happend]
    rfl
  · refine (view_set_modify (·.data) ht id (g := fun r => { r with data := some text }) (fun _ => rfl) other i).trans ?_
    split
    · rename_i hcase
      rw [hcase.1, hcase.2, view_of_table _ ht, hr]
      rfl
    · rfl

theorem data?_appendValue_none {table : LogTable} {id : RegisterId} (hdata : m.data? table id = none)
    (tag value : String) :
    (Storage.appendValue table id tag value m).2.data? = m.data? := by
  rcases onTable_cases table _ m with ⟨e, hcall⟩ | ⟨t, x, u, ht, hf, hcall⟩
  · exact congrArg data? (congrArg Prod.snd hcall)
  · have hnone : t.find? id = none := by
      rwa [data?, view_of_table _ ht, Option.map_eq_none_iff] at hdata
    simp only [hnone, Except.ok.injEq, Prod.mk.injEq] at hf
    exact (congrArg data? (congrArg Prod.snd hcall)).trans (view_set_back _ ht (hf.2 ▸ rfl))

end Memory

namespace Logger

variable (l : Logger) (m : Memory) {tag value : String} {id : RegisterId}

theorem data?_log (type : MessageType) (description : String) (id : RegisterId) (now : Instant) :
    (l.log type description id now m).2.data? = m.data? := by
  refine l.keep_onTable (P := fun n : Memory => n.data? = m.data?) m rfl fun table => ?_
  rw [expect_snd, Action.snd_of_pure fun _ _ => rfl]
  exact Memory.view_insertMessage _ table id type (withoutNul description) now m

theorem data?_result (status : Status) (date : Option Instant) (id : RegisterId) (now : Instant) :
    (l.result status date id now m).2.data? = m.data? := by
  refine l.keep_onTable (P := fun n : Memory => n.data? = m.data?) m rfl fun table => ?_
  rw [expect_snd]
  exact Memory.data?_updateResult table id status date now m

theorem lastProcess_snd (processId : ProcessId) : (l.lastProcess processId m).2 = m :=
  l.keep_onTable (P := (· = m)) m rfl fun table => Memory.query_snd table _ m

theorem lastData_snd (processId : ProcessId) : (l.lastData processId m).2 = m :=
  l.keep_onTable (P := (· = m)) m rfl fun table => Memory.query_snd table _ m

theorem logs_snd (processId : ProcessId) (a b : Nat) : (l.logs processId a b m).2 = m :=
  l.keep_onTable (P := (· = m)) m rfl fun table =>
    (Action.snd_of_pure fun _ n => (Action.snd_of_pure fun _ _ => rfl).trans (Memory.query_snd table _ n)).trans
      (Memory.query_snd table _ m)

theorem addValue_apply {σ : Type} [Storage σ] (l : Logger) (s : σ) {table : LogTable} (h : l.table = some table)
    (tag value : String) (id : RegisterId) :
    l.addValue tag value id s = expect table id (Storage.appendValue table id tag (withoutNul value)) s := by
  rw [addValue, onTable, h]

/-- What the addition of a value leaves in the memory. -/
def note? (tag value : String) (id : RegisterId) : Option Note := do
  let table ← l.table
  let _ ← m.data? table id
  return ⟨table, id, tag, withoutNul value⟩

theorem data?_addValue_none (h : l.note? m tag value id = none) : (l.addValue tag value id m).2.data? = m.data? := by
  cases htable : l.table with
  | none =>
    rw [addValue, onTable, htable]
    rfl
  | some table =>
    have hdata : m.data? table id = none := by
      cases hdata : m.data? table id with
      | none => rfl
      | some data => simp [note?, htable, hdata] at h
    rw [l.addValue_apply m htable, expect_snd, Memory.data?_appendValue_none hdata]

theorem data?_addValue {n : Note} {lists : Values.Lists} (h : l.note? m tag value id = some n)
    (holds : Values.Holds (m.data? n.table n.id).join lists) (table : LogTable) (i : RegisterId) :
    (l.addValue tag value id m).2.data? table i =
      if table = n.table ∧ i = n.id then some (some (lists.note n.tag n.value).text) else m.data? table i := by
  obtain ⟨own, htable, h⟩ := Option.bind_eq_some_iff.mp h
  obtain ⟨data, hdata, h⟩ := Option.bind_eq_some_iff.mp h
  cases h
  rw [hdata] at holds
  obtain ⟨after, hcall, hafter⟩ := Memory.appendValue_ok hdata (holds.note tag (withoutNul value)).1
  rw [l.addValue_apply m htable, expect_snd, hcall]
  exact hafter table i

end Logger

namespace LogCall

variable (c : LogCall) (l : Logger) {m : Memory}

theorem calls (m : Memory) : Storage.Calls m (c.act l m).2 := by
  cases c with
  | turn name =>
    rw [act]
    exact l.calls_turn m name
  | select name =>
    rw [act]
    exact l.calls_select m name
  | start pid now => exact l.calls_start m pid now
  | result status date id now => exact l.calls_result m status date id now
  | log type description id now => exact (Storage.Call.quiet (l.quiet_log m type description id now)).calls
  | addValue | setStart | setEnd => exact (Storage.Call.quiet (l.quiet_addValue m _ _ _)).calls
  | updateStatus old new => exact l.calls_updateStatus m old new
  | lastProcess pid => exact (Storage.Call.quiet (l.quiet_lastProcess m pid)).calls
  | lastData pid => exact (Storage.Call.quiet (l.quiet_lastData m pid)).calls
  | logs pid a b =>
    rw [act, l.logs_snd m pid a b]
    exact .none

theorem sound (hm : m.Sound) : (c.act l m).2.Sound :=
  (c.calls l m).keep (fun _ _ => RowStorage.sound (σ := Memory)) hm

theorem untouched (hm : m.Sound) (h : c.addition? = none) : Memory.Untouched m (c.act l m).2 := by
  have hinit : ∀ (n : Memory) (table : LogTable), n.data? = m.data? → (Storage.init table n).2.data? = m.data? :=
    fun n table hn => (Memory.view_init _ table n).trans hn
  have hsweep : ∀ (n : Memory) table old new, n.data? = m.data? →
      (Storage.updateStatus table old new n).2.data? = m.data? :=
    fun n table old new hn => (Memory.view_updateStatus _ (fun _ _ => rfl) table old new n).trans hn
  cases c with
  | turn name =>
    rw [act]
    exact .of_eq (l.keep_turn (P := fun n : Memory => n.data? = m.data?) hinit name rfl)
  | select name =>
    rw [act]
    exact .of_eq (l.keep_select (P := fun n : Memory => n.data? = m.data?) hinit hsweep name rfl)
  | start pid now =>
    exact l.keep_onTable (P := Memory.Untouched m) m (.of_eq rfl) fun table =>
      Memory.untouched_insertRegister hm table pid .start now
  | result status date id now => exact .of_eq (l.data?_result m status date id now)
  | log type description id now => exact .of_eq (l.data?_log m type description id now)
  | updateStatus old new =>
    exact .of_eq (l.keep_updateStatus (P := fun n : Memory => n.data? = m.data?) hsweep old new rfl)
  | lastProcess pid => exact .of_eq (by rw [act, l.lastProcess_snd])
  | lastData pid => exact .of_eq (by rw [act, l.lastData_snd])
  | logs pid a b => exact .of_eq (by rw [act, l.logs_snd])
  | addValue | setStart | setEnd => cases h

/-- The value that a call adds, if it adds one. -/
def note? (m : Memory) : Option Note := c.addition?.bind fun a => l.note? m a.1 a.2.1 a.2.2

/-- A call adds no value and leaves the values of all registers as they are, or it adds one to one register. -/
theorem noted (hm : m.Sound) (lists : LogTable → RegisterId → Values.Lists)
    (holds : ∀ table id, Values.Holds (m.data? table id).join (lists table id)) :
    (c.note? l m = none ∧ m.Untouched (c.act l m).2) ∨
      ∃ n, c.note? l m = some n ∧ ∀ table id, (c.act l m).2.data? table id =
        if table = n.table ∧ id = n.id then some (some ((lists n.table n.id).note n.tag n.value).text)
        else m.data? table id := by
  rw [note?]
  cases hadd : c.addition? with
  | none => exact Or.inl ⟨rfl, c.untouched l hm hadd⟩
  | some a =>
    obtain ⟨tag, value, id⟩ := a
    rw [act_addition hadd, Option.bind_some]
    cases hnote : l.note? m tag value id with
    | none => exact Or.inl ⟨rfl, .of_eq (l.data?_addValue_none m hnote)⟩
    | some n => exact Or.inr ⟨n, rfl, l.data?_addValue m hnote (holds n.table n.id)⟩

end LogCall

/-! ### Many loggers -/

/-- Loggers that share one memory. -/
structure SharedLog where
  loggers : List Logger := []
  memory : Memory := {}

namespace SharedLog

/-- What may be done with the loggers. -/
inductive Move where
  /-- There is one more logger, which has selected no tables. -/
  | create
  /-- There is one more logger, with the tables of another. -/
  | copy (logger : Nat)
  | call (logger : Nat) (c : LogCall)

/-- What a move leads to; one that is not possible leads nowhere. -/
def step (s : SharedLog) : Move → SharedLog
  | .create => { s with loggers := s.loggers ++ [{}] }
  | .copy i => { s with loggers := s.loggers ++ (s.loggers[i]?).toList }
  | .call i c =>
    match s.loggers[i]? with
    | none => s
    | some l => ⟨s.loggers.set i (c.act l s.memory).1, (c.act l s.memory).2⟩

/-- Where an interleaving leads. -/
def after (s : SharedLog) (moves : List Move) : SharedLog := moves.foldl step s

/-- The value that a move adds, if it adds one. -/
def note? (s : SharedLog) : Move → Option Note
  | .call i c => (s.loggers[i]?).bind fun l => c.note? l s.memory
  | _ => none

/-- The values that the moves of an interleaving add, oldest first. -/
def notes (s : SharedLog) : List Move → List Note
  | [] => []
  | m :: moves => (s.note? m).toList ++ (s.step m).notes moves

variable {s : SharedLog} {notes : List Note}

/-- Every register holds the values that were added to it, in their order. -/
structure Kept (s : SharedLog) (notes : List Note) : Prop where
  sound : s.memory.Sound
  holds : ∀ table id, Values.Holds (s.memory.data? table id).join (.ofNotes (Note.ofRegister notes table id))

theorem Kept.start : Kept {} [] := ⟨Memory.sound_empty, fun _ _ => Values.holds_none⟩

theorem Kept.step_cases (h : Kept s notes) (m : Move) :
    (s.note? m = none ∧ s.memory.Untouched (s.step m).memory) ∨
      ∃ n, s.note? m = some n ∧ ∀ table id, (s.step m).memory.data? table id =
        if table = n.table ∧ id = n.id then
          some (some ((Values.Lists.ofNotes (Note.ofRegister notes n.table n.id)).note n.tag n.value).text)
        else s.memory.data? table id := by
  cases m with
  | create => exact Or.inl ⟨rfl, .of_eq rfl⟩
  | copy i => exact Or.inl ⟨rfl, .of_eq rfl⟩
  | call i c =>
    rw [note?, step]
    cases s.loggers[i]? with
    | none => exact Or.inl ⟨rfl, .of_eq rfl⟩
    | some l =>
      simp only [Option.bind_some]
      exact c.noted l h.sound (fun table id => .ofNotes (Note.ofRegister notes table id)) h.holds

theorem sound_step (sound : s.memory.Sound) (m : Move) : (s.step m).memory.Sound := by
  cases m with
  | create => exact sound
  | copy i => exact sound
  | call i c =>
    rw [step]
    cases s.loggers[i]? with
    | none => exact sound
    | some l => exact c.sound l sound

theorem Kept.step (h : Kept s notes) (m : Move) : Kept (s.step m) (notes ++ (s.note? m).toList) := by
  refine ⟨sound_step h.sound m, fun table id => ?_⟩
  have hholds := h.holds table id
  rcases h.step_cases m with ⟨hnote, hsame⟩ | ⟨n, hnote, hstep⟩
  · rw [hnote, Option.toList_none, List.append_nil]
    rcases hsame table id with hdata | ⟨hnone, hnew⟩
    · rwa [hdata]
    · -- a register that is not there has had no values, nor has a new one
      rw [hnone] at hholds
      rwa [hnew]
  · rw [hnote, Option.toList_some, Note.ofRegister_append, hstep]
    split
    · rename_i hcase
      rw [hcase.1, hcase.2] at hholds ⊢
      rw [Values.Lists.ofNotes_append]
      exact (hholds.note n.tag n.value).2
    · exact hholds

theorem kept_after (h : Kept s notes) (moves : List Move) : Kept (s.after moves) (notes ++ s.notes moves) := by
  induction moves generalizing s notes with
  | nil =>
    rw [SharedLog.notes, List.append_nil]
    exact h
  | cons m moves ih =>
    rw [SharedLog.notes, ← List.append_assoc]
    exact ih (h.step m)

theorem Kept.data?_step (h : Kept s notes) {table : LogTable} {id : RegisterId} {data : Option String}
    (hdata : s.memory.data? table id = some data) {m : Move}
    (other : ∀ n ∈ s.note? m, ¬ (table = n.table ∧ id = n.id)) : (s.step m).memory.data? table id = some data := by
  rcases h.step_cases m with ⟨-, hsame⟩ | ⟨n, hnote, hstep⟩
  · rcases hsame table id with hsame | ⟨hnone, -⟩
    · rw [hsame, hdata]
    · rw [hdata] at hnone
      cases hnone
  · rw [hstep, if_neg (other n hnote), hdata]

/-- The values of a register that is there are those that were added to it, whichever loggers have added them and
whatever the texts are: a tag has the list of its values, in the order of the calls and without the character NUL, and
a tag that was not used has no list. Adding a value never fails, and a move that adds none to this register leaves the
text of its values as it is. -/
theorem values_are_notes (moves : List Move) {table : LogTable} {t : MemoryTable} {r : Register}
    (ht : (({} : SharedLog).after moves).memory.tables.get? table = some t) (hr : r ∈ t.registers) :
    let s := ({} : SharedLog).after moves
    let added := Note.ofRegister (({} : SharedLog).notes moves) table r.id
    (∃ lists, r.values = .ok lists ∧ lists.Sorted ∧ ∀ tag, lists.get? tag =
      if Values.Lists.valuesUnder added tag = [] then none else some (Values.Lists.valuesUnder added tag)) ∧
    (∀ tag value, (Logger.addValue ⟨some table⟩ tag value r.id s.memory).1 = .ok ()) ∧
    ∀ m, (∀ n ∈ s.note? m, ¬ (table = n.table ∧ r.id = n.id)) →
      (s.step m).memory.view (·.data) table r.id = some r.data := by
  intro s added
  have hkept : Kept s (({} : SharedLog).notes moves) := kept_after .start moves
  have hdata : s.memory.data? table r.id = some r.data := by
    rw [Memory.data?, Memory.view_of_table _ ht, (hkept.sound table t ht).find?_mem hr]
    rfl
  have hholds := hkept.holds table r.id
  rw [hdata] at hholds
  refine ⟨⟨_, hholds.read, Values.Lists.sorted_ofNotes _, Values.Lists.get?_ofNotes _⟩, fun tag value => ?_,
    fun m other => hkept.data?_step hdata other⟩
  obtain ⟨n, hcall, -⟩ := Memory.appendValue_ok hdata (hholds.note tag (Logger.withoutNul value)).1
  rw [Logger.addValue_apply _ _ rfl, Logger.expect_found hcall]

/-- A table to write to. -/
def writtenTable : LogTable := ⟨"written", by decide⟩

/-- Two loggers add values to one register, under an empty tag and under another, and with a NUL among them. -/
def twoWriters : List Move :=
  [.create, .call 0 (.select " Written"), .copy 0, .call 0 (.start 7 .epoch), .call 1 (.addValue "" "\n" 1),
    .call 0 (.addValue "tag" "a\x00b" 1), .call 1 (.log .info "text" 1 .epoch), .call 0 (.addValue "" "" 1)]

theorem values_are_notes_of_twoWriters :
    ∃ t r, (({} : SharedLog).after twoWriters).memory.tables.get? writtenTable = some t ∧ r ∈ t.registers ∧
      ∃ lists, r.values = .ok lists ∧ lists.get? "" = some ["\n", ""] ∧ lists.get? "tag" = some ["ab"] ∧
        lists.get? "other" = none := by
  have hfound : ((({} : SharedLog).after twoWriters).memory.tables.get? writtenTable).isSome ∧
      (((({} : SharedLog).after twoWriters).memory.tables.get? writtenTable).bind (·.find? 1)).isSome := by
    decide +kernel
  obtain ⟨t, ht⟩ := Option.isSome_iff_exists.mp hfound.1
  rw [ht, Option.bind_some] at hfound
  obtain ⟨r, hr⟩ := Option.isSome_iff_exists.mp hfound.2
  have hid : r.id = 1 := by simpa using List.find?_some hr
  have hmem : r ∈ t.registers := List.mem_of_find?_eq_some hr
  obtain ⟨⟨lists, hlists, -, hget⟩, -, -⟩ := values_are_notes twoWriters ht hmem
  rw [hid] at hget
  refine ⟨t, r, ht, hmem, lists, hlists, ?_, ?_, ?_⟩ <;> rw [hget] <;> decide +kernel

end SharedLog

end ProcessRuns
