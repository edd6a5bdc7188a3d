import ProcessRuns.Proofs.Log.Notes
import ProcessRuns.Proofs.Log.Operations

/-! # What is written to one register

Values, messages and results that a logger writes to a register of a log in memory. If the register is there and its
text can be read, every such write succeeds, and it changes this register and its messages only. -/

namespace ProcessRuns

/-- What may be written to a register that was opened. -/
inductive Inscription where
  | value (tag text : String)
  | message (type : MessageType) (text : String) (now : Instant)
  | result (status : Status) (date : Option Instant) (now : Instant)

namespace Inscription

variable {σ : Type} [Storage σ]

/-- Writes to a register. -/
def write (l : Logger) (id : RegisterId) : Inscription → Action σ Unit
  | value tag text => l.addValue tag text id
  | message type text now => l.log type text id now
  | result status date now => l.result status date id now

/-- The value that is added, with its tag. -/
def value? : Inscription → Option (String × String)
  | value tag text => some (tag, Logger.withoutNul text)
  | _ => none

/-- The message, as it is kept. -/
def message? : Inscription → Option (MessageType × String × Instant)
  | message type text now => some (type, Logger.withoutNul text, now)
  | _ => none

/-- What the register says after a write of a result. -/
def result? : Inscription → Option (Status × Option Instant × Instant)
  | result status date now => some (status, date, now)
  | _ => none

section
variable {tag text : String} {type : MessageType} {status : Status} {date : Option Instant} {now : Instant}

@[simp] theorem value?_value : (value tag text).value? = some (tag, Logger.withoutNul text) := rfl
@[simp] theorem value?_message : (message type text now).value? = none := rfl
@[simp] theorem value?_result : (result status date now).value? = none := rfl
@[simp] theorem message?_value : (value tag text).message? = none := rfl
@[simp] theorem message?_message : (message type text now).message? = some (type, Logger.withoutNul text, now) := rfl
@[simp] theorem message?_result : (result status date now).message? = none := rfl
@[simp] theorem result?_value : (value tag text).result? = none := rfl
@[simp] theorem result?_message : (message type text now).result? = none := rfl
@[simp] theorem result?_result : (result status date now).result? = some (status, date, now) := rfl

end

end Inscription

/-- How the last run of the register went. -/
def Register.outcome (r : Register) : Status × Option Instant × Instant := (r.status, r.dataTimestamp, r.lastProcess)

/-- What a message says. -/
def LogMessage.content (m : LogMessage) : MessageType × String × Instant := (m.type, m.description, m.timestamp)

namespace Values.Lists

/-- The lists with some values more, oldest first. -/
def notes (lists : Lists) (values : List (String × String)) : Lists :=
    values.foldl (fun lists v => lists.note v.1 v.2) lists

theorem notes_append (lists : Lists) (values more : List (String × String)) :
    lists.notes (values ++ more) = (lists.notes values).notes more := List.foldl_append

end Values.Lists

namespace MemoryTable

variable {t u : MemoryTable} {r r' : Register} {lists : Values.Lists} {ws : List Inscription}

/-- From the first table to the second by writes to one register, whose values were `lists` at first. -/
structure Inscribed (t u : MemoryTable) (r r' : Register) (lists : Values.Lists) (ws : List Inscription) : Prop where
  found : u.find? r.id = some r'
  origin : r'.origin = r.origin
  registers : u.registers = t.registers.map fun x => if x.id = r.id then r' else x
  lastRegister : u.lastRegister = t.lastRegister
  messages : ∃ new, u.messages = t.messages ++ new ∧ (∀ m ∈ new, m.registerId = r.id) ∧
    new.map (·.content) = ws.filterMap (·.message?)
  outcome : r'.outcome = (ws.filterMap (·.result?)).getLast?.getD r.outcome
  values : Values.Holds r'.data (lists.notes (ws.filterMap (·.value?)))

namespace Inscribed

theorem start (numbered : t.Numbered) (found : t.find? r.id = some r) (values : Values.Holds r.data lists) :
    Inscribed t t r r lists [] where
  found := found
  origin := rfl
  registers := by
    have hsame : ∀ x ∈ t.registers, (if x.id = r.id then r else x) = x := by
      intro x hx
      split
      · rename_i hid
        exact Option.some.inj (found.symm.trans (hid ▸ numbered.find?_mem hx))
      · rfl
    rw [List.map_congr_left hsame, List.map_id']
  lastRegister := rfl
  messages := ⟨[], (List.append_nil _).symm, fun m hm => absurd hm List.not_mem_nil, rfl⟩
  outcome := rfl
  values := values

theorem id_eq (h : Inscribed t u r r' lists ws) : r'.id = r.id := congrArg Prod.fst h.origin

/-- The register has changed once more. -/
theorem modify (h : Inscribed t u r r' lists ws) {f : Register → Register} (hf : ∀ x, (f x).origin = x.origin)
    {w : Inscription} (silent : w.message? = none)
    (outcome : (f r').outcome = w.result?.getD r'.outcome)
    (values : Values.Holds (f r').data ((lists.notes (ws.filterMap (·.value?))).notes w.value?.toList)) :
    Inscribed t (u.modify r.id f) r (f r') lists (ws ++ [w]) where
  found := by
    rw [find?_modify _ _ fun x => congrArg Prod.fst (hf x), if_pos rfl, h.found]
    rfl
  origin := (hf r').trans h.origin
  registers := by
    show u.registers.map _ = _
    rw [h.registers, List.map_map]
    refine List.map_congr_left fun x _ => ?_
    by_cases hx : x.id = r.id <;> simp [hx, h.id_eq]
  lastRegister := h.lastRegister
  messages := by
    obtain ⟨new, hnew, hids, hcontent⟩ := h.messages
    refine ⟨new, hnew, hids, ?_⟩
    rw [List.filterMap_append, hcontent, List.filterMap_cons_none silent]
    exact (List.append_nil _).symm
  outcome := by
    rw [List.filterMap_append, outcome, h.outcome]
    cases hw : w.result? <;> simp [hw]
  values := by
    rw [List.filterMap_append, Values.Lists.notes_append]
    cases hw : w.value? <;> rw [hw] at values <;> simpa [hw] using values

theorem insertMessage (h : Inscribed t u r r' lists ws) (type : MessageType) (text : String) (now : Instant) :
    Inscribed t (u.insertMessage r.id type (Logger.withoutNul text) now) r r' lists
      (ws ++ [.message type text now]) where
  found := h.found
  origin := h.origin
  registers := h.registers
  lastRegister := h.lastRegister
  messages := by
    obtain ⟨new, hnew, hids, hcontent⟩ := h.messages
    refine ⟨new ++ [⟨u.lastMessage + 1, r.id, type, Logger.withoutNul text, now⟩], ?_, ?_, ?_⟩
    · rw [← List.append_assoc, ← hnew]
      rfl
    · intro m hm
      rcases List.mem_append.mp hm with hm | hm
      · exact hids m hm
      · rw [List.mem_singleton.mp hm]
    · rw [List.map_append, hcontent, List.filterMap_append]
      rfl
  outcome := by
    rw [List.filterMap_append, h.outcome]
    simp
  values := by
    rw [List.filterMap_append]
    simpa [List.filterMap_cons] using h.values

end Inscribed

end MemoryTable

namespace Memory

variable {m n : Memory} {table : LogTable} {r r' : Register} {lists : Values.Lists} {ws : List Inscription}

/-- From the first log to the second by writes to one register. -/
structure Inscribed (m n : Memory) (table : LogTable) (r r' : Register) (lists : Values.Lists)
    (ws : List Inscription) : Prop where
  elsewhere : ∀ other, other ≠ table → n.tables.get? other = m.tables.get? other
  here : ∃ t u, m.tables.get? table = some t ∧ n.tables.get? table = some u ∧ t.Inscribed u r r' lists ws

theorem Inscribed.start {t : MemoryTable} (there : m.tables.get? table = some t) (numbered : t.Numbered)
    (found : t.find? r.id = some r) (values : Values.Holds r.data lists) : Inscribed m m table r r lists [] :=
  ⟨fun _ _ => rfl, t, t, there, there, .start numbered found values⟩

/-- A write to a register that is there succeeds. -/
theorem Inscribed.write (h : Inscribed m n table r r' lists ws) {l : Logger} (hl : l.table = some table)
    (w : Inscription) :
    ∃ n' x, w.write l r.id n = (.ok (), n') ∧ Inscribed m n' table r x lists (ws ++ [w]) := by
  obtain ⟨elsewhere, t, u, ht, hu, hin⟩ := h
  -- Only the entry of the one table changes in the memory.
  have hset : ∀ {v : MemoryTable} {x : Register}, t.Inscribed v r x lists (ws ++ [w]) →
      Inscribed m ⟨n.tables.set table v⟩ table r x lists (ws ++ [w]) := by
    intro v x hv
    refine ⟨fun other hother => ?_, t, v, ht, Keyed.get?_set_self .., hv⟩
    exact (Keyed.get?_set_of_ne _ _ hother).trans (elsewhere other hother)
  cases w with
  | value tag text =>
    obtain ⟨happend, hholds⟩ := hin.values.note tag (Logger.withoutNul text)
    refine ⟨_, _, ?_, hset (hin.modify (f := fun x => { x with data := some _ }) (fun _ => rfl) rfl rfl hholds)⟩
    show l.addValue tag text r.id n = _
    rw [Logger.addValue_apply _ _ hl]
    refine Logger.expect_found ?_
    show Memory.onTable table _ n = _
    simp only [Memory.onTable, hu, hin.found, happend]
    rfl
  | message type text now =>
    refine ⟨_, _, ?_, hset (hin.insertMessage type text now)⟩
    have hinsert : Storage.insertMessage table r.id type (Logger.withoutNul text) now n =
        (.ok (some (u.lastMessage + 1)),
          ⟨n.tables.set table (u.insertMessage r.id type (Logger.withoutNul text) now)⟩) := by
      show Memory.onTable table _ n = _
      simp only [Memory.onTable, hu, MemoryTable.contains, hin.found]
      rfl
    show l.log type text r.id now n = _
    rw [Logger.log, Logger.onTable, hl]
    refine Logger.expect_found ?_
    rw [Action.bind_apply, hinsert]
    rfl
  | result status date now =>
    refine ⟨_, _, ?_, hset (hin.modify (f := fun x => { x with status, dataTimestamp := date, lastProcess := now })
      (fun _ => rfl)
      rfl rfl hin.values)⟩
    show l.result status date r.id now n = _
    rw [Logger.result_apply _ _ hl]
    refine Logger.expect_found ?_
    show Memory.onTable table _ n = _
    simp only [Memory.onTable, hu, hin.found]
    rfl

end Memory

end ProcessRuns
