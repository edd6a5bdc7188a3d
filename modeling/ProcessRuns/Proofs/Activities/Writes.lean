import ProcessRuns.Proofs.Activities.Places
import ProcessRuns.Proofs.Log.Journal

/-! # Whose registers are written

What a request, a removal, a run or its job writes for a package goes to the register with the package's number in
the table of the log that the activity holds. Which log that is does not matter here. -/

namespace ProcessRuns

namespace Journaled

variable {σ : Type} {P : Write → Prop} {j k k' : Journaled σ}

/-- What was written from one state of the journal to another. -/
def added (j k : Journaled σ) : List Write := k.writes.drop j.writes.length

/-- All that was written between two journals is of a kind. -/
def Writes (P : Write → Prop) (j k : Journaled σ) : Prop := ∀ w ∈ added j k, P w

namespace Writes

theorem self (j : Journaled σ) : Writes P j j := by
  intro w hw
  rw [added, List.drop_length] at hw
  cases hw

theorem of_eq (h : k = k') (hw : Writes P j k') : Writes P j k := h ▸ hw

theorem of_append {ws : List Write} (h : k.writes = j.writes ++ ws) (each : ∀ w ∈ ws, P w) : Writes P j k := by
  intro w hw
  rw [added, h, List.drop_left] at hw
  exact each w hw

theorem of_single {w : Write} (h : k.writes = j.writes ++ [w]) (hw : P w) : Writes P j k :=
  of_append h fun _ hmem => List.mem_singleton.mp hmem ▸ hw

end Writes

end Journaled

/-- The write is to this register. -/
def Write.GoesTo (l : Logger) (id : RegisterId) (w : Write) : Prop := w.target? = l.table.map fun table => (table, id)

/-! ### What a log writes -/

namespace Logger

open Journaled

variable {σ α : Type} (l : Logger) (id : RegisterId) (j : Journaled σ)

theorem writes_onTable {P : Write → Prop} {f : LogTable → Action (Journaled σ) α}
    (each : ∀ table, l.table = some table → Writes P j (f table j).2) : Writes P j (l.onTable f j).2 := by
  cases h : l.table with
  | none => exact .of_eq (by rw [onTable, h]; rfl) (.self j)
  | some table => exact .of_eq (by rw [onTable, h]) (each table h)

theorem goesTo_of_table {table : LogTable} (h : l.table = some table) {w : Write} (hw : w.target? = some (table, id)) :
    w.GoesTo l id := by
  rw [Write.GoesTo, h, hw]
  rfl

variable [Storage σ]

theorem writes_start (pid : ProcessId) (now : Instant) :
    Writes (fun w => ∃ table id?, w = .register table .start id?) j (l.start pid now j).2 :=
  l.writes_onTable j fun table _ => .of_single rfl ⟨table, _, rfl⟩

theorem writes_result (status : Status) (date : Option Instant) (now : Instant) :
    Writes (Write.GoesTo l id) j (l.result status date id now j).2 :=
  l.writes_onTable j fun table h => by
    rw [expect_snd]
    exact .of_single rfl (l.goesTo_of_table id h rfl)

theorem writes_log (type : MessageType) (description : String) (now : Instant) :
    Writes (Write.GoesTo l id) j (l.log type description id now j).2 :=
  l.writes_onTable j fun table h => by
    rw [expect_snd, Action.snd_of_pure fun _ _ => rfl]
    exact .of_single rfl (l.goesTo_of_table id h rfl)

theorem writes_addValue (tag value : String) : Writes (Write.GoesTo l id) j (l.addValue tag value id j).2 :=
  l.writes_onTable j fun table h => by
    rw [expect_snd]
    exact .of_single rfl (l.goesTo_of_table id h rfl)

theorem writes_lastData {P : Write → Prop} (pid : ProcessId) : Writes P j (l.lastData pid j).2 :=
  l.writes_onTable j fun _ _ => .of_append rfl fun _ hw => absurd hw List.not_mem_nil

end Logger

theorem JobContext.writes_perform {σ : Type} [Storage σ] (c : JobContext) (now : Instant) (action : JobAction)
    (s : Shared (Journaled σ)) :
    Journaled.Writes (Write.GoesTo c.logger c.package.registerId) s.storage (c.perform now action s).2.storage := by
  cases action with
  | log type description =>
    exact .of_eq (congrArg Shared.storage (Action.snd_of_pure fun _ _ => rfl))
      (c.logger.writes_log c.package.registerId s.storage type description now)
  | addValue tag value =>
    exact .of_eq (congrArg Shared.storage (Action.snd_of_pure fun _ _ => rfl))
      (c.logger.writes_addValue c.package.registerId s.storage tag value)
  | lastData =>
    exact .of_eq (congrArg Shared.storage (Action.snd_of_pure fun _ _ => rfl))
      (c.logger.writes_lastData s.storage c.package.processId)
  | registry =>
    exact .of_eq (congrArg Shared.storage ((Action.snd_of_pure fun _ _ => rfl).trans (c.registry_snd s))) (.self _)
  | definition =>
    exact .of_eq (congrArg Shared.storage ((Action.snd_of_pure fun _ _ => rfl).trans (c.definition_snd s))) (.self _)
  | tableName | package => exact .self _

/-! ### Who writes for which package -/

/-- The activity that a move is a step of. -/
def Move.place? : Move → Option Place
  | .admission i _ => some (.admission i)
  | .removal i _ => some (.removal i)
  | .run i _ | .act i _ _ => some (.run i)
  | _ => none

/-- The log that a request has taken, until it is placed. -/
def Admission.log? : Admission → Option Logger
  | .openRegister logger _ _ | .place logger _ | .mark logger _ => some logger
  | _ => none

/-- The log that a removal has taken, until it is done. -/
def Removal.log? : Removal → Option Logger
  | .close logger _ _ | .announce logger _ _ _ => some logger
  | _ => none

/-- The log that a run has taken. -/
def Run.log? (r : Run) : Option Logger :=
  match r.stage with
  | .takeLog => none
  | _ => some r.logger

/-- How many packages a removal has left after the one that it closes next. -/
def Removal.after? : Removal → Option Nat
  | .close _ _ (_ :: packages) => some packages.length
  | _ => none

theorem Shared.storage_wake {σ : Type} (s : Shared σ) : s.wake.storage = s.storage := by
  unfold wake
  split <;> rfl

section

open Journaled

variable {σ : Type} [Storage σ] (now : Instant) (s : Shared (Journaled σ))

theorem Admission.writes_step (a : Admission) :
    Writes (fun w => (∃ table id?, w = .register table .start id?) ∨
      ∃ l p, a.holds? = some (l, p) ∧ a.log? = some l ∧
          w.GoesTo l p.registerId) s.storage (a.step now s).2.storage := by
  cases a with
  | find pid date =>
    rcases step_find now s pid date with h | h <;> rw [h] <;> exact .self _
  | openRegister logger pid date =>
    have hstart := logger.writes_start s.storage pid now
    rcases step_openRegister now s logger pid date with ⟨id, t, hs, h⟩ | ⟨e, t, hs, h⟩ <;> rw [h] <;>
      rw [hs] at hstart
    · exact fun w hw => Or.inl (hstart w hw)
    · exact fun w hw => Or.inl (hstart w hw)
  | place logger p =>
    rcases step_place now s logger p with ⟨-, h⟩ | ⟨-, -, h⟩ | ⟨-, -, h⟩ <;> rw [h] <;> exact .self _
  | mark logger p =>
    have hmark := logger.writes_result p.registerId s.storage .onQueue none now
    exact fun w hw => Or.inr ⟨logger, p, rfl, rfl, hmark w hw⟩
  | wake p => exact .of_eq s.storage_wake (.self _)
  | takeLog | announce | done => exact .self _

theorem Removal.writes_step (r : Removal) :
    Writes (fun w => ∃ l count p packages, r = .close l count (p :: packages) ∧ w.GoesTo l p.registerId) s.storage
      (r.step now s).2.storage := by
  cases r with
  | close logger count packages =>
    cases packages with
    | nil => exact .self _
    | cons p packages =>
      have hclose := logger.writes_result p.registerId s.storage .notExecuted none now
      exact fun w hw => ⟨logger, count, p, packages, rfl, hclose w hw⟩
  | forget | strip | takeLog | announce | done => exact .self _

theorem Run.writes_step (r : Run) :
    Writes (fun w => r.log? = some r.logger ∧ w.GoesTo r.logger r.package.registerId) s.storage
        (r.step now s).2.storage := by
  obtain ⟨p, logger, stage⟩ := r
  cases stage with
  | mark | close => exact fun w hw => ⟨rfl, logger.writes_result _ _ _ _ _ w hw⟩
  | stampStart | stampEnd => exact fun w hw => ⟨rfl, logger.writes_addValue _ _ _ _ w hw⟩
  | explain e =>
    simp only [step]
    cases e.message? with
    | none => exact .self _
    | some message => exact fun w hw => ⟨rfl, logger.writes_log _ _ _ _ _ w hw⟩
  | wake e => exact .of_eq s.storage_wake (.self _)
  | takeLog | announce | check | working | release | report | leave | finished => exact .self _

end

namespace Activities

variable {σ : Type}

/-- The log that was taken at a place. -/
def logAt (s : Activities σ) : Place → Option Logger
  | .admission i => (s.admissions[i]?).bind (·.log?)
  | .removal i => (s.removals[i]?).bind (·.log?)
  | .run i => (s.runs[i]?).bind (·.log?)
  | .nowhere | .queues => none

/-- The ticket of the package that an activity works for. -/
def ticketAt (s : Activities σ) : Place → Option Ticket
  | .admission i => (s.admissions[i]?).bind fun a => a.holds?.map fun held => ⟨i, held.1, held.2⟩
  | .removal i => (s.removals[i]?).bind fun r => r.after?.bind fun left =>
      (s.record.stripped[i]?).bind (·.reverse[left]?)
  | .run i => s.record.dispatched[i]?
  | .nowhere | .queues => none

/-- What a move asks the storage to write. -/
def writesOf [Storage σ] (s : Activities (Journaled σ)) (m : Move) : List Write :=
  Journaled.added s.shared.storage (s.step m).shared.storage

namespace Recorded

/-- What a removal has in its hands are the last tickets of those that it took out. -/
theorem ticketAt_removal {s : Activities σ} (h : s.Recorded) {i : Nat} {l : Logger} {count : Nat} {p : Package}
    {packages : List Package} (here : s.removals[i]? = some (.close l count (p :: packages))) :
    ∃ t, s.ticketAt (.removal i) = some t ∧ t.package = p := by
  obtain ⟨hi, -⟩ := List.getElem?_eq_some_iff.mp here
  have hi : i < s.record.stripped.length := h.removals ▸ hi
  have hts : s.record.stripped[i]? = some s.record.stripped[i] := List.getElem?_eq_getElem hi
  generalize s.record.stripped[i] = ts at hts
  have hsuffix : p :: packages <:+ ts.map fun t => t.package := h.stripped i _ ts here hts
  obtain ⟨taken, htaken⟩ := hsuffix
  have hlast : (ts.reverse[packages.length]?).map (·.package) = some p := by
    rw [← List.getElem?_map, List.map_reverse, ← htaken, List.reverse_append, List.reverse_cons, List.append_assoc,
      ← List.length_reverse, List.getElem?_append_right (Nat.le_refl _), Nat.sub_self]
    rfl
  obtain ⟨t, ht, hp⟩ := Option.map_eq_some_iff.mp hlast
  refine ⟨t, ?_, hp⟩
  simp only [ticketAt, here, Option.bind_some, Removal.after?, hts, ht]

theorem ticketAt_run {s : Activities σ} (h : s.Recorded) {i : Nat} {r : Run} (here : s.runs[i]? = some r) :
    ∃ t, s.ticketAt (.run i) = some t ∧ t.package = r.package := by
  have hpackage : (s.record.dispatched.map (·.package))[i]? = some r.package := by
    rw [h.dispatched, List.getElem?_map, here]
    rfl
  rw [List.getElem?_map] at hpackage
  exact Option.map_eq_some_iff.mp hpackage

theorem origin_admission {s : Activities σ} (h : s.Recorded) {i : Nat} {t : Ticket}
    (ht : s.ticketAt (.admission i) = some t) :
    t.origin ∈ s.record.opened ∧ t.request = i := by
  obtain ⟨a, here, ha⟩ := Option.bind_eq_some_iff.mp ht
  obtain ⟨⟨l, p⟩, hheld, rfl⟩ := Option.map_eq_some_iff.mp ha
  exact ⟨h.held i a l p here hheld, rfl⟩

/-- The register of what an activity works for was opened by a request. -/
theorem origin_ticketAt {s : Activities σ} (h : s.Recorded) {place : Place} {t : Ticket}
    (ht : s.ticketAt place = some t) :
    t.origin ∈ s.record.opened := by
  cases place with
  | nowhere | queues => cases ht
  | admission i => exact (h.origin_admission ht).1
  | run i => exact h.origins t (Or.inr (Or.inl (List.mem_of_getElem? ht)))
  | removal i =>
    obtain ⟨r, -, hr⟩ := Option.bind_eq_some_iff.mp ht
    obtain ⟨left, -, hleft⟩ := Option.bind_eq_some_iff.mp hr
    obtain ⟨ts, hts, hmem⟩ := Option.bind_eq_some_iff.mp hleft
    exact h.origins t (Or.inr (Or.inr ⟨ts, List.mem_of_getElem? hts, List.mem_reverse.mp (List.mem_of_getElem? hmem)⟩))

end Recorded

/-- The write is for the package that an activity works for, in the log that it holds. -/
def WritesFor (s : Activities σ) (place : Place) (w : Write) : Prop :=
  ∃ t l, s.ticketAt place = some t ∧ t.package ∈ s.heldAt place ∧ s.logAt place = some l ∧
    w.GoesTo l t.package.registerId

section
variable {s : Activities σ} {i : Nat} {w : Write}

theorem writesFor_admission {a : Admission} {l : Logger} {p : Package} (here : s.admissions[i]? = some a)
    (held : a.holds? = some (l, p)) (log : a.log? = some l) (goes : w.GoesTo l p.registerId) :
    s.WritesFor (.admission i) w := by
  refine ⟨⟨i, l, p⟩, l, ?_, ?_, ?_, goes⟩
  · simp only [ticketAt, here, Option.bind_some, held, Option.map_some]
  · rw [heldAt_admission here, Admission.held, held]
    exact List.mem_singleton.mpr rfl
  · rw [logAt, here]
    exact log

theorem writesFor_removal (h : s.Recorded) {l : Logger} {count : Nat} {p : Package} {packages : List Package}
    (here : s.removals[i]? = some (.close l count (p :: packages))) (goes : w.GoesTo l p.registerId) :
    s.WritesFor (.removal i) w := by
  obtain ⟨t, ht, rfl⟩ := h.ticketAt_removal here
  refine ⟨t, l, ht, ?_, ?_, goes⟩
  · rw [heldAt_removal here]
    exact List.mem_cons_self
  · rw [logAt, here]
    rfl

theorem writesFor_run (h : s.Recorded) {r : Run} (here : s.runs[i]? = some r) (log : r.log? = some r.logger)
    (goes : w.GoesTo r.logger r.package.registerId) : s.WritesFor (.run i) w := by
  obtain ⟨t, ht, hp⟩ := h.ticketAt_run here
  refine ⟨t, r.logger, ht, ?_, ?_, hp ▸ goes⟩
  · rw [heldAt_run here, hp]
    exact List.mem_singleton.mpr rfl
  · rw [logAt, here]
    exact log

end

/-- A step of an activity, or of its job, opens a register, or it writes for the package that the activity works
for. -/
theorem writes_step [Storage σ] {s : Activities (Journaled σ)} (h : s.Recorded) {m : Move} {place : Place}
    (hm : m.place? = some place) {w : Write} (hw : w ∈ s.writesOf m) :
    (∃ table id?, w = .register table .start id?) ∨ s.WritesFor place w := by
  -- A step that changes nothing writes nothing.
  have idle : s.step m = s → False := by
    intro hsame
    rw [writesOf, hsame] at hw
    exact Journaled.Writes.self (P := fun _ => False) s.shared.storage w hw
  cases m with
  | admission i now =>
    cases hm
    cases here : s.admissions[i]? with
    | none => exact (idle (by simp only [step, here, Option.elim_none])).elim
    | some a =>
      simp only [writesOf, step, here, Option.elim_some] at hw
      rcases a.writes_step now s.shared w hw with hopen | ⟨l, p, hheld, hlog, hgoes⟩
      · exact Or.inl hopen
      · exact Or.inr (writesFor_admission here hheld hlog hgoes)
  | removal i now =>
    cases hm
    cases here : s.removals[i]? with
    | none => exact (idle (by simp only [step, here, Option.elim_none])).elim
    | some r =>
      simp only [writesOf, step, here, Option.elim_some] at hw
      obtain ⟨l, count, p, packages, rfl, hgoes⟩ := r.writes_step now s.shared w hw
      exact Or.inr (writesFor_removal h here hgoes)
  | run i now =>
    cases hm
    cases here : s.runs[i]? with
    | none => exact (idle (by simp only [step, here, Option.elim_none])).elim
    | some r =>
      simp only [writesOf, step, here, Option.elim_some] at hw
      obtain ⟨hlog, hgoes⟩ := r.writes_step now s.shared w hw
      exact Or.inr (writesFor_run h here hlog hgoes)
  | act i action now =>
    cases hm
    cases here : s.runs[i]? with
    | none => exact (idle (by simp only [step, here, Option.elim_none])).elim
    | some r =>
      cases working : r.stage with
      | working =>
        simp only [writesOf, step, here, Option.elim_some, act, working] at hw
        have hlog : r.log? = some r.logger := by rw [Run.log?, working]
        exact Or.inr (writesFor_run h here hlog (r.context.writes_perform now action s.shared w hw))
      | _ => exact (idle (by simp only [step, here, Option.elim_some, act, working])).elim
  | request | forget | answer | loop | launch | halt | release | nudge | select | outside | lookUp | define | undefine
  | disown | resize | withdraw => cases hm

end Activities

end ProcessRuns
