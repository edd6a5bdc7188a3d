import ProcessRuns.Proofs.Activities.Located
import ProcessRuns.Proofs.Log.Journal

/-! # The courses of the registers

As long as nobody selects other log tables, no call of the storage fails and statuses are written by the service
only, the storage has written what every step asked of it. So each register has one history, and what is open in the
log is what somebody has in hand. -/

namespace ProcessRuns

namespace Activities

variable {σ : Type} [Storage σ] [RowStorage σ] {s t : Activities (Journaled σ)} {m : Move} {l : Logger}
  {table : LogTable} {start : Rows} {c c' : RegisterId → Course}

/-- Each register has come as far as its course says. -/
structure Courses (table : LogTable) (start : Rows) (s : Activities (Journaled σ))
    (c : RegisterId → Course) : Prop where
  placed : s.Placed c
  phases : ∀ (i : Nat) (r : Run), s.runs[i]? = some r → r.stage.At (c r.package.registerId)
  legible : Journaled.Legible start s.shared.storage
  history : ∀ id, s.shared.storage.history table id = (c id).history
  opened : ∀ id, (c id).isOpened = true ↔ id ∈ s.record.openedIds
  stripped : ∀ id i, (c id).removal? = some i ↔ id ∈ s.record.takenIds i

namespace Courses

theorem located (h : Courses table start s c) : s.Located c := ⟨h.placed, h.phases, h.opened, h.stripped⟩

theorem place_run (h : Courses table start s c) {i : Nat} {r : Run} (here : s.runs[i]? = some r) :
    (c r.package.registerId).place = .run i ∧ (c r.package.registerId).onQueue = r.package.onQueue :=
  h.placed.at_run here

/-- A new register has a number that was not used, so it was not opened before. -/
theorem fresh (h : Courses table start s c) (hl : l.table = some table) {pid : ProcessId} {now : Instant}
    {id : RegisterId}
    {storage : Journaled σ} (started : l.start pid now s.shared.storage = (.ok id, storage)) : c id = .unopened := by
  rw [Logger.start_apply l _ hl] at started
  have hnone := (RowStorage.insert_ok h.legible.sound started).1
  rw [h.legible.rows, Option.or_eq_none_iff, List.getLast?_eq_none_iff, h.history] at hnone
  exact Course.eq_unopened hnone.1

/-- A status has been written to one register. -/
theorem push (h : Courses table start s c) {id : RegisterId} {x : Course} {status : Status}
    (sound : RowStorage.Sound t.shared.storage)
    (wrote : t.shared.storage.history = Journaled.push s.shared.storage.history table id status)
    (rows : RowStorage.rows t.shared.storage = (RowStorage.rows s.shared.storage).set table id status)
    (history : x.history = (c id).history ++ [status]) :
    Journaled.Legible start t.shared.storage ∧
      ∀ i, t.shared.storage.history table i = (Function.update c id x i).history := by
  refine ⟨h.legible.push sound wrote rows, fun i => ?_⟩
  rw [wrote, Journaled.push]
  by_cases hi : i = id
  · rw [if_pos ⟨rfl, hi⟩, hi, Function.update_self, history, h.history]
  · rw [if_neg fun hcase => hi hcase.2, Function.update_of_ne hi, h.history]

/-- A status is written to a register that was opened. -/
theorem result (h : Courses table start s c) (hl : l.table = some table) {status : Status} {date : Option Instant}
    {id : RegisterId} {now : Instant} {x : Course}
    (storage : t.shared.storage = (l.result status date id now s.shared.storage).2)
    (ok : t.shared.storage.failures = []) (there : (c id).isOpened = true)
    (history : x.history = (c id).history ++ [status]) :
    Journaled.Legible start t.shared.storage ∧
      ∀ i, t.shared.storage.history table i = (Function.update c id x i).history := by
  rw [Logger.result_snd l _ hl] at storage
  have hthere : (RowStorage.rows s.shared.storage table id).isSome := h.legible.there fun hno => by
    rw [h.history] at hno
    rw [Course.eq_unopened hno] at there
    cases there
  obtain ⟨hwrote, hrows⟩ := Journaled.update_there h.legible.sound hthere storage.symm ok
  refine h.push ?_ hwrote hrows history
  rw [storage]
  exact RowStorage.sound h.legible.sound (.updateResult table id status date now)

theorem went (h : Courses table start s c) (hl : l.table = some table) {k? : Option Closing} (hw : Went l s t c k? c')
    (ok : t.shared.storage.failures = []) :
    Journaled.Legible start t.shared.storage ∧ ∀ i, t.shared.storage.history table i = (c' i).history := by
  cases hw with
  | stays quiet => exact ⟨h.legible.quiet quiet, fun i => by rw [Journaled.quiet_history quiet, h.history]⟩
  | refused started =>
    -- The call that opens a register has not failed.
    rw [Logger.start_apply l _ hl] at started
    exact absurd ok (Journaled.asking_error started)
  | @opens i pid now id fresh started =>
    rw [Logger.start_apply l _ hl] at started
    obtain ⟨-, hrows⟩ := RowStorage.insert_ok h.legible.sound started
    refine h.push ?_ (Journaled.history_insert started) hrows (by rw [fresh]; rfl)
    rw [show t.shared.storage = _ from (congrArg Prod.snd started).symm]
    exact RowStorage.sound h.legible.sound (.insertRegister table pid .start now)
  | @goes id x next storage =>
    rw [storage]
    refine ⟨h.legible, fun i => ?_⟩
    rw [h.history]
    by_cases hi : i = id
    · rw [hi, Function.update_self, next.history, Option.toList_none, List.append_nil]
    · rw [Function.update_of_ne hi]
  | writes next storage => exact h.result hl storage ok next.isOpened.1 next.history
  | @closes i p e now q failed here started status storage =>
    refine h.result hl storage ok (by rw [started]; rfl) ?_
    rw [started, status]
    rfl
  | strips taken storage =>
    rw [storage]
    refine ⟨h.legible, fun i => ?_⟩
    rw [h.history]
    rcases taken i with hsame | ⟨q, hq, hnew⟩
    · rw [hsame]
    · rw [hq, hnew]
      rfl

theorem step (h : Courses table start s c) (hs : Orderly l s) (hr : s.Recorded) (hl : l.table = some table)
    (stays : m.isSelect = false) (ok : (s.step m).shared.storage.failures = []) :
    ∃ c', Courses table start (s.step m) c' := by
  obtain ⟨c', hc', hw⟩ := h.located.step hs hr stays fun _ _ _ _ started => h.fresh hl started
  obtain ⟨hlegible, hhistory⟩ := h.went hl hw ok
  exact ⟨c', hc'.placed, hc'.phases, hlegible, hhistory, hc'.opened, hc'.stripped⟩

end Courses

/-- A service over a log that has its table, with an empty journal. -/
def journaled (kind : ServiceKind) (instanceId cores workers : Nat) (l : Logger) (registry : Registry) (storage : σ) :
    Activities (Journaled σ) :=
  ofService (Service.create kind instanceId cores workers l registry ⟨storage, [], []⟩)

theorem courses_start (kind : ServiceKind) (instanceId cores workers : Nat) (l : Logger)
    (registry : Registry) {storage : σ}
    (sound : RowStorage.Sound storage) (table : LogTable) :
    Courses table (RowStorage.rows storage) (journaled kind instanceId cores workers l registry storage)
      fun _ => .unopened := by
  have hlocated := located_start (Service.create kind instanceId cores workers l registry
    (⟨storage, [], []⟩ : Journaled σ)) rfl
  exact ⟨hlocated.placed, hlocated.phases, ⟨sound, fun _ _ => rfl⟩, fun _ => rfl, hlocated.opened,
    hlocated.stripped⟩

/-- What holds after any moves without a selection; if no call has failed, the registers are on their courses. -/
structure OnCourse (table : LogTable) (start : Rows) (s : Activities (Journaled σ)) : Prop where
  recorded : s.Recorded
  orderly : Orderly ⟨some table⟩ s
  courses : s.shared.storage.failures = [] → ∃ c, Courses table start s c

theorem onCourse_after (kind : ServiceKind) (instanceId cores workers : Nat) (registry : Registry) {storage : σ}
    (sound : RowStorage.Sound storage) (table : LogTable) {moves : List Move}
    (stays : ∀ m ∈ moves, m.isSelect = false) :
    OnCourse table (RowStorage.rows storage)
      ((journaled kind instanceId cores workers ⟨some table⟩ registry storage).after moves) := by
  have horderly := orderly_start (Service.create kind instanceId cores workers ⟨some table⟩ registry
    (⟨storage, [], []⟩ : Journaled σ)) rfl
  refine after_keep _ ⟨recorded_start _ rfl, horderly, fun _ => ⟨_, courses_start _ _ _ _ _ _ sound _⟩⟩ ?_
  intro s h m hm
  have hstep := step_cases s m
  refine ⟨h.recorded.stepped hstep, h.orderly.stepped hstep (stays m hm), fun ok => ?_⟩
  -- A failure stays in the journal, so no call has failed before this one either.
  obtain ⟨c, hc⟩ := h.courses (Journaled.calls_failures (calls_stepped s hstep) ok)
  exact hc.step h.orderly h.recorded rfl (stays m hm) ok

end Activities

end ProcessRuns
