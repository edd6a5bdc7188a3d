import ProcessRuns.Proofs.Activities.Closings
import ProcessRuns.Proofs.Activities.Courses

/-! # The newest data of a process

A job asks how new the data is that earlier runs of its process produced, to go on from there. The answer is the newest
date in the rows of the process. Dates come to the rows when runs end: with the date that a job reports with its data,
and also with the time at which a run failed, though it produced nothing. -/

namespace ProcessRuns

namespace Closing

/-- The date that the job reported with its data. -/
def reported? (k : Closing) : Option Instant :=
  match k.ending with
  | .done date _ => date
  | _ => none

/-- When the run failed. -/
def failedAt? (k : Closing) : Option Instant :=
  match k.ending with
  | .failed _ => some k.time
  | _ => none

theorem dataTimestamp_iff (k : Closing) (a : Instant) :
    k.ending.dataTimestamp k.time = some a ↔ k.reported? = some a ∨ k.failedAt? = some a := by
  unfold reported? failedAt?
  cases k.ending with
  | done date info => exact ⟨Or.inl, fun h => h.resolve_right fun hno => by cases hno⟩
  | noData => exact ⟨Or.inl, fun h => h.resolve_right fun hno => by cases hno⟩
  | failed text => exact ⟨Or.inr, fun h => h.resolve_left fun hno => by cases hno⟩

end Closing

/-- The dates of the data of a process: those that its rows had at first and those that its jobs have reported. -/
def dataDates (start : Entries) (table : LogTable) (ks : List Closing) (pid : ProcessId) : Set Instant :=
  start.dates table pid ∪ {a | ∃ k ∈ ks, k.package.processId = pid ∧ k.reported? = some a}

/-- The times at which runs of a process have failed. -/
def failureTimes (ks : List Closing) (pid : ProcessId) : Set Instant :=
  {a | ∃ k ∈ ks, k.package.processId = pid ∧ k.failedAt? = some a}

namespace Activities

variable {σ : Type} [Storage σ] [RowStorage σ] [EntryStorage σ] {table : LogTable} {start : RegisterId → Option Entry}
  {c : RegisterId → Course} {ks : List Closing} {pid : ProcessId}

/-- The dates in the rows were there at first, or the log has got them at the end of runs. -/
theorem Entered.mem_dates {s : Activities σ} (h : Entered table start s c ks) (a : Instant) :
    a ∈ (EntryStorage.entries s.shared.storage).dates table pid ↔
      (∃ id e, start id = some e ∧ e.processId = pid ∧ e.date = some a) ∨
        ∃ k ∈ ks, k.package.processId = pid ∧ k.date? = some a := by
  constructor
  · rintro ⟨id, e, he, hpid, hdate⟩
    have htold := h.told id
    rw [he] at htold
    cases hc : c id with
    | unopened =>
      rw [hc] at htold
      exact Or.inl ⟨id, e, htold.symm, hpid, hdate⟩
    | admitted | queued | dispatched | started | stripped =>
      rw [hc] at htold
      obtain ⟨-, e', he', -, hnone⟩ := htold
      rw [← Option.some.inj he', hdate] at hnone
      cases hnone
    | dropped =>
      rw [hc] at htold
      obtain ⟨-, e', he', hnone⟩ := htold
      rw [← Option.some.inj he', hdate] at hnone
      cases hnone
    | ended i q failed =>
      obtain ⟨k, hk, rfl⟩ := h.ended id i q failed hc
      obtain ⟨-, e', he', hshown⟩ := h.closed k hk
      obtain rfl : e = e' := Option.some.inj (he.symm.trans he')
      exact Or.inr ⟨k, hk, hshown.1.symm.trans hpid, hshown.date.symm.trans hdate⟩
  · rintro (⟨id, e, he, hpid, hdate⟩ | ⟨k, hk, hpid, hdate⟩)
    · have hc : c id = .unopened := by
        by_contra hopened
        rw [(h.there hopened).1] at he
        cases he
      have htold := h.told id
      rw [hc] at htold
      exact ⟨id, e, htold.trans he, hpid, hdate⟩
    · obtain ⟨-, e, he, hshown⟩ := h.closed k hk
      exact ⟨_, e, he, hshown.1.trans hpid, hshown.date.trans hdate⟩

/-- When all ends of runs have been taken, the dates are those of the data and those of the failures. -/
theorem Entered.dates_eq {es : Entries} {s : Activities σ} (h : Entered table (es table) s c ks)
    (written : ∀ k ∈ ks, k.written = true) :
    (EntryStorage.entries s.shared.storage).dates table pid = dataDates es table ks pid ∪ failureTimes ks pid := by
  ext a
  have htaken : ∀ k ∈ ks, (k.date? = some a ↔ k.reported? = some a ∨ k.failedAt? = some a) := by
    intro k hk
    rw [Closing.date?, if_pos (written k hk), k.dataTimestamp_iff]
  rw [h.mem_dates]
  constructor
  · rintro (hstart | ⟨k, hk, hpid, hdate⟩)
    · exact Or.inl (Or.inl hstart)
    · rcases (htaken k hk).mp hdate with hreported | hfailed
      · exact Or.inl (Or.inr ⟨k, hk, hpid, hreported⟩)
      · exact Or.inr ⟨k, hk, hpid, hfailed⟩
  · rintro ((hstart | ⟨k, hk, hpid, hreported⟩) | ⟨k, hk, hpid, hfailed⟩)
    · exact Or.inl hstart
    · exact Or.inr ⟨k, hk, hpid, (htaken k hk).mpr (Or.inl hreported)⟩
    · exact Or.inr ⟨k, hk, hpid, (htaken k hk).mpr (Or.inr hfailed)⟩

variable {s : Activities (Journaled σ)} {m : Move}

/-- The log takes the end of a run unless a call fails. -/
theorem Entered.written (h : Entered table start s c ks) (hs : Orderly ⟨some table⟩ s) (hr : s.Recorded)
    (stays : m.isSelect = false) {k : Closing} (hk : s.closing? m = some k)
    (ok : (s.step m).shared.storage.failures = []) :
    k.written = true := by
  obtain ⟨c', -, hw⟩ := h.located.step hs hr stays fun _ _ _ _ started => h.fresh started
  rw [hk] at hw
  cases hw with
  | closes here started status storage =>
    refine Journaled.result_ok rfl h.sound (h.there ?_).2 (storage ▸ ok)
    rw [started]
    exact Course.noConfusion

/-- What the rows say when the calls of the storage are written down. -/
theorem entered_journaled (kind : ServiceKind) (instanceId cores workers : Nat) (registry : Registry) {storage : σ}
    (sound : RowStorage.Sound storage) (table : LogTable) {moves : List Move}
    (stays : ∀ m ∈ moves, m.isSelect = false) :
    let first := journaled kind instanceId cores workers ⟨some table⟩ registry storage
    (first.after moves).Recorded ∧ Orderly ⟨some table⟩ (first.after moves) ∧
      ∃ c, Entered table (EntryStorage.entries storage table) (first.after moves) c (first.closings moves) :=
  entered_after (Service.create kind instanceId cores workers ⟨some table⟩ registry
    (⟨storage, [], []⟩ : Journaled σ)) rfl
    rfl sound stays

theorem written_after (kind : ServiceKind) (instanceId cores workers : Nat) (registry : Registry) {storage : σ}
    (sound : RowStorage.Sound storage) {moves : List Move} (stays : ∀ m ∈ moves, m.isSelect = false)
    (ok : ((journaled kind instanceId cores workers ⟨some table⟩ registry storage).after
      moves).shared.storage.failures = []) :
    ∀ k ∈ (journaled kind instanceId cores workers ⟨some table⟩ registry storage).closings moves,
        k.written = true := by
  induction moves using List.reverseRecOn with
  | nil =>
    intro k hk
    cases hk
  | append_singleton moves m ih =>
    have hstays : ∀ m' ∈ moves, m'.isSelect = false := fun m' hm' => stays m' (List.mem_append_left _ hm')
    obtain ⟨hrecorded, horderly, c, hc⟩ := entered_journaled kind instanceId cores workers registry sound table hstays
    rw [after_append] at ok
    -- A failure stays in the journal, so no call has failed before this one either.
    have hbefore := Journaled.calls_failures (calls_stepped _ (step_cases _ m)) ok
    intro k hk
    rw [closings_append] at hk
    rcases List.mem_append.mp hk with hk | hk
    · exact ih hstays hbefore k hk
    · rw [closings, closings, List.append_nil] at hk
      exact hc.written horderly hrecorded (stays m (List.mem_append_right _ (List.mem_singleton.mpr rfl)))
        (Option.mem_toList.mp hk) ok

/-- As long as no call of the storage fails and nobody selects other log tables, the date that a process is told is the
newest of those of its data and the times at which runs of it have failed; none if there are none of these. It is the
newest date of its data exactly if no run has failed later. A running job is told the same. -/
theorem last_data_is_newest_closing (kind : ServiceKind) (instanceId cores workers : Nat)
    (registry : Registry) {storage : σ}
    (sound : RowStorage.Sound storage) (table : LogTable) {moves : List Move} (stays : ∀ m ∈ moves, m.isSelect = false)
    (pid : ProcessId)
    (ok : ((⟨some table⟩ : Logger).lastData pid ((journaled kind instanceId cores workers ⟨some table⟩ registry
      storage).after moves).shared.storage).2.failures = []) :
    let first := journaled kind instanceId cores workers ⟨some table⟩ registry storage
    let s := first.after moves
    let data := dataDates (EntryStorage.entries storage) table (first.closings moves) pid
    let failures := failureTimes (first.closings moves) pid
    ∃ d, ((⟨some table⟩ : Logger).lastData pid s.shared.storage).1 = .ok d ∧
      Instant.Newest (data ∪ failures) d ∧
      (Instant.Newest data d ↔ ∀ a ∈ failures, ∃ b ∈ data, a ≤ b) ∧
      ∀ r ∈ s.runs, r.stage = .working → r.package.processId = pid → (r.context.lastData s.shared).1 = .ok d := by
  intro first s data failures
  obtain ⟨-, horderly, c, hc⟩ := entered_journaled kind instanceId cores workers registry sound table stays
  obtain ⟨hbefore, d, hd, hnewest⟩ := Journaled.lastData_ok rfl hc.sound ok
  have hwritten := written_after kind instanceId cores workers registry sound stays hbefore
  have hdates : (EntryStorage.entries s.shared.storage).dates table pid = data ∪ failures := hc.dates_eq hwritten
  have hnewest : Instant.Newest (data ∪ failures) d := hdates ▸ hnewest
  refine ⟨d, hd, hnewest, Instant.newest_left_iff hnewest, fun r hr working hpid => ?_⟩
  have hlogger : r.logger = ⟨some table⟩ := by
    have huses := horderly.runs r hr
    rwa [Run.Uses, working] at huses
  show (r.logger.lastData r.package.processId s.shared.storage).1 = .ok d
  rw [hlogger, hpid]
  exact hd

/-- A process is requested and runs, and its job panics. -/
def panickedRun : List Move :=
  [.request 1 .epoch] ++ List.replicate 6 (.admission 0 .epoch) ++ [.launch, .loop, .loop] ++
    List.replicate 5 (.run 0 .epoch) ++ [.answer 0 (.panic none)] ++ List.replicate 5 (.run 0 .epoch)

/-- No run has produced data, and yet there is a date. -/
theorem last_data_is_newest_closing_of_panickedRun :
    RowStorage.Sound soloLog ∧ (∀ m ∈ panickedRun, m.isSelect = false) ∧
      let first := journaled .collector 1 4 2 ⟨some soloTable⟩ soloRegistry soloLog
      let storage := (first.after panickedRun).shared.storage
      let failures := failureTimes (first.closings panickedRun) 1
      ((⟨some soloTable⟩ : Logger).lastData 1 storage).2.failures = [] ∧
        dataDates (EntryStorage.entries soloLog) soloTable (first.closings panickedRun) 1 = ∅ ∧
        ∃ a ∈ failures, ((⟨some soloTable⟩ : Logger).lastData 1 storage).1 = .ok (some a) := by
  have stays : ∀ m ∈ panickedRun, m.isSelect = false := by decide
  have ok : ((⟨some soloTable⟩ : Logger).lastData 1 ((journaled .collector 1 4 2 ⟨some soloTable⟩ soloRegistry
      soloLog).after panickedRun).shared.storage).2.failures = [] := by decide +kernel
  obtain ⟨d, hd, hnewest, -, -⟩ :=
    last_data_is_newest_closing .collector 1 4 2 soloRegistry sound_soloLog soloTable stays 1 ok
  have hreported : ∀ k ∈ (journaled .collector 1 4 2 ⟨some soloTable⟩ soloRegistry soloLog).closings panickedRun,
      k.reported? = none := by decide +kernel
  have hfailed : ∃ k ∈ (journaled .collector 1 4 2 ⟨some soloTable⟩ soloRegistry soloLog).closings panickedRun,
      k.package.processId = 1 ∧ k.failedAt? = some .epoch := by decide +kernel
  have hdata : dataDates (EntryStorage.entries soloLog) soloTable ((journaled .collector 1 4 2 ⟨some soloTable⟩
      soloRegistry soloLog).closings panickedRun) 1 = ∅ := by
    refine Set.eq_empty_of_forall_notMem fun a ha => ?_
    rcases ha with ⟨id, e, he, -⟩ | ⟨k, hk, -, hdate⟩
    · cases he
    · rw [hreported k hk] at hdate
      cases hdate
  rw [hdata, Set.empty_union] at hnewest
  refine ⟨sound_soloLog, stays, ok, hdata, ?_⟩
  cases d with
  | none =>
    have hno : Instant.epoch ∉ failureTimes _ 1 := Set.eq_empty_iff_forall_notMem.mp hnewest _
    exact absurd hfailed hno
  | some a => exact ⟨a, hnewest.1, hd⟩

end Activities

end ProcessRuns
