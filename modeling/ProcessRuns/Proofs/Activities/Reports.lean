import ProcessRuns.Proofs.Activities.Closings
import ProcessRuns.Proofs.Activities.Deeds

/-! # What reports say and what rows say

A run reports its end from what its job came back with, and it writes its row from the same; but the report goes out
whether the row was written or not. So a report of success is backed by the row exactly if the log has taken the end of
the run. -/

namespace ProcessRuns

theorem Ending.success_report (p : Package) (e : Ending) : (e.report p).success = true ↔ e.status = .done := by
  cases e with
  | done | noData => exact ⟨fun _ => rfl, fun _ => rfl⟩
  | failed => exact ⟨Bool.noConfusion, Status.noConfusion⟩

/-- The row agrees with what the run reports exactly if the log has taken the end of the run. -/
theorem Closing.Shown.agrees_iff {k : Closing} {e : Entry} (h : k.Shown e) :
    (e.status = k.ending.status ∧ e.date = k.ending.dataTimestamp k.time ↔ k.written = true) ∧
      (k.written = false → e.Open) := by
  obtain ⟨-, h⟩ := h
  cases hwritten : k.written with
  | true =>
    rw [hwritten, if_pos rfl] at h
    rw [h]
    exact ⟨⟨fun _ => rfl, fun _ => ⟨rfl, rfl⟩⟩, Bool.noConfusion⟩
  | false =>
    rw [hwritten, if_neg Bool.false_ne_true] at h
    refine ⟨⟨fun ⟨hstatus, _⟩ => ?_, Bool.noConfusion⟩, fun _ => h⟩
    obtain ⟨failed, hending⟩ := k.ending.status_eq
    have hopen := h.1
    rw [hstatus, hending] at hopen
    cases failed <;> rcases hopen with hno | hno <;> cases hno

namespace Activities

variable {σ : Type} [Storage σ] {s : Activities σ} {m : Move} {ds : List (Place × Deed)}

/-- Nobody but a run that has released its process announces that a run has ended. -/
theorem reporter (did : s.Did ds) {place : Place} {n : Notice} {f : Finished}
    (h : s.deed? m = some (place, .announces n))
    (finished : n.event = .finished f) :
    ∃ i now r e, m = .run i now ∧ s.runs[i]? = some r ∧ r.stage = .report e ∧
      n = r.package.notice (.finished (e.report r.package)) := by
  cases m with
  | admission i now =>
    obtain ⟨a, here, ha⟩ := Option.bind_eq_some_iff.mp h
    obtain ⟨d, hd, hsame⟩ := Option.map_eq_some_iff.mp ha
    obtain ⟨-, rfl⟩ := Prod.mk.inj hsame
    have hdid := did.admission i
    rw [here, Option.elim_some] at hdid
    -- A request announces the admission only.
    cases a with
    | announce p event =>
      obtain rfl : p.notice event = n := by
        injection Option.some.inj hd
      obtain ⟨⟨rfl, -⟩ | ⟨rfl, -⟩, -⟩ := hdid <;> cases finished
    | place log p =>
      rcases Admission.step_place now s.shared log p with ⟨-, hstep⟩ | ⟨-, -, hstep⟩ | ⟨-, -, hstep⟩ <;>
        rw [hstep] at hd <;> cases hd
    | find | takeLog | openRegister | mark | wake | done =>
      simp only [Admission.deed?] at hd
      cases hd
  | removal i now =>
    obtain ⟨r, -, hr⟩ := Option.bind_eq_some_iff.mp h
    obtain ⟨d, hd, hsame⟩ := Option.map_eq_some_iff.mp hr
    obtain ⟨-, rfl⟩ := Prod.mk.inj hsame
    cases r with
    | announce logger count p packages =>
      obtain rfl : p.notice .notExecuted = n := by
        injection Option.some.inj hd
      cases finished
    | forget | strip | takeLog | close | done => cases hd
  | run i now =>
    obtain ⟨r, here, hr⟩ := Option.bind_eq_some_iff.mp h
    obtain ⟨d, hd, hsame⟩ := Option.map_eq_some_iff.mp hr
    obtain ⟨-, rfl⟩ := Prod.mk.inj hsame
    cases hstage : r.stage with
    | announce =>
      rw [Run.deed?, hstage] at hd
      cases hd
      cases finished
    | report e =>
      rw [Run.deed?, hstage] at hd
      cases hd
      exact ⟨i, now, r, e, rfl, here, hstage, rfl⟩
    | _ =>
      rw [Run.deed?, hstage] at hd
      cases hd
  | _ => cases h

variable [RowStorage σ] [EntryStorage σ]

/-- Under any interleaving without a selection of log tables, whatever calls fail, the end of a run is reported by the
run itself after it has closed its register. A success is reported exactly for a run whose register was to be `done`.
At that moment the row has the status and the date that the run was to give it exactly if the log has taken them; if
not, the row is still open. -/
theorem reports_match_rows_iff_written (kind : ServiceKind) (instanceId cores workers : Nat) (registry : Registry)
    {storage : σ} (sound : RowStorage.Sound storage) (table : LogTable) {moves : List Move}
    (stays : ∀ m ∈ moves, m.isSelect = false) :
    let first := ofService (Service.create kind instanceId cores workers ⟨some table⟩ registry storage)
    ∀ n ∈ (first.after moves).shared.notices, ∀ f, n.event = .finished f →
      ∃ (before after : List Move) (i : Nat) (now : Instant) (r : Run), ∃ k ∈ first.closings before, ∃ e,
        moves = before ++ .run i now :: after ∧
        (first.after before).runs[i]? = some r ∧ k.run = i ∧ k.package = r.package ∧
        n = r.package.notice (.finished (k.ending.report r.package)) ∧ (f.success = true ↔ k.ending.status = .done) ∧
        ((first.after before).step (.run i now)).shared.notices = (first.after before).shared.notices ++ [n] ∧
        EntryStorage.entries (first.after before).shared.storage table n.registerId = some e ∧
          e.processId = n.processId ∧
        (e.status = k.ending.status ∧ e.date = k.ending.dataTimestamp k.time ↔ k.written = true) ∧
        (k.written = false → e.Open) := by
  intro first n hn f hf
  rw [notices_after] at hn
  obtain ⟨⟨place, d⟩, hd, hnotice⟩ := List.mem_filterMap.mp ((List.mem_append.mp hn).resolve_left List.not_mem_nil)
  obtain ⟨before, m, after, hmoves, hdeed⟩ := mem_deeds hd
  obtain rfl : d = .announces n := by
    cases d <;> cases hnotice
    rfl
  -- The run that reports has closed its register in the moves before.
  obtain ⟨i, now, r, e, rfl, here, hstage, rfl⟩ := reporter ((did_start _).after before) hdeed hf
  obtain ⟨k, hk, hrun, hpackage, rfl⟩ := closing_of_ended (s := first) rfl before here (by rw [Run.ended?, hstage])
  obtain ⟨-, -, c, hc⟩ := entered_after (Service.create kind instanceId cores workers ⟨some table⟩ registry storage)
    rfl rfl
    sound fun m hm => stays m (hmoves ▸ List.mem_append_left _ hm)
  obtain ⟨-, entry, hentry, hshown⟩ := hc.closed k hk
  rw [hpackage] at hentry
  obtain ⟨hiff, hopen⟩ := hshown.agrees_iff
  refine ⟨before, after, i, now, r, k, hk, entry, hmoves, here, hrun, hpackage, rfl, ?_, ?_, hentry, ?_, hiff, hopen⟩
  · cases hf
    exact k.ending.success_report r.package
  · rw [notices_step, hdeed]
    rfl
  · rw [hshown.1, hpackage]
    rfl

/-- A process is requested and runs, and its job comes back with new data. -/
def oneRun : List Move :=
  [.request 1 .epoch] ++ List.replicate 6 (.admission 0 .epoch) ++ [.launch, .loop, .loop] ++
    List.replicate 5 (.run 0 .epoch) ++ [.answer 0 (.done (some .epoch) [])] ++ List.replicate 5 (.run 0 .epoch)

/-- The log in which only the fourth call to come fails. -/
def fourthLost : Flaky Memory := ⟨soloLog, [false, false, false, true]⟩

/-- Activities over that log. -/
def lostClosing : Activities (Flaky Memory) :=
  ofService (Service.create .collector 1 4 2 ⟨some soloTable⟩ soloRegistry fourthLost)

/-- The log does not take the end of the run, and a success is reported while the row is open. -/
theorem reports_match_rows_iff_written_of_fourthLost :
    RowStorage.Sound fourthLost ∧ (∀ m ∈ oneRun, m.isSelect = false) ∧
      ∃ n ∈ (lostClosing.after oneRun).shared.notices, ∃ f, n.event = .finished f ∧ f.success = true ∧
        ∃ before m after e, oneRun = before ++ m :: after ∧
          ((lostClosing.after before).step m).shared.notices = (lostClosing.after before).shared.notices ++ [n] ∧
          EntryStorage.entries (lostClosing.after before).shared.storage soloTable n.registerId = some e ∧ e.Open := by
  have sound : RowStorage.Sound fourthLost := sound_soloLog
  have stays : ∀ m ∈ oneRun, m.isSelect = false := by decide
  have hreport : (lostClosing.after oneRun).shared.notices.filterMap (fun n => n.event.finished?.map (·.success)) =
      [true] := by
    decide +kernel
  have hlost : ∀ k ∈ lostClosing.closings oneRun, k.written = false := by decide +kernel
  have hmem : true ∈ (lostClosing.after oneRun).shared.notices.filterMap
      (fun n => n.event.finished?.map (·.success)) := by
    rw [hreport]
    exact List.mem_singleton.mpr rfl
  obtain ⟨n, hn, hsuccess⟩ := List.mem_filterMap.mp hmem
  obtain ⟨f, hf, hsuccess⟩ := Option.map_eq_some_iff.mp hsuccess
  have hevent : n.event = .finished f := by
    cases hn : n.event <;> rw [hn] at hf <;> cases hf
    rfl
  obtain ⟨before, after, i, now, r, k, hk, e, hmoves, -, -, -, -, -, hnotices, he, -, -, hopen⟩ :=
    reports_match_rows_iff_written .collector 1 4 2 soloRegistry sound soloTable stays n hn f hevent
  refine ⟨sound, stays, n, hn, f, hevent, hsuccess, before, _, after, e, hmoves, hnotices, he, hopen (hlost k ?_)⟩
  rw [hmoves, closings_append]
  exact List.mem_append_left _ hk

end Activities

end ProcessRuns
