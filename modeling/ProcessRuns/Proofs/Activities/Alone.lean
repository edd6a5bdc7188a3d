import ProcessRuns.Service.Settle
import ProcessRuns.Proofs.Activities.Steps

/-! # One activity at a time

An activity that runs through without anything in between is an interleaving too: of its own steps only. -/

namespace ProcessRuns

namespace Move

/-- Neither a launch nor a release from outside nor a selection of log tables. -/
def isPlain : Move → Bool
  | launch | release _ | select _ => false
  | _ => true

theorem not_release_of_plain {m : Move} (h : m.isPlain = true) : m.isRelease = false := by
  cases m <;> first | rfl | cases h

theorem not_select_of_plain {m : Move} (h : m.isPlain = true) : m.isSelect = false := by
  cases m <;> first | rfl | cases h

end Move

namespace Activities

variable {σ : Type} {a b c : Activities σ} {i : Nat} (now : Instant)

theorem idle_wake {s : Shared σ} (h : s.loop = .idle) : s.wake.loop = .idle := by
  rw [Shared.wake, h]

theorem idle_elim {α : Type} (h : a.shared.loop = .idle) {f : α → Activities σ}
    (each : ∀ x, (f x).shared.loop = .idle)
    (o : Option α) : (o.elim a f).shared.loop = .idle := by
  cases o with
  | none => exact h
  | some x => exact each x

variable [Storage σ]

/-- Plain moves lead from one state to another. -/
def Leads (a b : Activities σ) : Prop := ∃ moves : List Move, (∀ m ∈ moves, m.isPlain = true) ∧ b = a.after moves

namespace Leads

theorem refl (a : Activities σ) : Leads a a := ⟨[], fun _ h => absurd h List.not_mem_nil, rfl⟩

theorem of_step {m : Move} (plain : m.isPlain = true) (h : b = a.step m) : Leads a b :=
  ⟨[m], fun _ hm => List.mem_singleton.mp hm ▸ plain, h⟩

theorem trans (h : Leads a b) (h' : Leads b c) : Leads a c := by
  obtain ⟨moves, hmoves, rfl⟩ := h
  obtain ⟨more, hmore, rfl⟩ := h'
  refine ⟨moves ++ more, fun m hm => ?_, (after_append a moves more).symm⟩
  exact (List.mem_append.mp hm).elim (hmoves m) (hmore m)

end Leads

/-! ### A main loop that was not launched -/

section
variable {s : Shared σ}

theorem idle_admission (h : s.loop = .idle) (x : Admission) : (x.step now s).2.loop = .idle := by
  cases x with
  | find pid date => rcases Admission.step_find now s pid date with hs | hs <;> rw [hs] <;> exact h
  | openRegister logger pid date =>
    rcases Admission.step_openRegister now s logger pid date with ⟨_, _, -, hs⟩ | ⟨_, _, -, hs⟩ <;>
      rw [hs] <;> exact h
  | place logger p =>
    rcases Admission.step_place now s logger p with ⟨-, hs⟩ | ⟨-, -, hs⟩ | ⟨-, -, hs⟩ <;> rw [hs] <;> exact h
  | wake p => exact idle_wake h
  | takeLog | mark | announce | done => exact h

theorem idle_removal (h : s.loop = .idle) (x : Removal) : (x.step now s).2.loop = .idle := by
  cases x with
  | close logger count packages => cases packages <;> exact h
  | forget | strip | takeLog | announce | done => exact h

theorem idle_run (h : s.loop = .idle) (r : Run) : (r.step now s).2.loop = .idle := by
  obtain ⟨p, logger, stage⟩ := r
  cases stage with
  | explain e =>
    simp only [Run.step]
    cases e.message? <;> exact h
  | wake e => exact idle_wake h
  | takeLog | mark | announce | stampStart | check | working | stampEnd | close | release | report | leave | finished =>
    exact h

end

theorem idle_perform (h : a.shared.loop = .idle) (context : JobContext) (action : JobAction) :
    (context.perform now action a.shared).2.loop = .idle := by
  obtain ⟨t, -, ht⟩ := context.perform_snd now action a.shared
  rw [ht]
  exact h

theorem idle_step {m : Move} (plain : m.isPlain = true) (h : a.shared.loop = .idle) :
    (a.step m).shared.loop = .idle := by
  cases m with
  | admission i now => exact idle_elim h (fun x => idle_admission now h x) _
  | removal i now => exact idle_elim h (fun x => idle_removal now h x) _
  | run i now => exact idle_elim h (fun r => idle_run now h r) _
  | act i action now =>
    refine idle_elim h (fun r => ?_) _
    unfold act
    split
    · exact idle_perform now h r.context action
    · exact h
  | answer i result =>
    have each : ∀ r : Run, ({ a with runs := a.runs.set i (r.answered result) } : Activities σ).shared.loop = .idle :=
      fun _ => h
    exact idle_elim h each _
  | loop =>
    simp only [step, loop, Shared.loopStep, h]
  | halt =>
    simp only [step, Shared.loopStop, h]
  | nudge =>
    simp only [step, nudge]
    split
    · exact h
    · exact idle_wake h
  | outside context action now => exact idle_perform now h context action
  | launch | release | select => cases plain
  | request | forget | lookUp | define | undefine | disown | resize | withdraw => exact h

theorem Leads.idle (h : Leads a b) (idle : a.shared.loop = .idle) : b.shared.loop = .idle := by
  obtain ⟨moves, plain, rfl⟩ := h
  exact after_keep (P := fun a => a.shared.loop = .idle) a idle fun _ ht m hm => idle_step (plain m hm) ht

/-! ### Activities that run through -/

/-- Plain moves lead to a state that shares this and has these runs. -/
def LeadsTo (a : Activities σ) (shared : Shared σ) (runs : List Run) : Prop :=
  ∃ b, Leads a b ∧ b.shared = shared ∧ b.runs = runs

theorem LeadsTo.refl (a : Activities σ) : a.LeadsTo a.shared a.runs := ⟨a, .refl a, rfl, rfl⟩

theorem LeadsTo.of_step {m : Move} {shared : Shared σ} {runs : List Run} (plain : m.isPlain = true)
    (hshared : (a.step m).shared = shared) (hruns : (a.step m).runs = runs) : a.LeadsTo shared runs :=
  ⟨a.step m, .of_step plain rfl, hshared, hruns⟩

theorem LeadsTo.after {shared : Shared σ} {runs : List Run} (h : Leads a b) (hb : b.LeadsTo shared runs) :
    a.LeadsTo shared runs := by
  obtain ⟨c, hc, hshared, hruns⟩ := hb
  exact ⟨c, h.trans hc, hshared, hruns⟩

theorem leadsTo_admission (a : Activities σ) {x : Admission} (here : a.admissions[i]? = some x) :
    a.LeadsTo (x.run now a.shared) a.runs := by
  rw [Admission.run]
  split
  · exact .refl a
  · have hi := (List.getElem?_eq_some_iff.mp here).1
    have hstep : a.step (.admission i now) = a.stepAdmission i x now := by simp only [step, here, Option.elim_some]
    have hnext := leadsTo_admission (a.stepAdmission i x now) (List.getElem?_set_self hi)
    exact .after (.of_step rfl hstep.symm) hnext
termination_by x.rank
decreasing_by exact x.rank_step now a.shared ‹_›

/-- A request from where it is made until it is done. -/
theorem leadsTo_request (a : Activities σ) (pid : ProcessId) (date : Instant) :
    a.LeadsTo ((Admission.find pid date).run now a.shared) a.runs :=
  .after (.of_step (m := .request pid date) rfl rfl) (leadsTo_admission now _ List.getElem?_concat_length)

theorem leadsTo_removal (a : Activities σ) {x : Removal} (here : a.removals[i]? = some x) :
    a.LeadsTo (x.run now a.shared).2 a.runs := by
  rw [Removal.run]
  split
  · exact .refl a
  · have hi := (List.getElem?_eq_some_iff.mp here).1
    have hstep : a.step (.removal i now) = a.stepRemoval i x now := by simp only [step, here, Option.elim_some]
    have hnext := leadsTo_removal (a.stepRemoval i x now) (List.getElem?_set_self hi)
    exact .after (.of_step rfl hstep.symm) hnext
termination_by (x.stage, x.left)
decreasing_by
  rcases x.step_leads_on now a.shared ‹_› with h | ⟨h, h'⟩
  · exact Prod.Lex.left _ _ h
  · rw [h]
    exact Prod.Lex.right _ h'

theorem leadsTo_forget (a : Activities σ) (pid : ProcessId) :
    a.LeadsTo ((Removal.forget pid).run now a.shared).2 a.runs :=
  .after (.of_step (m := .forget pid) rfl rfl) (leadsTo_removal now _ List.getElem?_concat_length)

theorem leadsTo_run (a : Activities σ) {r : Run} (here : a.runs[i]? = some r) :
    a.LeadsTo (r.advance now a.shared).2 (a.runs.set i (r.advance now a.shared).1) := by
  have hi := (List.getElem?_eq_some_iff.mp here).1
  rw [Run.advance]
  split
  · rename_i going
    have hstep : a.step (.run i now) = a.stepRun i r now := by simp only [step, here, Option.elim_some]
    have hnext := leadsTo_run (a.stepRun i r now) (List.getElem?_set_self hi)
    rw [show (a.stepRun i r now).runs = a.runs.set i (r.step now a.shared).1 from rfl, List.set_set] at hnext
    exact .after (.of_step rfl hstep.symm) hnext
  · obtain ⟨-, rfl⟩ := List.getElem?_eq_some_iff.mp here
    rw [List.set_getElem_self]
    exact .refl a
termination_by r.stage.rank
decreasing_by exact r.rank_step now a.shared ‹_›

/-- A job that does what it was told. -/
theorem leadsTo_script (a : Activities σ) {r : Run} (here : a.runs[i]? = some r) (working : r.stage = .working)
    (result : JobResult) (actions : List (JobAction × Bool)) :
    a.LeadsTo (JobScript.perform r.context now result actions a.shared).2.2 a.runs := by
  induction actions generalizing a with
  | nil => exact .refl a
  | cons action rest ih =>
    have hstep : a.step (.act i action.1 now) =
        { a with shared := (r.context.perform now action.1 a.shared).2 } := by
      simp only [step, here, Option.elim_some, act, working]
    have hleads : Leads a { a with shared := (r.context.perform now action.1 a.shared).2 } := .of_step rfl hstep.symm
    simp only [JobScript.perform]
    split
    · rename_i e s h
      rw [h] at hleads
      split
      · exact .after hleads (.refl _)
      · exact .after hleads (ih _ here)
    · rename_i answer s h
      rw [h] at hleads
      exact .after hleads (ih _ here)

theorem leadsTo_loop (fuel : Nat) (a : Activities σ) :
    a.LeadsTo (Service.dispatched fuel a.shared).2
      (a.runs ++ (Service.dispatched fuel a.shared).1.map fun p => { package := p }) := by
  induction fuel generalizing a with
  | zero => simpa [Service.dispatched] using LeadsTo.refl a
  | succ fuel ih =>
    rw [Service.dispatched]
    split
    · simpa using LeadsTo.refl a
    · refine .after (.of_step (m := .loop) rfl rfl) ?_
      have hnext := ih (a.step .loop)
      cases h : a.shared.loopStep with
      | mk p shared =>
        cases p with
        | none => simpa [step, loop, h] using hnext
        | some p => simpa [step, loop, h] using hnext

theorem leadsTo_withdraw (orders : List Nat) (a : Activities σ) :
    a.LeadsTo { a.shared with pool := orders.foldl (fun pool _ => pool.withdraw) a.shared.pool } a.runs := by
  induction orders generalizing a with
  | nil => exact .refl a
  | cons _ orders ih => exact .after (.of_step (m := .withdraw) rfl rfl) (ih (a.step .withdraw))

theorem leadsTo_acceptAll (q : TriggerQueue) (a : Activities σ) :
    a.LeadsTo (Service.acceptAll now q a.shared).2 a.runs := by
  rw [Service.acceptAll]
  split
  · exact .refl a
  · rename_i t rest _
    obtain ⟨b, hb, hshared, hruns⟩ := leadsTo_request now a t.processId t.executionDate
    have hnext := leadsTo_acceptAll rest b
    rw [hshared, hruns] at hnext
    exact .after hb hnext
termination_by q.pending
decreasing_by exact TriggerQueue.pending_of_next? ‹_›

end Activities

end ProcessRuns
