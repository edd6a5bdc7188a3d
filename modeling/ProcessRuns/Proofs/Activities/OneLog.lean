import ProcessRuns.Proofs.Activities.Exclusion

/-! # One log

As long as nobody selects other log tables, every copy of the log that an activity takes is the same. Beside it
goes what the queues and the marks of the packages have to do with each other: what waits behind a process has
been marked, and nothing is marked twice. -/

namespace ProcessRuns

/-- A request with this log; one that is about to mark its register did not do so yet. -/
def Admission.Uses (l : Logger) : Admission → Prop
  | .openRegister logger _ _ | .place logger _ => logger = l
  | .mark logger p => logger = l ∧ p.onQueue = false
  | _ => True

/-- A removal that has taken a log has taken this one. -/
def Removal.Uses (l : Logger) : Removal → Prop
  | .close logger _ _ | .announce logger _ _ _ => logger = l
  | _ => True

/-- A run with this log, once it has taken its copy; only what had to wait is marked as started. -/
def Run.Uses (l : Logger) (r : Run) : Prop :=
  match r.stage with
  | .takeLog => True
  | .mark => r.logger = l ∧ r.package.onQueue = true
  | _ => r.logger = l

namespace Run

variable {σ : Type} [Storage σ]

theorem logger_step (now : Instant) (r : Run) (s : Shared σ) : (r.step now s).2.logger = s.logger :=
  (r.sameSettings_step now s).logger

theorem uses_step (now : Instant) {r : Run} {s : Shared σ} {l : Logger} (hs : s.logger = l) (hr : r.Uses l) :
    (r.step now s).1.Uses l := by
  obtain ⟨p, logger, stage⟩ := r
  cases stage with
  | takeLog =>
    cases hq : p.onQueue with
    | true => simpa [step, hq, Uses] using hs
    | false => simpa [step, hq, Uses] using hs
  | mark => exact hr.1
  | check =>
    simp only [step, enter]
    cases s.owned <;> exact hr
  | release e =>
    simp only [step, enter]
    cases (s.scheduler.finish p.processId).1 <;> exact hr
  | announce | stampStart | working | stampEnd | explain | close | wake | report | leave | finished => exact hr

end Run

namespace Activities

variable {σ : Type} {s t : Activities σ} {m : Move} {l : Logger}

/-- All work with one log, and what waits has been marked. -/
structure Orderly (l : Logger) (s : Activities σ) : Prop where
  logger : s.shared.logger = l
  admissions : ∀ a ∈ s.admissions, a.Uses l
  removals : ∀ r ∈ s.removals, r.Uses l
  runs : ∀ r ∈ s.runs, r.Uses l
  waiting : ∀ pid, ∀ p ∈ s.shared.scheduler.waitQueue pid, p.onQueue = true

namespace Orderly

theorem of_set {α : Type} {P : α → Prop} {list : List α} {i : Nat} {a : α} (h : ∀ b ∈ list, P b) (ha : P a) :
    ∀ b ∈ list.set i a, P b := fun b hb => by
  rcases List.mem_or_eq_of_mem_set hb with hb | rfl
  · exact h b hb
  · exact ha

theorem of_concat {α : Type} {P : α → Prop} {list : List α} {a : α} (h : ∀ b ∈ list, P b) (ha : P a) :
    ∀ b ∈ list ++ [a], P b := fun b hb => by
  rcases List.mem_append.mp hb with hb | hb
  · exact h b hb
  · exact List.mem_singleton.mp hb ▸ ha

variable [Storage σ]

theorem stepAdmission (h : Orderly l s) {i : Nat} {a : Admission} (here : s.admissions[i]? = some a) (now : Instant) :
    Orderly l (s.stepAdmission i a now) := by
  have ha := h.admissions a (List.mem_of_getElem? here)
  suffices hstep : (a.step now s.shared).1.Uses l ∧ (a.step now s.shared).2.logger = l ∧
      ∀ pid, ∀ p ∈ (a.step now s.shared).2.scheduler.waitQueue pid, p.onQueue = true from
    ⟨hstep.2.1, of_set h.admissions hstep.1, h.removals, h.runs, hstep.2.2⟩
  cases a with
  | find pid date =>
    rcases Admission.step_find now s.shared pid date with hs | hs <;> rw [hs] <;> exact ⟨trivial, h.logger, h.waiting⟩
  | takeLog pid date => exact ⟨h.logger, h.logger, h.waiting⟩
  | openRegister logger pid date =>
    rcases Admission.step_openRegister now s.shared logger pid date with ⟨_, _, -, hs⟩ | ⟨_, _, -, hs⟩ <;> rw [hs]
    · exact ⟨ha, h.logger, h.waiting⟩
    · exact ⟨trivial, h.logger, h.waiting⟩
  | place logger p =>
    rcases Admission.step_place now s.shared logger p with ⟨-, hs⟩ | ⟨-, hq, hs⟩ | ⟨-, hq, hs⟩ <;> rw [hs]
    · exact ⟨trivial, h.logger, h.waiting⟩
    · refine ⟨trivial, h.logger, fun pid q hmem => ?_⟩
      rw [Scheduler.waitQueue_wait] at hmem
      split at hmem
      · rcases List.mem_append.mp hmem with hmem | hmem
        · exact h.waiting pid q hmem
        · exact List.mem_singleton.mp hmem ▸ hq
      · exact h.waiting pid q hmem
    · exact ⟨⟨ha, hq⟩, h.logger, h.waiting⟩
  | mark logger p => exact ⟨ha.1, h.logger, h.waiting⟩
  | wake p =>
    have hwake := alike_wake s
    exact ⟨trivial, hwake.logger.trans h.logger, fun pid p hp => h.waiting pid p (hwake.scheduler ▸ hp)⟩
  | announce | done => exact ⟨trivial, h.logger, h.waiting⟩

theorem stepRemoval (h : Orderly l s) {i : Nat} {r : Removal} (here : s.removals[i]? = some r) (now : Instant) :
    Orderly l (s.stepRemoval i r now) := by
  have hr := h.removals r (List.mem_of_getElem? here)
  suffices hstep : (r.step now s.shared).1.Uses l ∧ (r.step now s.shared).2.logger = l ∧
      ∀ pid, (r.step now s.shared).2.scheduler.waitQueue pid ⊆ s.shared.scheduler.waitQueue pid from
    ⟨hstep.2.1, h.admissions, of_set h.removals hstep.1, h.runs, fun pid p hp => h.waiting pid p (hstep.2.2 pid hp)⟩
  cases r with
  | strip pid =>
    have hsubset := Scheduler.waitQueue_remove_subset s.shared.scheduler pid
    rcases Removal.step_strip now s.shared pid with ⟨-, hs⟩ | hs <;> rw [hs] <;> exact ⟨trivial, h.logger, hsubset⟩
  | takeLog packages => exact ⟨h.logger, h.logger, fun _ => List.Subset.refl _⟩
  | close logger count packages =>
    cases packages with
    | nil => exact ⟨trivial, h.logger, fun _ => List.Subset.refl _⟩
    | cons p packages => exact ⟨hr, h.logger, fun _ => List.Subset.refl _⟩
  | announce => exact ⟨hr, h.logger, fun _ => List.Subset.refl _⟩
  | forget | done => exact ⟨trivial, h.logger, fun _ => List.Subset.refl _⟩

theorem stepRun (h : Orderly l s) {i : Nat} {r : Run} (here : s.runs[i]? = some r) (now : Instant) :
    Orderly l (s.stepRun i r now) := by
  have hr := h.runs r (List.mem_of_getElem? here)
  refine ⟨(r.logger_step now s.shared).trans h.logger, h.admissions, h.removals,
    of_set h.runs (r.uses_step now h.logger hr), fun pid p hp => h.waiting pid p ?_⟩
  have hp : p ∈ (r.step now s.shared).2.scheduler.waitQueue pid := hp
  rcases r.step_cases now s.shared with ⟨-, hs⟩ | ⟨-, -, hs⟩ <;> rw [hs] at hp
  · exact hp
  · exact Scheduler.waitQueue_finish_subset _ _ pid hp

theorem stepped (h : Orderly l s) (hm : Stepped s m t) (stays : m.isSelect = false) : Orderly l t := by
  cases hm with
  | alike ht =>
    refine ⟨ht.logger.trans h.logger, ht.admissions ▸ h.admissions, ht.removals ▸ h.removals,
      ht.runs ▸ h.runs, ?_⟩
    rw [ht.scheduler]
    exact h.waiting
  | request => exact ⟨h.logger, of_concat h.admissions trivial, h.removals, h.runs, h.waiting⟩
  | forget => exact ⟨h.logger, h.admissions, of_concat h.removals trivial, h.runs, h.waiting⟩
  | admission now here => exact h.stepAdmission here now
  | removal now here => exact h.stepRemoval here now
  | run now here => exact h.stepRun here now
  | @answer i result r here working =>
    refine ⟨h.logger, h.admissions, h.removals, of_set h.runs ?_, h.waiting⟩
    have hr := h.runs r (List.mem_of_getElem? here)
    rw [Run.Uses, working] at hr
    exact hr
  | dispatch popped =>
    refine ⟨h.logger, h.admissions, h.removals, of_concat h.runs trivial, fun pid p hp => h.waiting pid p ?_⟩
    obtain ⟨-, -, -, hw⟩ := Scheduler.pop?_eq_some popped
    rw [Scheduler.waitQueue, ← hw]
    exact hp
  | release pid =>
    exact ⟨h.logger, h.admissions, h.removals, h.runs,
      fun id p hp => h.waiting id p (Scheduler.waitQueue_finish_subset _ pid id hp)⟩
  | select => cases stays

end Orderly

theorem orderly_start (service : Service σ) (fresh : service.shared.scheduler = {}) :
    Orderly service.shared.logger (ofService service) := by
  refine ⟨rfl, fun _ h => absurd h List.not_mem_nil, fun _ h => absurd h List.not_mem_nil,
    fun _ h => absurd h List.not_mem_nil, fun pid p hp => ?_⟩
  have hp : p ∈ service.shared.scheduler.waitQueue pid := hp
  rw [fresh] at hp
  cases hp

end Activities

end ProcessRuns
