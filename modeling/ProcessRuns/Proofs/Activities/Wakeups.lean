import ProcessRuns.Proofs.Activities.Exclusion

/-! # No wakeup is lost

A package is published first and the main loop is woken afterwards, in two steps; between them others publish,
wake and dispatch, and wakeups that nobody waits for collapse into one. While the main loop is about to sleep or
asleep, a package on the primary queue therefore means a wakeup that is kept for it or one that is still due. -/

namespace ProcessRuns

namespace Admission

/-- The package is on the primary queue, and the main loop has still to be woken for it. -/
def owesWake : Admission → Bool
  | wake _ => true
  | _ => false

end Admission

namespace Run

/-- The run is about to wake the main loop. -/
def owesWake (r : Run) : Bool :=
  match r.stage with
  | .wake _ => true
  | _ => false

end Run

/-- A main loop that is asleep stands up when it is woken; anywhere else the wakeup is kept for it. -/
theorem Shared.wake_cases {σ : Type} (s : Shared σ) :
    (s.loop = .asleep ∧ s.wake = { s with loop := .looking }) ∨
    (s.loop ≠ .asleep ∧ s.wake = { s with wakeup := true }) := by
  unfold wake
  split
  · rename_i hasleep
    exact Or.inl ⟨hasleep, rfl⟩
  · rename_i hawake
    exact Or.inr ⟨hawake, rfl⟩

theorem Scheduler.queued_finish_of_kept {s : Scheduler} {pid : ProcessId} (kept : (s.finish pid).1 = false) :
    (s.finish pid).2.queued = s.queued := by
  unfold finish at kept ⊢
  simp only at kept ⊢
  split
  · rename_i h
    rw [h] at kept
    cases kept
  · rfl

namespace Activities

variable {σ : Type} {s t : Activities σ} {i : Nat}

/-- Those that published or promoted a package and did not wake the main loop yet. -/
def wakesDue (s : Activities σ) : Nat := s.admissions.countP (·.owesWake) + s.runs.countP (·.owesWake) + s.nudges

/-- What a move does to the main loop, its wakeup and the primary queue. -/
inductive Called (s t : Activities σ) : Prop where
  /-- Nothing that the main loop would have to hear of. -/
  | keep (loop : t.shared.loop = s.shared.loop) (wakeup : t.shared.wakeup = s.shared.wakeup)
    (queued : s.shared.scheduler.queued = [] → t.shared.scheduler.queued = []) (due : s.wakesDue ≤ t.wakesDue)
  /-- A package is published. -/
  | owe (loop : t.shared.loop = s.shared.loop) (wakeup : t.shared.wakeup = s.shared.wakeup) (due : 0 < t.wakesDue)
  | wake (loop : t.shared.loop = s.shared.wake.loop) (wakeup : t.shared.wakeup = s.shared.wake.wakeup)
  /-- The main loop is not about to sleep. -/
  | away (settling : t.shared.loop ≠ .settling) (asleep : t.shared.loop ≠ .asleep)
  /-- The main loop finds nothing to dispatch. -/
  | settle (loop : t.shared.loop = .settling) (queued : t.shared.scheduler.queued = [])
  /-- The main loop falls asleep. -/
  | sleep (settling : s.shared.loop = .settling) (kept : s.shared.wakeup = false) (wakeup : t.shared.wakeup = false)
    (queued : t.shared.scheduler.queued = s.shared.scheduler.queued) (due : t.wakesDue = s.wakesDue)

/-- A main loop that is about to sleep or asleep will hear of every package there is for it. -/
structure Heard (s : Activities σ) : Prop where
  asleep : s.shared.loop = .asleep → s.shared.wakeup = false
  due : s.shared.loop = .settling ∨ s.shared.loop = .asleep → s.shared.scheduler.queued ≠ [] →
    s.shared.wakeup = true ∨ 0 < s.wakesDue

theorem Called.heard (h : Called s t) (hs : s.Heard) : t.Heard := by
  cases h with
  | keep loop wakeup queued due =>
    refine ⟨fun ht => ?_, fun ht hq => ?_⟩
    · rw [wakeup]
      exact hs.asleep (loop ▸ ht)
    · rw [wakeup]
      exact (hs.due (loop ▸ ht) (mt queued hq)).imp_right fun hd => Nat.lt_of_lt_of_le hd due
  | owe loop wakeup due =>
    refine ⟨fun ht => ?_, fun _ _ => Or.inr due⟩
    rw [wakeup]
    exact hs.asleep (loop ▸ ht)
  | wake loop wakeup =>
    rcases s.shared.wake_cases with ⟨-, h⟩ | ⟨hawake, h⟩ <;> rw [h] at loop wakeup
    · refine ⟨fun ht => ?_, fun ht => ?_⟩ <;> rw [loop] at ht
      · cases ht
      · rcases ht with ht | ht <;> cases ht
    · exact ⟨fun ht => absurd (loop.symm.trans ht) hawake, fun _ _ => Or.inl wakeup⟩
  | away settling asleep => exact ⟨fun ht => absurd ht asleep, fun ht => absurd ht (not_or.mpr ⟨settling, asleep⟩)⟩
  | settle loop queued =>
    refine ⟨fun ht => ?_, fun _ hq => absurd queued hq⟩
    rw [loop] at ht
    cases ht
  -- It found no wakeup kept, so somebody who published a package still owes one.
  | sleep settling kept wakeup queued due =>
    refine ⟨fun _ => wakeup, fun _ hq => ?_⟩
    rw [queued] at hq
    rcases hs.due (Or.inl settling) hq with h | h
    · rw [kept] at h
      cases h
    · exact Or.inr (due ▸ h)

theorem Called.of_eq (loop : t.shared.loop = s.shared.loop) (wakeup : t.shared.wakeup = s.shared.wakeup)
    (scheduler : t.shared.scheduler = s.shared.scheduler) (due : s.wakesDue ≤ t.wakesDue) : Called s t :=
  .keep loop wakeup (fun h => scheduler ▸ h) due

theorem Called.of_shared {u : Shared σ} (loop : u.loop = s.shared.loop) (wakeup : u.wakeup = s.shared.wakeup)
    (scheduler : u.scheduler = s.shared.scheduler) : Called s { s with shared := u } :=
  .of_eq loop wakeup scheduler (Nat.le_refl _)

theorem called_loop (s : Activities σ) : Called s s.loop := by
  have h := s.shared.turned
  unfold loop
  generalize s.shared.loopStep = turn at h ⊢
  cases h with
  | rest | wait => exact .of_eq rfl rfl rfl (Nat.le_refl _)
  | take | lineUp | accept | dispatch | heed => exact .away LoopPhase.noConfusion LoopPhase.noConfusion
  | settle looking empty => exact .settle rfl empty
  | sleep settling kept => exact .sleep settling kept kept rfl rfl

section
variable {α : Type} {l : List α} {a b : α} {p : α → Bool}

theorem countP_le_set (here : l[i]? = some a) (h : p a = false) : l.countP p ≤ (l.set i b).countP p := by
  have hset := countP_set here b p
  rw [h, if_neg Bool.false_ne_true] at hset
  omega

theorem mem_set_of_here (here : l[i]? = some a) (b : α) : b ∈ l.set i b := by
  obtain ⟨hi, -⟩ := List.getElem?_eq_some_iff.mp here
  exact List.mem_set hi b

end

theorem wakesDue_le_of_admission {a b : Admission} (here : s.admissions[i]? = some a) (free : a.owesWake = false)
    (admissions : t.admissions = s.admissions.set i b) (runs : t.runs = s.runs) (nudges : t.nudges = s.nudges) :
    s.wakesDue ≤ t.wakesDue := by
  rw [wakesDue, wakesDue, admissions, runs, nudges]
  exact Nat.add_le_add_right (Nat.add_le_add_right (countP_le_set here free) _) _

theorem wakesDue_le_of_run {r r' : Run} (here : s.runs[i]? = some r) (free : r.owesWake = false)
    (admissions : t.admissions = s.admissions) (runs : t.runs = s.runs.set i r') (nudges : t.nudges = s.nudges) :
    s.wakesDue ≤ t.wakesDue := by
  rw [wakesDue, wakesDue, admissions, runs, nudges]
  exact Nat.add_le_add_right (Nat.add_le_add_left (countP_le_set here free) _) _

theorem wakesDue_pos_of_admission {a : Admission} (h : a ∈ t.admissions) (owes : a.owesWake = true) : 0 < t.wakesDue :=
  Nat.lt_of_lt_of_le (List.countP_pos_iff.mpr ⟨a, h, owes⟩) (Nat.le_add_right_of_le (Nat.le_add_right _ _))

theorem wakesDue_pos_of_run {r : Run} (h : r ∈ t.runs) (owes : r.owesWake = true) : 0 < t.wakesDue :=
  Nat.lt_of_lt_of_le (List.countP_pos_iff.mpr ⟨r, h, owes⟩) (Nat.le_add_right_of_le (Nat.le_add_left _ _))

theorem called_release (s : Activities σ) (pid : ProcessId) : Called s (s.release pid) := by
  cases hpromoted : (s.shared.scheduler.finish pid).1 with
  | true =>
    refine .owe rfl rfl (Nat.add_pos_right _ ?_)
    simp only [release, hpromoted, if_true, Nat.zero_lt_succ]
  | false =>
    refine .keep rfl rfl (fun h => (Scheduler.queued_finish_of_kept hpromoted).trans h) ?_
    simp only [wakesDue, release, hpromoted, Bool.false_eq_true, if_false, Nat.le_refl]

/-- What happens to an element that is not there happens to nobody. -/
theorem called_elim {α : Type} {x : Option α} {f : α → Activities σ} (h : ∀ a, x = some a → Called s (f a)) :
    Called s (x.elim s f) := by
  cases x with
  | none => exact .of_eq rfl rfl rfl (Nat.le_refl _)
  | some a => exact h a rfl

section
variable [Storage σ]

theorem called_stepAdmission {a : Admission} (here : s.admissions[i]? = some a) (now : Instant) :
    Called s (s.stepAdmission i a now) := by
  have keep (free : a.owesWake = false) (loop : (a.step now s.shared).2.loop = s.shared.loop)
      (wakeup : (a.step now s.shared).2.wakeup = s.shared.wakeup)
      (scheduler : (a.step now s.shared).2.scheduler.queued = s.shared.scheduler.queued) :
      Called s (s.stepAdmission i a now) :=
    .keep loop wakeup (fun h => scheduler.trans h) (wakesDue_le_of_admission here free rfl rfl rfl)
  cases a with
  | find pid date =>
    rcases Admission.step_find now s.shared pid date with h | h <;> exact keep rfl (by rw [h]) (by rw [h]) (by rw [h])
  | openRegister logger pid date =>
    rcases Admission.step_openRegister now s.shared logger pid date with ⟨_, _, -, h⟩ | ⟨_, _, -, h⟩ <;>
      exact keep rfl (by rw [h]) (by rw [h]) (by rw [h])
  | place logger p =>
    rcases Admission.step_place now s.shared logger p with ⟨-, h⟩ | ⟨-, -, h⟩ | ⟨-, -, h⟩
    · refine .owe (by rw [stepAdmission, h]) (by rw [stepAdmission, h])
        (wakesDue_pos_of_admission (a := .wake p) ?_ rfl)
      rw [stepAdmission, h]
      exact mem_set_of_here here _
    · exact keep rfl (by rw [h]) (by rw [h]) (by rw [h]; rfl)
    · exact keep rfl (by rw [h]) (by rw [h]) (by rw [h])
  | wake p => exact .wake rfl rfl
  | takeLog | mark | announce | done => exact keep rfl rfl rfl rfl

theorem called_stepRun {r : Run} (here : s.runs[i]? = some r) (now : Instant) : Called s (s.stepRun i r now) := by
  have keep (free : r.owesWake = false) (loop : (r.step now s.shared).2.loop = s.shared.loop)
      (wakeup : (r.step now s.shared).2.wakeup = s.shared.wakeup)
      (scheduler : (r.step now s.shared).2.scheduler = s.shared.scheduler) : Called s (s.stepRun i r now) :=
    .of_eq loop wakeup scheduler (wakesDue_le_of_run here free rfl rfl rfl)
  obtain ⟨p, logger, stage⟩ := r
  cases stage with
  | release e =>
    cases hpromoted : (s.shared.scheduler.finish p.processId).1 with
    | true =>
      refine .owe rfl rfl (wakesDue_pos_of_run (r := ⟨p, logger, .wake e⟩) ?_ rfl)
      simp only [stepRun, Run.step, Run.enter, hpromoted, if_true]
      exact mem_set_of_here here _
    | false =>
      refine .keep rfl rfl (fun h => ?_) (wakesDue_le_of_run here rfl rfl rfl rfl)
      exact (Scheduler.queued_finish_of_kept hpromoted).trans h
  | wake e => exact .wake rfl rfl
  | explain e =>
    obtain ⟨u, hu⟩ : ∃ u, (Run.step now ⟨p, logger, .explain e⟩ s.shared).2 = { s.shared with storage := u } := by
      simp only [Run.step]
      cases e.message? <;> exact ⟨_, rfl⟩
    exact keep rfl (by rw [hu]) (by rw [hu]) (by rw [hu])
  | takeLog | mark | announce | stampStart | check | working | stampEnd | close | report | leave | finished =>
    exact keep rfl rfl rfl rfl

theorem called_stepRemoval (i : Nat) (r : Removal) (now : Instant) : Called s (s.stepRemoval i r now) := by
  cases r with
  | strip pid =>
    refine .keep rfl rfl (fun h => ?_) (Nat.le_refl _)
    show s.shared.scheduler.queued.filter _ = []
    rw [h, List.filter_nil]
  | close logger count packages => cases packages <;> exact .of_eq rfl rfl rfl (Nat.le_refl _)
  | forget | takeLog | announce | done => exact .of_eq rfl rfl rfl (Nat.le_refl _)

theorem called_perform (s : Activities σ) (c : JobContext) (now : Instant) (action : JobAction) :
    Called s { s with shared := (c.perform now action s.shared).2 } := by
  obtain ⟨u, -, hu⟩ := c.perform_snd now action s.shared
  rw [hu]
  exact .of_shared rfl rfl rfl

theorem called_step (s : Activities σ) (m : Move) : Called s (s.step m) := by
  have same : Called s s := .of_eq rfl rfl rfl (Nat.le_refl _)
  cases m with
  | admission i now => exact called_elim fun a here => called_stepAdmission here now
  | removal i now => exact called_elim fun r _ => called_stepRemoval i r now
  | run i now => exact called_elim fun r here => called_stepRun here now
  | act i action now =>
    refine called_elim fun r here => ?_
    simp only [act]
    split
    · exact called_perform s r.context now action
    · exact same
  | answer i result =>
    refine called_elim fun r here => .of_eq rfl rfl rfl ?_
    obtain ⟨p, logger, stage⟩ := r
    cases stage with
    | working => exact wakesDue_le_of_run here rfl rfl rfl rfl
    | _ =>
      obtain ⟨hi, heq⟩ := List.getElem?_eq_some_iff.mp here
      simp only [Run.answered, ← heq, List.set_getElem_self, wakesDue, Nat.le_refl]
  | loop => exact called_loop s
  | launch =>
    simp only [step, launch]
    split
    · exact .away LoopPhase.noConfusion LoopPhase.noConfusion
    · exact same
  | halt =>
    simp only [step, Shared.loopStop]
    cases s.shared.loop with
    | asking | inLine | settling | asleep => exact .away LoopPhase.noConfusion LoopPhase.noConfusion
    | idle | looking | stopped => exact same
  | release pid => exact called_release s pid
  | nudge =>
    simp only [step, nudge]
    split
    · exact same
    · exact .wake rfl rfl
  | request pid date =>
    refine .of_eq rfl rfl rfl ?_
    simp only [step, wakesDue, List.countP_append, List.countP_singleton, Admission.owesWake]
    omega
  | outside context action now => exact called_perform s context now action
  | select name =>
    simp only [step, Shared.selectTable, Action.within]
    exact .of_shared rfl rfl rfl
  | forget pid => exact .of_eq rfl rfl rfl (Nat.le_refl _)
  | lookUp | define | undefine | disown | resize | withdraw => exact .of_shared rfl rfl rfl

/-- Under any interleaving, a main loop that is asleep has no wakeup kept for it; and when it is about to sleep
or asleep with none kept, and nobody is between publishing or promoting a package and waking it, then the
primary queue is empty. -/
theorem no_wakeup_is_lost (kind : ServiceKind) (instanceId cores workers : Nat) (logger : Logger)
    (registry : Registry) (storage : σ) (moves : List Move) :
    let s := (ofService (Service.create kind instanceId cores workers logger registry storage)).after moves
    (s.shared.loop = .asleep → s.shared.wakeup = false) ∧
    (s.shared.loop = .settling ∨ s.shared.loop = .asleep → s.shared.wakeup = false → s.wakesDue = 0 →
      s.shared.scheduler.queued = []) := by
  intro s
  have hs : s.Heard := after_keep (P := Heard) _ ⟨nofun, fun h => by rcases h with h | h <;> cases h⟩
    fun t ht m _ => (called_step t m).heard ht
  refine ⟨hs.asleep, fun hloop hwakeup hdue => ?_⟩
  by_contra hqueued
  rcases hs.due hloop hqueued with h | h
  · rw [hwakeup] at h
    cases h
  · omega

end

/-- Two processes are requested while the main loop is about to sleep; their wakeups collapse into one, and both
are dispatched before it sleeps. -/
def collapsedWakeups : List Move :=
  [.launch, .loop, .loop, .request 1 .epoch, .request 2 .epoch] ++ List.replicate 6 (.admission 0 .epoch) ++
    List.replicate 6 (.admission 1 .epoch) ++ List.replicate 8 .loop

/-- Two packages are in the queue, and one wakeup was kept. -/
def afterCollapsedWakeups : Activities Memory :=
  (ofService (Service.create .collector 1 4 3 ⟨some soloTable⟩ (soloRegistry.add ⟨2, 1, true, none⟩) soloLog)).after
    collapsedWakeups

theorem no_wakeup_is_lost_of_collapsedWakeups :
    afterCollapsedWakeups.runs.length = 2 ∧ afterCollapsedWakeups.shared.loop = .asleep ∧
      afterCollapsedWakeups.shared.wakeup = false ∧ afterCollapsedWakeups.wakesDue = 0 ∧
      afterCollapsedWakeups.shared.scheduler.queued = [] := by
  obtain ⟨hkept, hempty⟩ := no_wakeup_is_lost .collector 1 4 3 ⟨some soloTable⟩
    (soloRegistry.add ⟨2, 1, true, none⟩)
    soloLog collapsedWakeups
  have hloop : afterCollapsedWakeups.shared.loop = .asleep := by decide +kernel
  have hdue : afterCollapsedWakeups.wakesDue = 0 := by decide +kernel
  exact ⟨by decide +kernel, hloop, hkept hloop, hdue, hempty (Or.inr hloop) (hkept hloop) hdue⟩

end Activities

end ProcessRuns
