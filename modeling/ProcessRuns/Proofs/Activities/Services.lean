import ProcessRuns.Proofs.Activities.Alone
import ProcessRuns.Proofs.Activities.Exclusion

/-! # Services as interleavings

A service that is used makes its activities run in one order of many. `Serves` ties a service to activities side by
side, and every call of the service, and what goes on by itself after it, is answered by moves that keep the tie. So
what holds under any interleaving holds of every service, whatever is called on it. -/

namespace ProcessRuns

/-- What can be done with a service from outside, and what then goes on by itself. -/
inductive ServiceCall where
  | launch
  | stop
  | drop
  | subscribe (subscriber : Subscriber)
  | notifyWaiting (processId : ProcessId)
  | resize (workers : Nat)
  | trigger (processId : ProcessId) (date : Instant)
  | add (p : ProcessDefinition)
  | remove (processId : ProcessId)
  | update (p : ProcessDefinition)
  | reprocess (processId : ProcessId) (a b : Instant) (schedule : Schedule)
  | select (name : String)
  | settle
  | conclude (processId : ProcessId) (script : JobScript)

namespace ServiceCall

/-- Releases a process that no run of it releases. -/
def isRelease : ServiceCall → Bool
  | notifyWaiting _ => true
  | _ => false

/-- Selects log tables. -/
def isSelect : ServiceCall → Bool
  | select _ => true
  | _ => false

end ServiceCall

namespace Service

variable {σ : Type}

/-- The run whose job comes back next is the first one of its package. -/
theorem working_perm (s : Service σ) {pid : ProcessId} {r : Run} (next : s.working? pid = some r) :
    s.runs.Perm (r :: s.runs.eraseP fun r' => r'.package = r.package) := by
  rw [working?, List.find?_filter] at next
  obtain ⟨hr, before, after, hruns, hbefore⟩ := List.find?_eq_some_iff_append.mp next
  -- Whether a run is chosen depends on its package only.
  have hother : ∀ x ∈ before, ¬ decide (x.package = r.package) = true := by
    intro x hx hpackage
    have hnot := hbefore x hx
    rw [of_decide_eq_true hpackage, hr] at hnot
    cases hnot
  rw [hruns, List.eraseP_append_right _ hother, List.eraseP_cons_of_pos (by simp)]
  exact List.perm_middle

variable [Storage σ]

/-- What a call leads to. -/
def call (s : Service σ) (now : Instant) : ServiceCall → Service σ
  | .launch => s.launch
  | .stop => s.stop
  | .drop => s.drop
  | .subscribe subscriber => s.subscribe subscriber
  | .notifyWaiting pid => s.notifyWaiting pid
  | .resize workers => (s.resize workers).2
  | .trigger pid date => s.trigger pid date now
  | .add p => (s.add p).2
  | .remove pid => (s.remove pid now).2
  | .update p => (s.update p now).2
  | .reprocess pid a b schedule => (s.reprocess pid a b schedule now).2
  | .select name => (s.selectTable name).2
  | .settle => s.settle now
  | .conclude pid script => (s.working? pid).elim s fun r => (s.conclude r script now).2

/-- To add a process is to define it and, if it gets a timer, to ask when it ran last. -/
theorem add_cases (s : Service σ) (p : ProcessDefinition) :
    let defined : Shared σ := { s.shared with registry := s.shared.registry.add p }
    ((s.add p).2.shared = defined ∨ (s.add p).2.shared = (defined.onStorage (defined.logger.lastProcess p.id)).2) ∧
      (s.add p).2.runs = s.runs ∧ (s.add p).2.phase = s.phase := by
  intro defined
  cases hschedule : p.schedule with
  | none => refine ⟨Or.inl ?_, ?_, ?_⟩ <;> simp only [add, hschedule, defined]
  | some schedule =>
    cases hown : p.active && defined.owns p with
    | false => refine ⟨Or.inl ?_, ?_, ?_⟩ <;> simp only [add, hschedule] <;> rw [if_neg (by simpa using hown)]
    | true =>
      have hlook : ∀ {r : Except Failure (Option Instant)} {shared : Shared σ},
          defined.onStorage (defined.logger.lastProcess p.id) = (r, shared) →
            shared = (defined.onStorage (defined.logger.lastProcess p.id)).2 := fun h => (congrArg Prod.snd h).symm
      simp only [add, hschedule]
      rw [if_pos hown]
      split
      · rename_i h
        exact ⟨Or.inr (hlook h), rfl, rfl⟩
      · rename_i h
        split <;> exact ⟨Or.inr (hlook h), rfl, rfl⟩

/-- Where a service is after some calls. -/
def afterCalls (s : Service σ) (calls : List (Instant × ServiceCall)) : Service σ :=
  calls.foldl (fun s c => s.call c.1 c.2) s

end Service

namespace Run

/-- The job of the run is at work. -/
def isWorking (r : Run) : Bool :=
  match r.stage with
  | .working => true
  | _ => false

/-- The run was dispatched and has done nothing yet. -/
def isFresh (r : Run) : Bool :=
  match r.stage with
  | .takeLog => true
  | _ => false

theorem isFresh_new (p : Package) : ({ package := p } : Run).isFresh = true := rfl

theorem isWorking_new (p : Package) : ({ package := p } : Run).isWorking = false := rfl

theorem stage_of_isWorking {r : Run} (h : r.isWorking = true) : r.stage = .working := by
  obtain ⟨p, logger, stage⟩ := r
  cases stage <;> first | rfl | cases h

variable {σ : Type} [Storage σ]

theorem advance_rests (now : Instant) (r : Run) (s : Shared σ) : (r.advance now s).1.stage.goesOn = false := by
  rw [advance]
  split
  · exact advance_rests now _ _
  · simpa using ‹¬ r.stage.goesOn = true›
termination_by r.stage.rank
decreasing_by exact r.rank_step now s ‹_›

theorem advance_rank (now : Instant) (r : Run) (s : Shared σ) : (r.advance now s).1.stage.rank ≤ r.stage.rank := by
  rw [advance]
  split
  · exact Nat.le_trans (advance_rank now _ _) (Nat.le_of_lt (r.rank_step now s ‹_›))
  · exact Nat.le_refl _
termination_by r.stage.rank
decreasing_by exact r.rank_step now s ‹_›

/-- A run whose job has come back goes on to its end. -/
theorem advance_answered (now : Instant) {r : Run} (working : r.stage = .working) (result : JobResult) (s : Shared σ) :
    ((r.answered result).advance now s).1.isWorking = false := by
  have hrank := (r.answered result).advance_rank now s
  rw [answered, working] at hrank ⊢
  cases hlast : ((r.enter (.stampEnd (.ofResult result))).advance now s).1.isWorking with
  | false => rfl
  | true =>
    rw [stage_of_isWorking hlast] at hrank
    exact absurd hrank (by simp [enter, Stage.rank])

theorem not_fresh_of_rests {r : Run} (h : r.stage.goesOn = false) : r.isFresh = false := by
  obtain ⟨p, logger, stage⟩ := r
  cases stage <;> first | rfl | cases h

end Run

namespace Activities

variable {σ : Type}

/-- The runs of a service are those whose jobs are running; `fresh` are the packages that were dispatched and whose
runs did not begin. -/
structure Serves (fresh : List Package) (s : Service σ) (a : Activities σ) : Prop where
  shared : a.shared = s.shared
  working : (a.runs.filter (·.isWorking)).Perm s.runs
  fresh : (a.runs.filter (·.isFresh)).Perm (fresh.map fun p => { package := p })
  idle : s.phase = .created → a.shared.loop = .idle

/-- One element in place of another, among those that have a property. -/
theorem filter_set_perm {α : Type} {l : List α} {i : Nat} {x y : α} (here : l[i]? = some x) (P : α → Bool) :
    (if P x then x :: (l.set i y).filter P else (l.set i y).filter P).Perm
      (if P y then y :: l.filter P else l.filter P) := by
  obtain ⟨hi, hx⟩ := List.getElem?_eq_some_iff.mp here
  obtain ⟨l₁, l₂, hl, -, hset⟩ : ∃ l₁ l₂, l = l₁ ++ l[i] :: l₂ ∧ l₁.length = i ∧
    l.set i y = l₁ ++ y :: l₂ :=
    List.exists_of_set hi
  rw [hx] at hl
  have hold : l.Perm (x :: (l₁ ++ l₂)) := (List.Perm.of_eq hl).trans List.perm_middle
  have hnew : (l.set i y).Perm (y :: (l₁ ++ l₂)) := (List.Perm.of_eq hset).trans List.perm_middle
  rw [← List.filter_cons, ← List.filter_cons]
  exact ((hnew.cons x).trans ((List.Perm.swap y x _).trans (hold.symm.cons y))).filter P

theorem last_first_perm {α : Type} (l : List α) : (l.getLast?.toList ++ l.dropLast).Perm l := by
  rcases l.eq_nil_or_concat with rfl | ⟨rest, x, rfl⟩
  · exact .refl _
  · rw [List.concat_eq_append, List.getLast?_concat, List.dropLast_concat]
    exact (List.perm_append_singleton x rest).symm

theorem none_working (packages : List Package) :
    ∀ r ∈ packages.map (fun p => ({ package := p } : Run)), ¬ r.isWorking = true := by
  intro r hr
  obtain ⟨p, -, rfl⟩ := List.mem_map.mp hr
  rw [Run.isWorking_new]
  exact Bool.false_ne_true

theorem all_fresh (packages : List Package) :
    ∀ r ∈ packages.map (fun p => ({ package := p } : Run)), r.isFresh = true := by
  intro r hr
  obtain ⟨p, -, rfl⟩ := List.mem_map.mp hr
  exact Run.isFresh_new p

namespace Serves

variable {fresh : List Package} {s s' : Service σ} {a b : Activities σ}

/-- Nothing has gone on that the activities notice. -/
theorem same (h : Serves fresh s a) (shared : s'.shared = s.shared) (runs : s'.runs = s.runs)
    (phase : s'.phase = .created → s.phase = .created) : Serves fresh s' a :=
  ⟨h.shared.trans shared.symm, runs ▸ h.working, h.fresh, fun hphase => h.idle (phase hphase)⟩

theorem stop (h : Serves fresh s a) : Serves fresh s.stop a := by
  unfold Service.stop
  split
  · exact h.same rfl rfl fun hno => by cases hno
  · exact h

section
variable [Storage σ]

/-- Activities have gone on that are not runs. -/
theorem leads (h : Serves fresh s a) (hb : a.LeadsTo s'.shared a.runs) (runs : s'.runs = s.runs)
    (phase : s'.phase = .created → s.phase = .created) : ∃ b, Leads a b ∧ Serves fresh s' b := by
  obtain ⟨b, hleads, hshared, hruns⟩ := hb
  refine ⟨b, hleads, hshared, ?_, ?_, fun hphase => hleads.idle (h.idle (phase hphase))⟩
  · rw [hruns, runs]
    exact h.working
  · rw [hruns]
    exact h.fresh

/-! ### Calls of users -/

theorem trigger (h : Serves fresh s a) (pid : ProcessId) (date now : Instant) :
    ∃ b, Leads a b ∧ Serves fresh (s.trigger pid date now) b :=
  h.leads (by rw [Service.trigger, ← h.shared]; exact leadsTo_request now a pid date) rfl id

theorem remove (h : Serves fresh s a) (pid : ProcessId) (now : Instant) :
    ∃ b, Leads a b ∧ Serves fresh (s.remove pid now).2 b := by
  refine h.leads ?_ rfl id
  show a.LeadsTo ((Removal.forget pid).run now s.shared).2 a.runs
  rw [← h.shared]
  exact leadsTo_forget now a pid

theorem reprocess (h : Serves fresh s a) (pid : ProcessId) (dates : List Instant) (now : Instant) :
    ∃ b, Leads a b ∧ Serves fresh (dates.foldl (fun s date => s.trigger pid date now) s) b := by
  induction dates generalizing s a with
  | nil => exact ⟨a, .refl a, h⟩
  | cons date dates ih =>
    obtain ⟨b, hb, hserves⟩ := h.trigger pid date now
    obtain ⟨c, hc, hlast⟩ := ih hserves
    exact ⟨c, hb.trans hc, hlast⟩

theorem add (h : Serves fresh s a) (p : ProcessDefinition) : ∃ b, Leads a b ∧ Serves fresh (s.add p).2 b := by
  obtain ⟨hshared, hruns, hphase⟩ := s.add_cases p
  rw [← h.shared] at hshared
  refine h.leads ?_ hruns fun hcreated => hphase.symm.trans hcreated
  rcases hshared with hshared | hshared <;> rw [hshared]
  · exact .of_step (m := .define p) rfl rfl rfl
  · exact .after (.of_step (m := .define p) rfl rfl) (.of_step (m := .lookUp p.id) rfl rfl rfl)

theorem resize (h : Serves fresh s a) (workers : Nat) : ∃ b, Leads a b ∧ Serves fresh (s.resize workers).2 b := by
  refine h.leads ?_ rfl id
  refine .of_step (m := .resize s.cores workers) rfl ?_ rfl
  rw [step, h.shared]
  rfl

theorem drop (h : Serves fresh s a) : ∃ b, Leads a b ∧ Serves fresh s.drop b := by
  have hruns : s.stop.runs = s.runs := by
    unfold Service.stop
    split <;> rfl
  refine h.leads ?_ hruns fun hphase => by cases hphase
  refine .of_step (m := .disown) rfl ?_ rfl
  rw [step, h.shared]
  rfl

/-! ### What goes on by itself -/

theorem accept (h : Serves fresh s a) (now : Instant) : ∃ b, Leads a b ∧ Serves fresh (s.accept now) b := by
  unfold Service.accept
  split
  · refine h.leads ?_ rfl id
    show a.LeadsTo (Service.acceptAll now s.triggers s.shared).2 a.runs
    rw [← h.shared]
    exact leadsTo_acceptAll now s.triggers a
  · exact ⟨a, .refl a, h⟩

theorem withdraw (h : Serves fresh s a) : ∃ b, Leads a b ∧ Serves fresh s.withdraw b := by
  refine h.leads ?_ rfl id
  show a.LeadsTo { s.shared with pool := s.shared.pool.orders.foldl (fun pool _ => pool.withdraw) s.shared.pool } a.runs
  rw [← h.shared]
  exact leadsTo_withdraw _ a

/-- The run of a package that was dispatched begins. -/
theorem begin {p : Package} (h : Serves (p :: fresh) s a) (now : Instant) :
    ∃ b, Leads a b ∧ Serves fresh (s.begin p now) b := by
  have hmem : ({ package := p } : Run) ∈ a.runs.filter (·.isFresh) := h.fresh.mem_iff.mpr List.mem_cons_self
  obtain ⟨i, here⟩ := List.mem_iff_getElem?.mp (List.mem_filter.mp hmem).1
  obtain ⟨b, hleads, hshared, hruns⟩ := leadsTo_run now a here
  have hidle : s.phase = .created → b.shared.loop = .idle := fun hphase => hleads.idle (h.idle hphase)
  have hrests := Run.advance_rests now { package := p } a.shared
  rw [h.shared] at hshared hruns hrests
  cases hadvance : ({ package := p } : Run).advance now s.shared with
  | mk r shared =>
    rw [hadvance] at hshared hruns hrests
    -- There is one fresh run less, and one working run more if it has come to its job.
    have hfresh := filter_set_perm (y := r) here (·.isFresh)
    simp only [Run.isFresh_new, Run.not_fresh_of_rests hrests, if_true, Bool.false_eq_true, if_false] at hfresh
    rw [← hruns] at hfresh
    have hbfresh := (hfresh.trans h.fresh).cons_inv
    have hworking := filter_set_perm (y := r) here (·.isWorking)
    simp only [Run.isWorking_new, Bool.false_eq_true, if_false] at hworking
    rw [← hruns] at hworking
    refine ⟨b, hleads, ?_⟩
    simp only [Service.begin, hadvance]
    cases hstage : r.stage with
    | working =>
      have hr : r.isWorking = true := by rw [Run.isWorking, hstage]
      rw [if_pos hr] at hworking
      refine ⟨hshared, ?_, hbfresh, hidle⟩
      exact (hworking.trans (h.working.cons r)).trans (List.perm_append_singleton r s.runs).symm
    | _ =>
      have hr : r.isWorking = false := by rw [Run.isWorking, hstage]
      rw [if_neg (by rw [hr]; exact Bool.false_ne_true)] at hworking
      exact ⟨hshared, hworking.trans h.working, hbfresh, hidle⟩

theorem begins (packages : List Package) (h : Serves packages s a) (now : Instant) :
    ∃ b, Leads a b ∧ Serves [] (packages.foldl (fun s p => s.begin p now) s) b := by
  induction packages generalizing s a with
  | nil => exact ⟨a, .refl a, h⟩
  | cons p packages ih =>
    obtain ⟨b, hb, hserves⟩ := h.begin now
    obtain ⟨c, hc, hlast⟩ := ih hserves
    exact ⟨c, hb.trans hc, hlast⟩

theorem dispatch (h : Serves [] s a) (now : Instant) : ∃ b, Leads a b ∧ Serves [] (s.dispatch now) b := by
  unfold Service.dispatch
  split
  · exact ⟨a, .refl a, h⟩
  · rename_i launched
    obtain ⟨b, hleads, hshared, hruns⟩ := leadsTo_loop (3 * s.shared.scheduler.pending + 5) a
    rw [h.shared] at hshared hruns
    cases hloop : Service.dispatched (3 * s.shared.scheduler.pending + 5) s.shared with
    | mk packages shared =>
      rw [hloop] at hshared hruns
      have hb : Serves (packages.getLast?.toList ++ packages.dropLast) { s with shared } b := by
        refine ⟨hshared, ?_, ?_, fun hphase => by cases launched.symm.trans hphase⟩ <;> rw [hruns, List.filter_append]
        · rw [List.filter_eq_nil_iff.mpr (none_working packages), List.append_nil]
          exact h.working
        · rw [h.fresh.eq_nil, List.nil_append, List.filter_eq_self.mpr (all_fresh packages)]
          exact (last_first_perm packages).symm.map _
      obtain ⟨c, hc, hserves⟩ := begins _ hb now
      exact ⟨c, hleads.trans hc, hserves⟩
  · rename_i stopped
    exact ⟨a.step .halt, .of_step rfl rfl, by simp only [step, h.shared], h.working, h.fresh,
      fun hphase => by cases stopped.symm.trans hphase⟩

theorem settle (h : Serves [] s a) (now : Instant) : ∃ b, Leads a b ∧ Serves [] (s.settle now) b := by
  have htick : Serves [] (s.tick now) a := h.same rfl rfl id
  obtain ⟨b, hb, haccept⟩ := htick.accept now
  obtain ⟨c, hc, hwithdraw⟩ := haccept.withdraw
  obtain ⟨d, hd, hdispatch⟩ := hwithdraw.dispatch now
  refine ⟨d, hb.trans (hc.trans hd), ?_⟩
  show Serves [] (((((s.tick now).accept now).withdraw).dispatch now).hear) d
  unfold Service.hear
  split
  · exact hdispatch.same rfl rfl id
  · exact hdispatch

/-- The job of a run comes back, and the run ends. -/
theorem conclude (h : Serves [] s a) {pid : ProcessId} {r : Run} (next : s.working? pid = some r) (script : JobScript)
    (now : Instant) : ∃ b, Leads a b ∧ Serves [] (s.conclude r script now).2 b := by
  have hperm := s.working_perm next
  have hmem : r ∈ a.runs.filter (·.isWorking) :=
    h.working.mem_iff.mpr (hperm.mem_iff.mpr List.mem_cons_self)
  obtain ⟨hr, hworking⟩ := List.mem_filter.mp hmem
  obtain ⟨i, here⟩ := List.mem_iff_getElem?.mp hr
  have hstage := Run.stage_of_isWorking hworking
  obtain ⟨b, hb, hbshared, hbruns⟩ := leadsTo_script now a here hstage script.result script.actions
  rw [h.shared] at hbshared
  have hconclude : (s.conclude r script now).2 = { s with
      shared := ((r.answered (script.run r.context now s.shared).2.1).advance now
        (script.run r.context now s.shared).2.2).2
      runs := s.runs.eraseP fun r' => r'.package = r.package } := rfl
  rw [hconclude]
  generalize hresult : (script.run r.context now s.shared).2.1 = result
  rw [← JobScript.run] at hbshared
  rw [← hbshared]
  have hanswer : b.step (.answer i result) = { b with runs := a.runs.set i (r.answered result) } := by
    simp only [step, hbruns, here, Option.elim_some]
  have hanswered : ({ b with runs := a.runs.set i (r.answered result) } : Activities σ).runs[i]? =
    some (r.answered result) :=
    List.getElem?_set_self (List.getElem?_eq_some_iff.mp here).1
  -- The script is through and its answer given; the rest of the run is its own.
  obtain ⟨c, hc, hcshared, hcruns⟩ := leadsTo_run now _ hanswered
  rw [List.set_set] at hcruns
  have hleads : Leads a c := hb.trans ((Leads.of_step rfl hanswer.symm).trans hc)
  have hlast := Run.advance_answered now hstage result b.shared
  have hrests := Run.not_fresh_of_rests (Run.advance_rests now (r.answered result) b.shared)
  refine ⟨c, hleads, hcshared, ?_, ?_, fun hphase => hleads.idle (h.idle hphase)⟩ <;> rw [hcruns]
  · have hset := filter_set_perm (y := ((r.answered result).advance now b.shared).1) here (·.isWorking)
    simp only [hworking, hlast, if_true, Bool.false_eq_true, if_false] at hset
    exact ((hset.trans h.working).trans hperm).cons_inv
  · have hset := filter_set_perm (y := ((r.answered result).advance now b.shared).1) here (·.isFresh)
    have hnot : r.isFresh = false := by rw [Run.isFresh, hstage]
    simp only [hnot, hrests, Bool.false_eq_true, if_false] at hset
    exact hset.trans h.fresh

/-! ### All calls -/

theorem launch (h : Serves [] s a) : ∃ moves, (∀ m ∈ moves, m.isRelease = false ∧ m.isSelect = false) ∧
    Serves [] s.launch (a.after moves) := by
  cases hphase : s.phase with
  | created =>
    refine ⟨[.launch], fun m hm => List.mem_singleton.mp hm ▸ ⟨rfl, rfl⟩, ?_⟩
    have hstep : a.after [.launch] = { a with shared := { a.shared with loop := .asking } } := by
      show a.launch = _
      rw [Activities.launch, h.idle hphase]
    simp only [hstep, Service.launch, hphase]
    exact ⟨by rw [h.shared], h.working, h.fresh, fun hno => by cases hno⟩
  | launched | stopped =>
    refine ⟨[], fun _ hm => absurd hm List.not_mem_nil, ?_⟩
    show Serves [] s.launch a
    simpa only [Service.launch, hphase] using h

theorem notifyWaiting (h : Serves [] s a) (pid : ProcessId) :
    ∃ moves, (∀ m ∈ moves, m.isSelect = false) ∧ Serves [] (s.notifyWaiting pid) (a.after moves) := by
  have hshared := h.shared
  cases hfinish : s.shared.scheduler.finish pid with
  | mk promoted scheduler =>
    have hrelease : a.step (.release pid) = { a with
        shared := { s.shared with scheduler }, nudges := if promoted then a.nudges + 1 else a.nudges } := by
      simp only [step, release, hshared, hfinish]
    cases promoted with
    | true =>
      refine ⟨[.release pid, .nudge], by simp [Move.isSelect], ?_⟩
      have hnudge : a.after [.release pid, .nudge] =
          { a with shared := ({ s.shared with scheduler } : Shared σ).wake } := by
        show (a.step (.release pid)).nudge = _
        rw [hrelease]
        simp [nudge]
      simp only [hnudge, Service.notifyWaiting, hfinish]
      exact ⟨rfl, h.working, h.fresh, fun hphase => idle_wake (hshared ▸ h.idle hphase)⟩
    | false =>
      refine ⟨[.release pid], by simp [Move.isSelect], ?_⟩
      have hafter : a.after [.release pid] = { a with shared := { s.shared with scheduler } } := hrelease
      simp only [hafter, Service.notifyWaiting, hfinish]
      exact ⟨rfl, h.working, h.fresh, fun hphase => (hshared ▸ h.idle hphase :)⟩

theorem select (h : Serves [] s a) (name : String) : Serves [] (s.selectTable name).2 (a.step (.select name)) := by
  have hloop : (s.shared.selectTable name).2.loop = s.shared.loop := by
    simp only [Shared.selectTable, Action.within]
  have hservice : (s.selectTable name).2 = { s with shared := (s.shared.selectTable name).2 } := by
    simp only [Service.selectTable]
  have hstep : a.step (.select name) = { a with shared := (s.shared.selectTable name).2 } := by rw [step, h.shared]
  have hidle := h.idle
  rw [h.shared] at hidle
  rw [hservice, hstep]
  generalize (s.shared.selectTable name).2 = shared at hloop
  exact ⟨rfl, h.working, h.fresh, fun hphase => hloop.trans (hidle hphase)⟩

/-- A call is answered by moves that keep the tie; only a release is answered by a release, and a selection by a
selection. -/
theorem call (h : Serves [] s a) (now : Instant) (c : ServiceCall) :
    ∃ moves, (c.isRelease = false → ∀ m ∈ moves, m.isRelease = false) ∧
      (c.isSelect = false → ∀ m ∈ moves, m.isSelect = false) ∧ Serves [] (s.call now c) (a.after moves) := by
  have of_leads : (∃ b, Leads a b ∧ Serves [] (s.call now c) b) → ∃ moves,
      (c.isRelease = false → ∀ m ∈ moves, m.isRelease = false) ∧
        (c.isSelect = false → ∀ m ∈ moves, m.isSelect = false) ∧ Serves [] (s.call now c) (a.after moves) := by
    rintro ⟨_, ⟨moves, plain, rfl⟩, hserves⟩
    exact ⟨moves, fun _ m hm => Move.not_release_of_plain (plain m hm),
      fun _ m hm => Move.not_select_of_plain (plain m hm),
      hserves⟩
  cases c with
  | launch =>
    obtain ⟨moves, hmoves, hserves⟩ := h.launch
    exact ⟨moves, fun _ m hm => (hmoves m hm).1, fun _ m hm => (hmoves m hm).2, hserves⟩
  | notifyWaiting pid =>
    obtain ⟨moves, hmoves, hserves⟩ := h.notifyWaiting pid
    refine ⟨moves, ?_, fun _ => hmoves, hserves⟩
    intro hno
    cases hno
  | select name =>
    refine ⟨[.select name], fun _ m hm => List.mem_singleton.mp hm ▸ rfl, ?_, h.select name⟩
    intro hno
    cases hno
  | stop => exact of_leads ⟨a, .refl a, h.stop⟩
  | drop => exact of_leads h.drop
  | subscribe subscriber => exact of_leads ⟨a, .refl a, h.same rfl rfl id⟩
  | resize workers => exact of_leads (h.resize workers)
  | trigger pid date => exact of_leads (h.trigger pid date now)
  | add p => exact of_leads (h.add p)
  | remove pid => exact of_leads (h.remove pid now)
  | update p =>
    obtain ⟨b, hb, hremoved⟩ := h.remove p.id now
    obtain ⟨c, hc, hadded⟩ := hremoved.add p
    exact of_leads ⟨c, hb.trans hc, hadded⟩
  | reprocess pid x y schedule =>
    refine of_leads ?_
    simp only [Service.call, Service.reprocess]
    split
    · exact ⟨a, .refl a, h⟩
    · exact h.reprocess pid _ now
  | settle => exact of_leads (h.settle now)
  | conclude pid script =>
    refine of_leads ?_
    simp only [Service.call]
    cases next : s.working? pid with
    | none => exact ⟨a, .refl a, h⟩
    | some r => exact h.conclude next script now

end

end Serves

/-- Whatever is called on a service, its state is one that an interleaving leads to. -/
theorem serves_afterCalls [Storage σ] {s : Service σ} {a : Activities σ} (h : Serves [] s a)
    (calls : List (Instant × ServiceCall)) :
    ∃ moves, ((∀ c ∈ calls, c.2.isRelease = false) → ∀ m ∈ moves, m.isRelease = false) ∧
      ((∀ c ∈ calls, c.2.isSelect = false) → ∀ m ∈ moves, m.isSelect = false) ∧
      Serves [] (s.afterCalls calls) (a.after moves) := by
  induction calls generalizing s a with
  | nil => exact ⟨[], fun _ _ hm => absurd hm List.not_mem_nil, fun _ _ hm => absurd hm List.not_mem_nil, h⟩
  | cons c calls ih =>
    obtain ⟨moves, hrelease, hselect, hserves⟩ := h.call c.1 c.2
    obtain ⟨more, hmore, hmore', hlast⟩ := ih hserves
    refine ⟨moves ++ more, fun own m hm => ?_, fun stays m hm => ?_, by rw [after_append]; exact hlast⟩
    · have hrest := hmore fun c hc => own c (List.mem_cons_of_mem _ hc)
      exact (List.mem_append.mp hm).elim (hrelease (own c List.mem_cons_self) m) (hrest m)
    · have hrest := hmore' fun c hc => stays c (List.mem_cons_of_mem _ hc)
      exact (List.mem_append.mp hm).elim (hselect (stays c List.mem_cons_self) m) (hrest m)

theorem serves_start (kind : ServiceKind) (instanceId cores workers : Nat) (logger : Logger) (registry : Registry)
    (storage : σ) :
    let s := Service.create kind instanceId cores workers logger registry storage
    Serves [] s (ofService s) :=
  ⟨rfl, .refl _, .refl _, fun _ => rfl⟩

theorem Serves.count_le {fresh : List Package} {s : Service σ} {a : Activities σ} (h : Serves fresh s a)
    (pid : ProcessId) :
    (s.runs.map (·.package.processId)).count pid ≤ a.underWay pid := by
  rw [List.count, List.countP_map, ← h.working.countP_eq, List.countP_filter]
  refine List.countP_mono_left fun r _ hr => ?_
  simp only [Function.comp_apply, Bool.and_eq_true, beq_iff_eq] at hr
  simp only [Run.isUnderWay, Run.stage_of_isWorking hr.2, Bool.and_eq_true, decide_eq_true_eq]
  exact ⟨rfl, hr.1⟩

/-- Two jobs of one process are never running at once, and the numbers that a service shows add up, as long as nobody
releases processes from outside. -/
theorem jobs_never_overlap [Storage σ] (kind : ServiceKind) (instanceId cores workers : Nat) (logger : Logger)
    (registry : Registry) (storage : σ) (calls : List (Instant × ServiceCall))
    (own : ∀ c ∈ calls, c.2.isRelease = false) :
    let s := (Service.create kind instanceId cores workers logger registry storage).afterCalls calls
    (s.runs.map (·.package.processId)).Nodup ∧ (∀ r ∈ s.runs, r.package.processId ∈ s.shared.scheduler.running) ∧
      s.status.queue.active.length = s.status.queue.queued + s.status.queue.running.length := by
  intro s
  have start := serves_start kind instanceId cores workers logger registry storage
  obtain ⟨moves, hown, -, hserves⟩ := serves_afterCalls start calls
  obtain ⟨tidy, h⟩ := exclusive_after (hown own)
    (exclusive_start (Service.create kind instanceId cores workers logger registry storage) rfl)
  rw [hserves.shared] at tidy h
  have hcount := hserves.count_le
  refine ⟨?_, ?_, ?_⟩
  -- Whose job is running is under way, and of one process that is one at most.
  · refine List.nodup_iff_count_le_one.mpr fun pid => ?_
    exact Nat.le_trans (hcount pid) (Nat.le_trans (Nat.le_add_left _ _) (h.one pid))
  · intro r hr
    have hpos := List.count_pos_iff.mpr (List.mem_map_of_mem (f := (·.package.processId)) hr)
    have hunder := Nat.lt_of_lt_of_le hpos (hcount r.package.processId)
    have hone := Nat.le_trans (Nat.le_add_left _ _) (h.one r.package.processId)
    exact (h.running r.package.processId).mpr (Nat.le_antisymm hone hunder)
  · show s.shared.scheduler.active.mergeSort.length =
      s.shared.scheduler.queued.length + s.shared.scheduler.running.mergeSort.length
    rw [List.length_mergeSort, List.length_mergeSort]
    exact h.length_active tidy

end Activities

end ProcessRuns
