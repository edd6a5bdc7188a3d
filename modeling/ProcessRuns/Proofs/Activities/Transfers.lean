import ProcessRuns.Proofs.Activities.Places

/-! # How registers go from place to place

Every move leaves all registers where they are or takes the register of one package, or of the packages that a removal
takes out, to another place. None of this depends on what the storage answers, except that a register that is opened
must not be at a place already. -/

namespace ProcessRuns.Activities

variable {σ : Type} {s t : Activities σ} {c : RegisterId → Course} {i : Nat}

/-! ### Moves by which nobody gets or gives a package -/

/-- The answer to a run changes nothing of where its package is. -/
theorem heldAt_answer {r : Run} (here : s.runs[i]? = some r) (stage : Run.Stage) (place : Place) :
    ({ s with runs := s.runs.set i (r.enter stage) } : Activities σ).heldAt place = s.heldAt place := by
  by_cases hplace : place = .run i
  · rw [hplace, heldAt_run here]
    exact heldAt_run (r := r.enter stage) (List.getElem?_set_self (List.getElem?_eq_some_iff.mp here).1)
  · exact heldAt_runs_set hplace

theorem heldAt_release (hr : s.Recorded) (pid : ProcessId) (place : Place) :
    ((s.release pid).heldAt place).Perm (s.heldAt place) := by
  by_cases hplace : place = .queues
  · rw [hplace]
    exact Scheduler.packages_finish hr.tidy.sorted pid
  · exact .of_eq (heldAt_congr (fun _ _ => rfl) (fun hq => absurd hq hplace) (fun _ _ => rfl) fun _ _ => rfl)

section
variable [Storage σ]

theorem heldAt_alike (ht : Alike s t) (place : Place) : t.heldAt place = s.heldAt place :=
  heldAt_congr (fun _ _ => by rw [ht.admissions]) (fun _ => ht.scheduler) (fun _ _ => by rw [ht.runs])
    fun _ _ => by rw [ht.removals]

theorem heldAt_request (s : Activities σ) (pid : ProcessId) (date : Instant) (place : Place) :
    (s.step (.request pid date)).heldAt place = s.heldAt place := by
  cases place with
  | admission i => exact elim_concat (by rfl) i
  | nowhere | queues | run | removal => rfl

theorem heldAt_forget (s : Activities σ) (pid : ProcessId) (place : Place) :
    (s.step (.forget pid)).heldAt place = s.heldAt place := by
  cases place with
  | removal i => exact elim_concat (by rfl) i
  | nowhere | queues | run | admission => rfl

theorem heldAt_keepAdmission {a : Admission} (here : s.admissions[i]? = some a) {now : Instant}
    (held : (a.step now s.shared).1.held = a.held)
    (scheduler : (a.step now s.shared).2.scheduler = s.shared.scheduler) (place : Place) :
    (s.stepAdmission i a now).heldAt place = s.heldAt place := by
  by_cases hplace : place = .admission i
  · rw [hplace, heldAt_admission here, ← held]
    exact heldAt_admission (List.getElem?_set_self (List.getElem?_eq_some_iff.mp here).1)
  · exact heldAt_stepAdmission hplace fun _ => scheduler

theorem heldAt_keepRemoval {r : Removal} (here : s.removals[i]? = some r) {now : Instant}
    (held : (r.step now s.shared).1.held = r.held)
    (scheduler : (r.step now s.shared).2.scheduler = s.shared.scheduler) (place : Place) :
    (s.stepRemoval i r now).heldAt place = s.heldAt place := by
  by_cases hplace : place = .removal i
  · rw [hplace, heldAt_removal here, ← held]
    exact heldAt_removal (List.getElem?_set_self (List.getElem?_eq_some_iff.mp here).1)
  · exact heldAt_stepRemoval hplace fun _ => scheduler

end

namespace Placed

/-! ### Where a package is -/

theorem at_admission (h : s.Placed c) {a : Admission} (here : s.admissions[i]? = some a) {p : Package}
    (held : p ∈ a.held) :
    c p.registerId = .admitted i p.onQueue := by
  have hat := h.here (.admission i) p (heldAt_admission here ▸ held)
  exact hat.2 ▸ Course.eq_admitted hat.1

theorem at_queues (h : s.Placed c) {p : Package} (hp : p ∈ s.shared.scheduler.packages) :
    c p.registerId = .queued p.onQueue := by
  have hat := h.here .queues p hp
  exact hat.2 ▸ Course.eq_queued hat.1

theorem at_removal (h : s.Placed c) {r : Removal} (here : s.removals[i]? = some r) {p : Package} (held : p ∈ r.held) :
    c p.registerId = .stripped i p.onQueue := by
  have hat := h.here (.removal i) p (heldAt_removal here ▸ held)
  exact hat.2 ▸ Course.eq_stripped hat.1

theorem at_run (h : s.Placed c) {r : Run} (here : s.runs[i]? = some r) :
    (c r.package.registerId).place = .run i ∧ (c r.package.registerId).onQueue = r.package.onQueue :=
  h.here (.run i) r.package (heldAt_run here ▸ List.mem_singleton.mpr rfl)

/-- What is pending of a process is on the queues, and so are its registers. -/
theorem at_line (h : s.Placed c) (hr : s.Recorded) {pid : ProcessId} {p : Package}
    (hp : p ∈ s.shared.scheduler.lineOf pid) :
    c p.registerId = .queued p.onQueue := by
  have hperm := Scheduler.packages_remove hr.tidy.sorted pid
  rw [Scheduler.remove_fst] at hperm
  exact h.at_queues (hperm.mem_iff.mpr (List.mem_append_left _ hp))

/-! ### The main loop -/

/-- The package that is dispatched goes to the run that it begins. -/
theorem dispatch (h : s.Placed c) {p : Package} {scheduler : Scheduler}
    (popped : s.shared.scheduler.pop? = some (p, scheduler)) :
    (s.dispatch p scheduler).Placed (Function.update c p.registerId (.dispatched s.runs.length p.onQueue)) := by
  have hpackages := Scheduler.packages_pop? popped
  have hplace : (c p.registerId).place = .queues := congrArg Course.place (h.at_queues (hpackages ▸ List.mem_cons_self))
  refine h.transfer (by simp [Course.place]) hplace rfl (fun _ => .of_eq hpackages) ?_ ?_
  · intro _
    show List.Perm ((s.dispatch p scheduler).heldAt (.run s.runs.length)) (p :: s.heldAt (.run s.runs.length))
    have hnew : (s.dispatch p scheduler).runs[s.runs.length]? = some { package := p } := List.getElem?_concat_length
    have hold : s.runs[s.runs.length]? = none := List.getElem?_eq_none (Nat.le_refl _)
    rw [heldAt_run hnew, heldAt, hold]
    exact .refl _
  · intro place hsource htarget
    refine heldAt_congr (fun _ _ => rfl) (fun hq => absurd hq hsource) (fun j hj => ?_) fun _ _ => rfl
    have hne : j ≠ s.runs.length := by
      rintro rfl
      exact htarget hj
    show (s.runs ++ [_])[j]? = _
    rcases Nat.lt_or_ge j s.runs.length with hlt | hge
    · exact List.getElem?_append_left hlt
    · rw [List.getElem?_eq_none hge, List.getElem?_eq_none]
      rw [List.length_append, List.length_singleton]
      omega

section
variable [Storage σ]

/-! ### Requests -/

/-- A request that holds a package puts it on the queues. -/
theorem publish (h : s.Placed c) {p : Package} {now : Instant} {a : Admission} (here : s.admissions[i]? = some a)
    (held : a.held = [p]) (free : (a.step now s.shared).1.held = [])
    (packages : (a.step now s.shared).2.scheduler.packages.Perm (p :: s.shared.scheduler.packages)) :
    (s.stepAdmission i a now).Placed (Function.update c p.registerId (.queued p.onQueue)) := by
  have hi := (List.getElem?_eq_some_iff.mp here).1
  have hplace : (c p.registerId).place = .admission i :=
    congrArg Course.place (h.at_admission here (held ▸ List.mem_singleton.mpr rfl))
  refine h.transfer (by simp [Course.place]) hplace rfl ?_ (fun _ => packages) ?_
  · intro _
    have hnone : (s.stepAdmission i a now).heldAt (.admission i) = [] :=
      (heldAt_admission (List.getElem?_set_self hi)).trans free
    rw [heldAt_admission here, held, hnone]
  · intro place hsource htarget
    exact heldAt_stepAdmission hsource fun hq => absurd hq htarget

/-- A request gets the package of the register that it has opened. -/
theorem opens (h : s.Placed c) {l : Logger} {pid : ProcessId} {date now : Instant} {id : RegisterId} {storage : σ}
    (here : s.admissions[i]? = some (.openRegister l pid date)) (fresh : (c id).place = .nowhere)
    (hstep : (Admission.openRegister l pid date).step now s.shared =
      (.place l ⟨pid, id, date, false⟩, { s.shared with storage })) :
    (s.stepAdmission i (.openRegister l pid date) now).Placed (Function.update c id (.admitted i false)) := by
  have hi := (List.getElem?_eq_some_iff.mp here).1
  have hheld : (s.stepAdmission i (.openRegister l pid date) now).heldAt (.admission i) = [⟨pid, id, date, false⟩] := by
    refine (heldAt_admission (List.getElem?_set_self hi)).trans ?_
    rw [hstep]
    rfl
  refine h.transfer (p := ⟨pid, id, date, false⟩) (x := .admitted i false) (by simp [Course.place]) fresh rfl
    (fun hno => absurd rfl hno) ?_ ?_
  · intro _
    rw [show s.heldAt (Course.admitted i false).place = [] from heldAt_admission here]
    exact .of_eq hheld
  · intro place _ htarget
    refine heldAt_stepAdmission htarget fun _ => ?_
    rw [hstep]

/-- A request marks its package as queued behind another execution. -/
theorem marks (h : s.Placed c) {l : Logger} {p : Package} {now : Instant} (here : s.admissions[i]? = some (.mark l p)) :
    (s.stepAdmission i (.mark l p) now).Placed (Function.update c p.registerId (.admitted i true)) := by
  have hi := (List.getElem?_eq_some_iff.mp here).1
  have hnew : (s.stepAdmission i (.mark l p) now).heldAt (.admission i) = [{ p with onQueue := true }] :=
    heldAt_admission (a := .place l { p with onQueue := true }) (List.getElem?_set_self hi)
  refine h.mark (heldAt_admission here) hnew rfl (fun place hplace => ?_) ?_ fun id hid => Function.update_of_ne hid _ _
  · exact heldAt_stepAdmission hplace fun _ => rfl
  · rw [Function.update_self]
    exact ⟨rfl, rfl⟩

/-! ### Removals -/

/-- The courses once a removal has taken a process's packages out. -/
def taken (s : Activities σ) (c : RegisterId → Course) (i : Nat) (pid : ProcessId) (id : RegisterId) : Course :=
  if id ∈ (s.shared.scheduler.lineOf pid).map (·.registerId) then .stripped i (c id).onQueue else c id

theorem strips (h : s.Placed c) (hr : s.Recorded) {pid : ProcessId} (here : s.removals[i]? = some (.strip pid))
    (now : Instant) : (s.stepRemoval i (.strip pid) now).Placed (taken s c i pid) := by
  have hi := (List.getElem?_eq_some_iff.mp here).1
  have hperm := Scheduler.packages_remove hr.tidy.sorted pid
  rw [Scheduler.remove_fst] at hperm
  have hheld : (s.stepRemoval i (.strip pid) now).heldAt (.removal i) = s.shared.scheduler.lineOf pid := by
    refine (heldAt_removal (List.getElem?_set_self hi)).trans ?_
    rcases Removal.step_strip now s.shared pid with ⟨hnil, hstep⟩ | hstep
    · rw [hstep, ← Scheduler.remove_fst, hnil]
      rfl
    · rw [hstep, ← Scheduler.remove_fst]
      rfl
  have go : Transferred s (s.stepRemoval i (.strip pid) now) c (taken s c i pid) (s.shared.scheduler.lineOf pid) .queues
      (.removal i) := by
    refine ⟨by simp, ?_, ?_, ?_, ?_, ?_, ?_, fun id hid => if_neg hid⟩
    · have hnodup := (hperm.map (·.registerId)).nodup_iff.mp (h.distinct .queues)
      rw [List.map_append] at hnodup
      exact (List.nodup_append.mp hnodup).1
    · intro p hp
      rw [h.at_line hr hp]
      rfl
    · intro _
      exact hperm
    · intro _
      rw [hheld, heldAt_removal here]
      exact .of_eq (List.append_nil _).symm
    · intro place hsource htarget
      exact heldAt_stepRemoval htarget fun hq => absurd hq hsource
    · intro p hp
      rw [taken, if_pos (List.mem_map_of_mem hp), h.at_line hr hp]
      exact ⟨rfl, rfl⟩
  exact go.placed h

/-- A removal is through with the register of a package. -/
theorem drops (h : s.Placed c) {l : Logger} {count : Nat} {p : Package} {packages : List Package} {now : Instant}
    (here : s.removals[i]? = some (.close l count (p :: packages))) :
    (s.stepRemoval i (.close l count (p :: packages)) now).Placed
      (Function.update c p.registerId (.dropped i p.onQueue)) := by
  have hi := (List.getElem?_eq_some_iff.mp here).1
  have hplace : (c p.registerId).place = .removal i := congrArg Course.place (h.at_removal here List.mem_cons_self)
  refine h.transfer (by simp [Course.place]) hplace rfl ?_ (fun hno => absurd rfl hno) ?_
  · intro _
    rw [heldAt_removal here]
    refine .of_eq (congrArg (p :: ·) ?_)
    exact (heldAt_removal (r := .announce l count p packages) (List.getElem?_set_self hi)).symm
  · intro place hsource _
    exact heldAt_stepRemoval hsource fun _ => rfl

end

end Placed

end ProcessRuns.Activities
