import ProcessRuns.Proofs.Activities.Exclusion

/-! # The record and the queues

What is pending of a process according to the record is what the queues hold of it, in the order in which it will
be dispatched; what was dispatched and what was taken out is with the runs and the removals. This is so under any
interleaving, releases from outside and selections of log tables included. -/

namespace ProcessRuns

/-- The ticket as it was when its register was opened. -/
def Ticket.origin (t : Ticket) : Ticket := { t with package := { t.package with onQueue := false } }

namespace Record

variable {r : Record} {pid : ProcessId}

/-- What is pending of a process, in the order of publication. -/
def pendingOf (r : Record) (pid : ProcessId) : List Ticket := r.pending.filter fun t => t.package.processId = pid

theorem dispatch_of_pendingOf {t : Ticket} {rest : List Ticket} (h : r.pendingOf pid = t :: rest) :
    r.dispatch pid = { r with
      pending := r.pending.eraseP fun t => t.package.processId = pid, dispatched := r.dispatched ++ [t] } := by
  have hfind : r.pending.find? (fun t => t.package.processId = pid) = some t := by
    rw [← List.head?_filter]
    exact congrArg List.head? h
  rw [dispatch, hfind]

theorem opened_dispatch (r : Record) (pid : ProcessId) : (r.dispatch pid).opened = r.opened := by
  unfold dispatch
  split <;> rfl

theorem opened_removed (r : Record) (i : Nat) (x : Removal) : (r.removed i x).opened = r.opened := by
  cases x <;> rfl

theorem filter_eraseP {α : Type} {p q : α → Bool} (l : List α) :
    (l.eraseP p).filter p = (l.filter p).tail ∧
    ((∀ a, p a = true → q a = false) → (l.eraseP p).filter q = l.filter q) := by
  induction l with
  | nil => exact ⟨rfl, fun _ => rfl⟩
  | cons a l ih =>
    cases ha : p a with
    | true => exact ⟨by simp [ha], fun h => by simp [ha, h a ha]⟩
    | false =>
      refine ⟨by simpa [ha] using ih.1, fun h => ?_⟩
      rw [List.eraseP_cons_of_neg (by simp [ha]), List.filter_cons, List.filter_cons, ih.2 h]

end Record

/-- The package of a request that has a register and did not publish it yet, with the log of the register. -/
def Admission.holds? : Admission → Option (Logger × Package)
  | .place logger p | .mark logger p => some (logger, p)
  | _ => none

/-- What a removal has to do with the packages that it took out. -/
def Removal.Took (taken : List Package) : Removal → Prop
  | .forget _ | .strip _ => taken = []
  | .takeLog packages => taken = packages
  | .close _ _ packages => packages <:+ taken
  | .announce _ _ p packages => p :: packages <:+ taken
  | .done _ => True

namespace Activities

variable {σ : Type} {s t : Activities σ} {m : Move}

/-- The record tells what the queues hold and where each package came from. -/
structure Recorded (s : Activities σ) : Prop where
  tidy : s.shared.scheduler.Tidy
  pending : ∀ pid, (s.record.pendingOf pid).map (·.package) = s.shared.scheduler.lineOf pid
  dispatched : s.record.dispatched.map (·.package) = s.runs.map (·.package)
  removals : s.record.stripped.length = s.removals.length
  stripped : ∀ (i : Nat) (r : Removal) (ts : List Ticket), s.removals[i]? = some r → s.record.stripped[i]? = some ts →
    r.Took (ts.map (·.package))
  held : ∀ (i : Nat) (a : Admission) (logger : Logger) (p : Package), s.admissions[i]? = some a →
    a.holds? = some (logger, p) →
    (⟨i, logger, p⟩ : Ticket).origin ∈ s.record.opened
  origins : ∀ t, t ∈ s.record.pending ∨ t ∈ s.record.dispatched ∨ (∃ ts ∈ s.record.stripped, t ∈ ts) →
    t.origin ∈ s.record.opened

theorem recorded_start (service : Service σ) (fresh : service.shared.scheduler = {}) :
    (ofService service).Recorded where
  tidy := by
    show service.shared.scheduler.Tidy
    rw [fresh]
    exact Scheduler.Tidy.empty
  pending pid := by
    show _ = service.shared.scheduler.lineOf pid
    rw [fresh]
    rfl
  dispatched := rfl
  removals := rfl
  stripped _ _ _ h := by cases h
  held _ _ _ _ h := by cases h
  origins _ h := by
    rcases h with h | h | ⟨_, h, -⟩ <;> cases h

namespace Recorded

theorem packages_set {i : Nat} {r r' : Run} (here : s.runs[i]? = some r) (package : r'.package = r.package) :
    (s.runs.set i r').map (·.package) = s.runs.map (·.package) := by
  obtain ⟨hi, rfl⟩ := List.getElem?_eq_some_iff.mp here
  rw [List.map_set, package]
  refine List.ext_getElem (List.length_set) fun j _ _ => ?_
  rw [List.getElem_set]
  split
  · rename_i hj
    simp [hj]
  · rfl

/-- Nothing has changed that the record tells: no process notices anything in its line, and a request may have
gone on. -/
theorem keep (h : s.Recorded) (tidy : t.shared.scheduler.Tidy)
    (line : ∀ pid, t.shared.scheduler.lineOf pid = s.shared.scheduler.lineOf pid)
    (runs : t.runs.map (·.package) = s.runs.map (·.package)) (removals : t.removals = s.removals)
    (record : t.record = s.record)
    (held : ∀ (i : Nat) (a : Admission) (logger : Logger) (p : Package), t.admissions[i]? = some a →
      a.holds? = some (logger, p) → (⟨i, logger, p⟩ : Ticket).origin ∈ s.record.opened) : t.Recorded where
  tidy := tidy
  pending pid := by rw [record, line, h.pending]
  dispatched := by rw [record, runs, h.dispatched]
  removals := by rw [record, removals, h.removals]
  stripped i r ts hr hts := h.stripped i r ts (removals ▸ hr) (record ▸ hts)
  held := by
    rw [record]
    exact held
  origins u hu := by
    rw [record] at hu ⊢
    exact h.origins u hu

theorem alike [Storage σ] (h : s.Recorded) (ht : Alike s t) : t.Recorded :=
  h.keep (ht.scheduler ▸ h.tidy) (fun pid => by rw [ht.scheduler]) (by rw [ht.runs]) ht.removals ht.record
    (ht.admissions ▸ h.held)

theorem held_set (h : s.Recorded) {i : Nat} {a a' : Admission} (here : s.admissions[i]? = some a)
    (next : ∀ logger p, a'.holds? = some (logger, p) → (⟨i, logger, p⟩ : Ticket).origin ∈ s.record.opened) :
    ∀ (j : Nat) (b : Admission) (logger : Logger) (p : Package), (s.admissions.set i a')[j]? = some b →
      b.holds? = some (logger, p) → (⟨j, logger, p⟩ : Ticket).origin ∈ s.record.opened := by
  intro j b logger p hb hholds
  rcases getElem?_set_cases here hb with ⟨rfl, rfl⟩ | ⟨-, hb⟩
  · exact next logger p hholds
  · exact h.held j b logger p hb hholds

/-- A package is published: its register is known, and it stands behind all others of its process. -/
theorem publish (h : s.Recorded) {i : Nat} {logger : Logger} {p : Package}
    (here : s.admissions[i]? = some (.place logger p))
    (scheduler : t.shared.scheduler.Tidy)
    (behind : ∀ pid, t.shared.scheduler.lineOf pid =
      s.shared.scheduler.lineOf pid ++ if p.processId = pid then [p] else [])
    {a : Admission} (admissions : t.admissions = s.admissions.set i a) (free : a.holds? = none)
    (removals : t.removals = s.removals) (runs : t.runs = s.runs)
    (record : t.record = { s.record with pending := s.record.pending ++ [⟨i, logger, p⟩] }) : t.Recorded where
  tidy := scheduler
  pending pid := by
    rw [record, behind, ← h.pending, Record.pendingOf, List.filter_append, List.map_append]
    by_cases hp : p.processId = pid <;> simp [hp, Record.pendingOf]
  dispatched := by rw [record, runs, h.dispatched]
  removals := by rw [record, removals, h.removals]
  stripped j r ts hr hts := h.stripped j r ts (removals ▸ hr) (by rwa [record] at hts)
  held := by
    rw [admissions, record]
    exact h.held_set here fun logger p hp => by rw [free] at hp; cases hp
  origins u hu := by
    rw [record] at hu ⊢
    rcases hu with hu | hu
    · rcases List.mem_append.mp hu with hu | hu
      · exact h.origins u (Or.inl hu)
      · rw [List.mem_singleton.mp hu]
        exact h.held i _ logger p here rfl
    · exact h.origins u (Or.inr hu)

/-- The main loop dispatches the package that the record has first for the process. -/
theorem dispatch (h : s.Recorded) {p : Package} {scheduler : Scheduler}
    (popped : s.shared.scheduler.pop? = some (p, scheduler)) :
    (s.dispatch p scheduler).Recorded := by
  have hline := Scheduler.lineOf_pop? popped
  have hpending := h.pending p.processId
  rw [hline, if_pos rfl, List.singleton_append] at hpending
  obtain ⟨t, rest, hrest, ht, hmap⟩ := List.map_eq_cons_iff.mp hpending
  have hstate : s.dispatch p scheduler = { s with
      shared := { s.shared with scheduler, loop := .asking }
      runs := s.runs ++ [{ package := p }]
      record := { s.record with
        pending := s.record.pending.eraseP fun t => t.package.processId = p.processId
        dispatched := s.record.dispatched ++ [t] } } := by
    rw [Activities.dispatch, Record.dispatch_of_pendingOf hrest]
  have hmem : t ∈ s.record.pending := (List.mem_filter.mp (hrest ▸ List.mem_cons_self : t ∈ s.record.pendingOf _)).1
  rw [hstate]
  refine ⟨h.tidy.pop? popped, fun pid => ?_, ?_, h.removals, h.stripped, h.held, fun u hu => ?_⟩
  · have herase := Record.filter_eraseP (p := fun t : Ticket => t.package.processId = p.processId)
      (q := fun t => t.package.processId = pid) s.record.pending
    show List.map _ ((s.record.pending.eraseP _).filter _) = scheduler.lineOf pid
    by_cases hp : p.processId = pid
    · subst hp
      rw [herase.1, ← Record.pendingOf, hrest]
      exact hmap
    · have hold := h.pending pid
      rw [hline, if_neg hp, List.nil_append] at hold
      rw [herase.2 (by simp_all), ← Record.pendingOf, hold]
  · show List.map _ (s.record.dispatched ++ [t]) = List.map _ (s.runs ++ [_])
    rw [List.map_append, List.map_append, h.dispatched, List.map_singleton, ht, List.map_singleton]
  · rcases hu with hu | hu | hu
    · exact h.origins u (Or.inl (List.mem_of_mem_eraseP hu))
    · rcases List.mem_append.mp hu with hu | hu
      · exact h.origins u (Or.inr (Or.inl hu))
      · exact h.origins u (Or.inl (List.mem_singleton.mp hu ▸ hmem))
    · exact h.origins u (Or.inr (Or.inr hu))

theorem release (h : s.Recorded) (pid : ProcessId) : (s.release pid).Recorded :=
  h.keep (h.tidy.finish pid) (fun id => Scheduler.lineOf_finish h.tidy pid id) rfl rfl rfl h.held

theorem ordered (h : s.Recorded) (pid : ProcessId) :
    ({ s with
      removals := s.removals ++ [.forget pid]
      record := { s.record with stripped := s.record.stripped ++ [[]] } } : Activities σ).Recorded := by
  refine ⟨h.tidy, h.pending, h.dispatched, ?_, fun i r ts hr hts => ?_, h.held, fun u hu => ?_⟩
  · simp [h.removals]
  · rcases getElem?_concat_cases hr with ⟨hi, rfl⟩ | hr
    · rcases getElem?_concat_cases hts with ⟨-, rfl⟩ | hts
      · rfl
      · have := (List.getElem?_eq_some_iff.mp hts).1
        rw [h.removals] at this
        omega
    · rcases getElem?_concat_cases hts with ⟨hi, -⟩ | hts
      · have := (List.getElem?_eq_some_iff.mp hr).1
        rw [h.removals] at hi
        omega
      · exact h.stripped i r ts hr hts
  · rcases hu with hu | hu | ⟨ts, hts, hu⟩
    · exact h.origins u (Or.inl hu)
    · exact h.origins u (Or.inr (Or.inl hu))
    · rcases List.mem_append.mp hts with hts | hts
      · exact h.origins u (Or.inr (Or.inr ⟨ts, hts, hu⟩))
      · rw [List.mem_singleton.mp hts] at hu
        cases hu

section
variable [Storage σ]

theorem opens (h : s.Recorded) {i : Nat} {logger : Logger} {pid : ProcessId} {date now : Instant} {id : RegisterId}
    {storage : σ} (here : s.admissions[i]? = some (.openRegister logger pid date))
    (hstep : (Admission.openRegister logger pid date).step now s.shared =
      (.place logger ⟨pid, id, date, false⟩, { s.shared with storage })) :
    (s.stepAdmission i (.openRegister logger pid date) now).Recorded := by
  have hstate : s.stepAdmission i (.openRegister logger pid date) now = { s with
      shared := { s.shared with storage }
      admissions := s.admissions.set i (.place logger ⟨pid, id, date, false⟩)
      record := { s.record with opened := s.record.opened ++ [⟨i, logger, ⟨pid, id, date, false⟩⟩] } } := by
    simp only [Activities.stepAdmission, hstep, Record.admitted]
  rw [hstate]
  refine ⟨h.tidy, h.pending, h.dispatched, h.removals, h.stripped, fun j a l p ha hp => ?_, fun u hu => ?_⟩
  · rcases getElem?_set_cases here ha with ⟨rfl, rfl⟩ | ⟨-, ha⟩
    · cases hp
      exact List.mem_append_right _ (List.mem_singleton.mpr rfl)
    · exact List.mem_append_left _ (h.held j a l p ha hp)
  · exact List.mem_append_left _ (h.origins u hu)

theorem stepAdmission (h : s.Recorded) {i : Nat} {a : Admission} (here : s.admissions[i]? = some a) (now : Instant) :
    (s.stepAdmission i a now).Recorded := by
  -- Steps after which no package is held and by which none is published.
  have free : (a.step now s.shared).1.holds? = none → (a.step now s.shared).2.scheduler = s.shared.scheduler →
      s.record.admitted i a (a.step now s.shared).1 = s.record → (s.stepAdmission i a now).Recorded :=
    fun hfree hscheduler hrecord => by
      have hsame : (s.stepAdmission i a now).shared.scheduler = s.shared.scheduler := hscheduler
      refine h.keep (hsame ▸ h.tidy) (fun pid => by rw [hsame]) rfl rfl hrecord (h.held_set here fun logger p hp => ?_)
      rw [hfree] at hp
      cases hp
  cases a with
  | find pid date =>
    rcases Admission.step_find now s.shared pid date with hstep | hstep <;> rw [hstep] at free <;>
      exact free rfl rfl rfl
  | takeLog pid date => exact free rfl rfl rfl
  | openRegister logger pid date =>
    rcases Admission.step_openRegister now s.shared logger pid date with ⟨id, storage, -, hstep⟩ |
      ⟨e, storage, -, hstep⟩
    · exact h.opens here hstep
    · rw [hstep] at free
      exact free rfl rfl rfl
  | place logger p =>
    rcases Admission.step_place now s.shared logger p with ⟨idle, hstep⟩ | ⟨active, hq, hstep⟩ |
      ⟨active, hq, hstep⟩
    · refine h.publish here ?_ ?_ rfl ?_ rfl rfl ?_ <;> simp only [Activities.stepAdmission, hstep]
      · exact h.tidy.enqueue p
      · exact Scheduler.lineOf_enqueue h.tidy idle
      · rfl
      · rfl
    · refine h.publish here ?_ ?_ rfl ?_ rfl rfl ?_ <;> simp only [Activities.stepAdmission, hstep]
      · exact h.tidy.wait active
      · exact Scheduler.lineOf_wait _ p
      · rfl
      · rfl
    · refine h.keep ?_ (fun pid => ?_) rfl rfl ?_ (h.held_set here fun l q hheld => ?_)
      · simp only [Activities.stepAdmission, hstep]
        exact h.tidy
      · simp only [Activities.stepAdmission, hstep]
      · simp only [Activities.stepAdmission, hstep, Record.admitted]
      · rw [hstep] at hheld
        cases hheld
        exact h.held i _ logger p here rfl
  | mark logger p =>
    refine h.keep h.tidy (fun _ => rfl) rfl rfl rfl (h.held_set here fun l q hq => ?_)
    cases hq
    exact h.held i _ logger p here rfl
  | wake p => exact free rfl (alike_wake s).scheduler rfl
  | announce p event => exact free rfl rfl rfl
  | done => exact free rfl rfl rfl

theorem removal_set (h : s.Recorded) {i : Nat} {r : Removal} (here : s.removals[i]? = some r) {now : Instant}
    (record : s.record.removed i r = s.record) (scheduler : (r.step now s.shared).2.scheduler = s.shared.scheduler)
    (next : ∀ taken, r.Took taken → (r.step now s.shared).1.Took taken) : (s.stepRemoval i r now).Recorded := by
  have hscheduler : (s.stepRemoval i r now).shared.scheduler = s.shared.scheduler := scheduler
  have hrecord : (s.stepRemoval i r now).record = s.record := record
  refine ⟨?_, fun pid => ?_, ?_, ?_, fun j x ts hx hts => ?_, ?_, ?_⟩ <;> try rw [hrecord]
  · rw [hscheduler]
    exact h.tidy
  · rw [hscheduler]
    exact h.pending pid
  · exact h.dispatched
  · exact h.removals.trans List.length_set.symm
  · rw [hrecord] at hts
    rcases getElem?_set_cases here hx with ⟨rfl, rfl⟩ | ⟨-, hx⟩
    · exact next _ (h.stripped j r ts here hts)
    · exact h.stripped j x ts hx hts
  · exact h.held
  · exact h.origins

theorem strips (h : s.Recorded) {i : Nat} {pid : ProcessId} (here : s.removals[i]? = some (.strip pid))
    (now : Instant) :
    (s.stepRemoval i (.strip pid) now).Recorded := by
  obtain ⟨r', hr', hstep⟩ : ∃ r' : Removal, r'.Took (s.shared.scheduler.lineOf pid) ∧
      (Removal.strip pid).step now s.shared =
          (r', { s.shared with scheduler := (s.shared.scheduler.remove pid).2 }) := by
    rcases Removal.step_strip now s.shared pid with ⟨-, hstep⟩ | hstep
    · exact ⟨.done 0, trivial, hstep⟩
    · exact ⟨.takeLog _, rfl, hstep⟩
  have hi : i < s.record.stripped.length := by
    rw [h.removals]
    exact (List.getElem?_eq_some_iff.mp here).1
  simp only [Activities.stepRemoval, hstep, Record.removed]
  refine ⟨h.tidy.remove pid, fun id => ?_, h.dispatched, ?_, fun j x ts hx hts => ?_, h.held, fun u hu => ?_⟩
  · rw [Scheduler.lineOf_remove, Record.pendingOf, List.filter_filter]
    by_cases hid : id = pid
    · simp [hid]
    · rw [if_neg hid, ← h.pending]
      congr 1
      refine List.filter_congr fun t _ => ?_
      by_cases ht : t.package.processId = id <;> simp [ht, hid]
  · simp only [List.length_set, h.removals]
  · rcases getElem?_set_cases here hx with ⟨rfl, rfl⟩ | ⟨hj, hx⟩
    · rw [List.getElem?_set_self hi, Option.some.injEq] at hts
      rw [← hts]
      exact (h.pending pid).symm ▸ hr'
    · rw [List.getElem?_set_ne (Ne.symm hj)] at hts
      exact h.stripped j x ts hx hts
  · rcases hu with hu | hu | ⟨ts, hts, hu⟩
    · exact h.origins u (Or.inl (List.mem_filter.mp hu).1)
    · exact h.origins u (Or.inr (Or.inl hu))
    · rcases List.mem_or_eq_of_mem_set hts with hts | rfl
      · exact h.origins u (Or.inr (Or.inr ⟨ts, hts, hu⟩))
      · exact h.origins u (Or.inl (List.mem_filter.mp hu).1)

theorem stepRemoval (h : s.Recorded) {i : Nat} {r : Removal} (here : s.removals[i]? = some r) (now : Instant) :
    (s.stepRemoval i r now).Recorded := by
  cases r with
  | forget pid => exact h.removal_set here rfl rfl fun _ htook => htook
  | strip pid => exact h.strips here now
  | takeLog packages =>
    refine h.removal_set here rfl rfl fun taken htook => ?_
    rw [show taken = packages from htook]
    exact List.suffix_rfl
  | close logger count packages =>
    cases packages with
    | nil => exact h.removal_set here rfl rfl fun _ _ => trivial
    | cons p packages => exact h.removal_set here rfl rfl fun _ htook => htook
  | announce logger count p packages =>
    exact h.removal_set here rfl rfl fun _ htook => (List.suffix_cons p packages).trans htook
  | done count => exact h.removal_set here rfl rfl fun _ _ => trivial

theorem stepRun (h : s.Recorded) {i : Nat} {r : Run} (here : s.runs[i]? = some r) (now : Instant) :
    (s.stepRun i r now).Recorded := by
  have hruns := packages_set here (r.package_step now s.shared)
  rcases r.step_cases now s.shared with ⟨-, hscheduler⟩ | ⟨-, -, hscheduler⟩
  · have hkeep : (s.stepRun i r now).shared.scheduler = s.shared.scheduler := hscheduler
    exact h.keep (hkeep ▸ h.tidy) (fun pid => by rw [hkeep]) hruns rfl rfl h.held
  · have hfinish : (s.stepRun i r now).shared.scheduler = (s.shared.scheduler.finish r.package.processId).2 :=
      hscheduler
    refine h.keep (hfinish ▸ h.tidy.finish _) (fun pid => ?_) hruns rfl rfl h.held
    rw [hfinish, Scheduler.lineOf_finish h.tidy]

theorem stepped (h : s.Recorded) (hm : Stepped s m t) : t.Recorded := by
  cases hm with
  | alike ht => exact h.alike ht
  | request pid date =>
    refine h.keep h.tidy (fun _ => rfl) rfl rfl rfl fun i a logger p ha hp => ?_
    rcases getElem?_concat_cases ha with ⟨-, rfl⟩ | ha
    · cases hp
    · exact h.held i a logger p ha hp
  | forget pid => exact h.ordered pid
  | admission now here => exact h.stepAdmission here now
  | removal now here => exact h.stepRemoval here now
  | run now here => exact h.stepRun here now
  | answer result here working => exact h.keep h.tidy (fun _ => rfl) (packages_set here rfl) rfl rfl h.held
  | dispatch popped => exact h.dispatch popped
  | release pid => exact h.release pid
  | select => exact h.keep h.tidy (fun _ => rfl) rfl rfl rfl h.held

end

end Recorded

theorem recorded_after [Storage σ] (h : s.Recorded) (moves : List Move) : (s.after moves).Recorded :=
  after_keep s h fun t ht m _ => ht.stepped (step_cases t m)

end Activities

end ProcessRuns
