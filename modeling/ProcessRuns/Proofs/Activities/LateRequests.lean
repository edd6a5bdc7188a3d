import ProcessRuns.Proofs.Activities.Located
import ProcessRuns.Proofs.Activities.Order
import ProcessRuns.Proofs.Service.Timers

/-! # Requests that a removal does not see

A request looks its process up first and publishes its package some steps later. A removal forgets the process first
and takes its packages out of the queues one step later. So a request that found the process before it was forgotten,
and that has not published when the queues are looked through, publishes its package behind the removal's back. -/

namespace ProcessRuns

/-- The process that the request has found and for which it did not publish a package yet. -/
def Admission.onWay? : Admission → Option ProcessId
  | .takeLog pid _ | .openRegister _ pid _ => some pid
  | .place _ p | .mark _ p => some p.processId
  | .find _ _ | .wake _ | .announce _ _ | .done => none

/-- The request did not open a register yet. -/
def Admission.isEarly : Admission → Bool
  | .find _ _ | .takeLog _ _ | .openRegister _ _ _ => true
  | _ => false

section
variable {σ : Type} [Storage σ] {a : Admission} {pid : ProcessId} {x : Happening}

theorem Admission.isEarly_step (h : a.isEarly = false) (now : Instant) (s : Shared σ) :
    (a.step now s).1.isEarly = false := by
  cases a with
  | find | takeLog | openRegister => cases h
  | place logger p =>
    rcases step_place now s logger p with ⟨-, hs⟩ | ⟨-, -, hs⟩ | ⟨-, -, hs⟩ <;> rw [hs] <;> rfl
  | mark | wake | announce | done => rfl

/-- What is published is of the process for which the request is on its way. -/
theorem Admission.onWay?_of_happening {i j : Nat} {p : Package} {next : Admission} (h : a.happening? i next = some x)
    (hp : x.published? = some (j, p)) : j = i ∧ a.onWay? = some p.processId ∧
    ∃ logger, a.holds? = some (logger, p) := by
  unfold happening? at h
  split at h
  · cases h
    cases hp
    exact ⟨rfl, rfl, _, rfl⟩
  · cases h
    cases hp
    exact ⟨rfl, rfl, _, rfl⟩
  · cases h

/-- A request gets on its way for a process only by finding it. -/
theorem Admission.onWay?_of_step {now : Instant} {s : Shared σ} (h : (a.step now s).1.onWay? = some pid)
    (unknown : s.registry.find? pid = none) : a.onWay? = some pid := by
  cases a with
  | find other date =>
    by_cases hother : other = pid
    · have hnone : s.find? other = none := by rw [hother, Shared.find?, unknown, ite_self]
      simp only [step, hnone] at h
      cases h
    · rcases step_find now s other date with hs | hs <;> rw [hs] at h
      · exact absurd (Option.some.inj h) hother
      · cases h
  | takeLog | mark => exact h
  | openRegister logger other date =>
    rcases step_openRegister now s logger other date with ⟨_, _, -, hs⟩ | ⟨_, _, -, hs⟩ <;> rw [hs] at h
    · exact h
    · cases h
  | place logger p =>
    rcases step_place now s logger p with ⟨-, hs⟩ | ⟨-, -, hs⟩ | ⟨-, -, hs⟩ <;> rw [hs] at h
    · cases h
    · cases h
    · exact h
  | wake | announce | done => cases h

/-- A request that is on its way stays so until it publishes, unless it gets no register. -/
theorem Admission.onWay?_step (h : a.onWay? = some pid) (i : Nat) (now : Instant) (s : Shared σ) :
    (a.step now s).1.onWay? = some pid ∨
      (∃ x p, a.happening? i (a.step now s).1 = some x ∧ x.published? = some (i, p) ∧ p.processId = pid) ∨
      (a.isEarly = true ∧ (a.step now s).1 = .done) := by
  cases a with
  | find | wake | announce | done => cases h
  | takeLog | mark => exact Or.inl h
  | openRegister logger other date =>
    rcases step_openRegister now s logger other date with ⟨_, _, -, hs⟩ | ⟨_, _, -, hs⟩ <;> rw [hs]
    · exact Or.inl h
    · exact Or.inr (Or.inr ⟨rfl, rfl⟩)
  | place logger p =>
    have hpid : p.processId = pid := Option.some.inj h
    rcases step_place now s logger p with ⟨-, hs⟩ | ⟨-, -, hs⟩ | ⟨-, -, hs⟩ <;> rw [hs]
    · exact Or.inr (Or.inl ⟨_, p, rfl, rfl, hpid⟩)
    · exact Or.inr (Or.inl ⟨_, p, rfl, rfl, hpid⟩)
    · exact Or.inl h

end

/-- The process that the move defines. -/
def Move.defined? : Move → Option ProcessId
  | .define p => some p.id
  | _ => none

namespace Activities

section
variable {σ : Type}

/-- The registry has no definition of the process. -/
def Forgotten (s : Activities σ) (pid : ProcessId) : Prop := s.shared.registry.find? pid = none

/-- Request `j` has found the process and did not publish its package yet. -/
def OnWay (s : Activities σ) (pid : ProcessId) (j : Nat) : Prop := (s.admissions[j]?).bind (·.onWay?) = some pid

/-- A register was opened for request `j`. -/
def HasRegister (s : Activities σ) (j : Nat) : Prop := ∃ t ∈ s.record.opened, t.request = j

/-- No register was opened for a request that did not get so far. -/
def OpenedLater (s : Activities σ) : Prop :=
  ∀ t ∈ s.record.opened, ∃ a, s.admissions[t.request]? = some a ∧ a.isEarly = false

theorem forgotten_remove {s : Activities σ} {pid : ProcessId} (h : s.Forgotten pid) (other : ProcessId) :
    (s.shared.registry.remove other).find? pid = none := by
  by_cases hid : pid = other
  · rw [hid]
    exact Keyed.get?_erase_self _ _
  · exact (Keyed.get?_erase_of_ne _ hid).trans h

end

variable {σ : Type} [Storage σ] {s t : Activities σ} {m : Move} {pid : ProcessId} {i j : Nat} {p : Package}

/-! ### Processes that are forgotten -/

/-- Only who defines the process again brings it back. -/
theorem Forgotten.step (h : s.Forgotten pid) (hm : m.defined? ≠ some pid) : (s.step m).Forgotten pid := by
  -- Most steps leave the definitions alone; the others are those of definitions and removals.
  have of_book : ∀ {u : Shared σ}, u.book = s.shared.book → u.registry.find? pid = none := by
    intro u hu
    rw [show u.registry = s.shared.registry from congrArg Prod.snd hu]
    exact h
  cases m with
  | define p =>
    have hne : pid ≠ p.id := fun heq => hm (congrArg some heq.symm)
    exact (Keyed.get?_set_of_ne _ _ hne).trans h
  | undefine other => exact forgotten_remove h other
  | admission i now =>
    simp only [Activities.step]
    cases s.admissions[i]? with
    | none => exact h
    | some a => exact of_book (a.book_step now s.shared)
  | removal i now =>
    simp only [Activities.step]
    cases s.removals[i]? with
    | none => exact h
    | some r =>
      cases r with
      -- The only stage of a removal that changes the registry takes an entry out.
      | forget other => exact forgotten_remove h other
      | _ => exact of_book (Removal.book_step now _ s.shared (by simp [Removal.stage]))
  | run i now =>
    simp only [Activities.step]
    cases s.runs[i]? with
    | none => exact h
    | some r => exact of_book (r.book_step now s.shared)
  | act i action now =>
    simp only [Activities.step]
    cases s.runs[i]? with
    | none => exact h
    | some r =>
      obtain ⟨_, -, hact⟩ := r.context.perform_snd now action s.shared
      simp only [Option.elim_some, act]
      split
      · exact of_book (by rw [hact]; rfl)
      · exact h
  | answer i result =>
    simp only [Activities.step]
    cases s.runs[i]? <;> exact h
  | loop =>
    rcases s.shared.loopStep_cases with ⟨_, _, -, hloop⟩ | ⟨_, _, _, hloop⟩ <;>
      simp only [Activities.step, loop, hloop] <;>
      exact h
  | launch =>
    simp only [Activities.step, launch]
    split <;> exact h
  | halt => exact of_book s.shared.book_loopStop
  | nudge =>
    simp only [Activities.step, nudge]
    split
    · exact h
    · exact of_book s.shared.book_wake
  | select name =>
    simp only [Activities.step, Forgotten]
    exact of_book (s.shared.book_selectTable name)
  | outside context action now =>
    obtain ⟨_, -, hact⟩ := context.perform_snd now action s.shared
    exact of_book (by rw [Activities.step, hact]; rfl)
  | request | forget | release | lookUp | disown | resize | withdraw => exact h

theorem Forgotten.after {moves : List Move} (h : s.Forgotten pid) (stays : ∀ m ∈ moves, m.defined? ≠ some pid) :
    (s.after moves).Forgotten pid :=
  after_keep (P := fun t => t.Forgotten pid) s h fun _ ht m hm => ht.step (stays m hm)

/-! ### Requests on their way -/

/-- While its process is forgotten no request gets on its way. -/
theorem OnWay.before (h : t.OnWay pid j) (hm : Stepped s m t) (forgotten : s.Forgotten pid) : s.OnWay pid j := by
  cases hm with
  | alike ht =>
    rw [OnWay, ht.admissions] at h
    exact h
  | request other date => exact bind_of_concat rfl h
  | admission now here =>
    rcases bind_set_cases here h with ⟨rfl, hnext⟩ | hsame
    · rw [OnWay, here]
      exact Admission.onWay?_of_step hnext forgotten
    · exact hsame
  | forget | removal | run | answer | dispatch | release | select => exact h

theorem OnWay.before_after {moves : List Move} (h : (s.after moves).OnWay pid j) (forgotten : s.Forgotten pid)
    (stays : ∀ m ∈ moves, m.defined? ≠ some pid) : s.OnWay pid j := by
  induction moves generalizing s with
  | nil => exact h
  | cons m moves ih =>
    obtain ⟨hm, hrest⟩ := List.forall_mem_cons.mp stays
    exact (ih h (forgotten.step hm) hrest).before (step_cases s m) forgotten

/-- A request that publishes is on its way, and holds the package that it publishes. -/
theorem onWay_of_happening (h : (j, p) ∈ publications pid (s.happening? m).toList) :
    s.OnWay pid j ∧ ∃ a logger, s.admissions[j]? = some a ∧ a.holds? = some (logger, p) := by
  obtain ⟨hp, hpid⟩ := List.mem_filter.mp h
  obtain ⟨x, hx, hpublished⟩ := List.mem_filterMap.mp hp
  have hpid : p.processId = pid := of_decide_eq_true hpid
  rcases happening_cases (Option.mem_toList.mp hx) with ⟨i, now, a, -, here, hhappens⟩ |
    ⟨-, q, rfl⟩ | ⟨hnone, -⟩
  · obtain ⟨rfl, hway, logger, hholds⟩ := Admission.onWay?_of_happening hhappens hpublished
    refine ⟨?_, a, logger, here, hholds⟩
    rw [OnWay, here, ← hpid]
    exact hway
  · cases hpublished
  · rw [hnone] at hpublished
    cases hpublished

/-- Who publishes a package of a process that is forgotten has found it before. -/
theorem onWay_of_publication {moves : List Move} (h : (j, p) ∈ publications pid (s.chronicle moves))
    (forgotten : s.Forgotten pid) (stays : ∀ m ∈ moves, m.defined? ≠ some pid) : s.OnWay pid j := by
  induction moves generalizing s with
  | nil => cases h
  | cons m moves ih =>
    obtain ⟨hm, hrest⟩ := List.forall_mem_cons.mp stays
    rw [chronicle, publications_append, List.mem_append] at h
    rcases h with hnow | hlater
    · exact (onWay_of_happening hnow).1
    · exact (ih hlater (forgotten.step hm) hrest).before (step_cases s m) forgotten

/-! ### Requests and their registers -/

theorem HasRegister.stepped (h : s.HasRegister j) (hm : Stepped s m t) : t.HasRegister j := by
  obtain ⟨u, hu, hj⟩ := h
  refine ⟨u, ?_, hj⟩
  rcases opened_stepped hm with hsame | ⟨i, logger, other, date, now, id, -, -, -, hopened⟩
  · rw [hsame]
    exact hu
  · rw [hopened]
    exact List.mem_append_left _ hu

theorem HasRegister.after (h : s.HasRegister j) (moves : List Move) : (s.after moves).HasRegister j :=
  after_keep (P := fun t => t.HasRegister j) s h fun t ht m _ => ht.stepped (step_cases t m)

theorem OpenedLater.stepped (h : s.OpenedLater) (hm : Stepped s m t) : t.OpenedLater := by
  have old : ∀ u ∈ s.record.opened, ∃ a, t.admissions[u.request]? = some a ∧ a.isEarly = false := by
    intro u hu
    exact admission_keeps (fun a now ha => Admission.isEarly_step ha now s.shared) (h u hu) hm
  intro u hu
  rcases opened_stepped hm with hsame | ⟨i, logger, other, date, now, id, here, -, hadmissions, hopened⟩
  · exact old u (hsame ▸ hu)
  · rw [hopened, List.mem_append, List.mem_singleton] at hu
    rcases hu with hu | rfl
    · exact old u hu
    · refine ⟨.place logger ⟨other, id, date, false⟩, ?_, rfl⟩
      rw [hadmissions]
      exact List.getElem?_set_self (List.getElem?_eq_some_iff.mp here).1

theorem openedLater_after (h : s.OpenedLater) (moves : List Move) : (s.after moves).OpenedLater :=
  after_keep s h fun t ht m _ => ht.stepped (step_cases t m)

/-- The request is over and got no register. -/
def Refused (s : Activities σ) (j : Nat) : Prop := s.admissions[j]? = some .done ∧ ¬ s.HasRegister j

theorem Refused.stepped (h : s.Refused j) (hm : Stepped s m t) : t.Refused j := by
  obtain ⟨hdone, hnone⟩ := h
  have hstill : t.admissions[j]? = some .done := by
    obtain ⟨a, hstill, rfl⟩ := admission_keeps (P := (· = .done)) (fun a now ha => by rw [ha]; rfl)
      ⟨_, hdone, rfl⟩ hm
    exact hstill
  refine ⟨hstill, ?_⟩
  rintro ⟨u, hu, rfl⟩
  rcases opened_stepped hm with hsame | ⟨i, logger, other, date, now, id, here, -, -, hopened⟩
  · exact hnone ⟨u, hsame ▸ hu, rfl⟩
  · rw [hopened, List.mem_append, List.mem_singleton] at hu
    rcases hu with hu | rfl
    · exact hnone ⟨u, hu, rfl⟩
    · rw [here] at hdone
      cases hdone

theorem Refused.after (h : s.Refused j) (moves : List Move) : (s.after moves).Refused j :=
  after_keep (P := fun t => t.Refused j) s h fun t ht m _ => ht.stepped (step_cases t m)

/-- What a move makes of a request on its way. -/
theorem OnWay.step_cases (h : s.OnWay pid j) (later : s.OpenedLater) (m : Move) :
    (s.step m).OnWay pid j ∨ (∃ p, (j, p) ∈ publications pid (s.happening? m).toList) ∨ (s.step m).Refused j := by
  obtain ⟨a, here, hway⟩ := Option.bind_eq_some_iff.mp h
  rcases admission_stepped here (Activities.step_cases s m) with hsame | ⟨now, rfl, hstep⟩
  · refine Or.inl ?_
    rw [OnWay, hsame]
    exact hway
  have there := getElem?_stepAdmission here now
  rw [hstep]
  rcases Admission.onWay?_step hway j now s.shared with hstill | ⟨x, p, hx, hpublished, hpid⟩ | ⟨early, hdone⟩
  · refine Or.inl ?_
    rw [OnWay, there]
    exact hstill
  · refine Or.inr (Or.inl ⟨p, ?_⟩)
    simp [publications, happening?, here, hx, hpublished, hpid]
  · refine Or.inr (Or.inr ⟨by rw [there, hdone], ?_⟩)
    rintro ⟨u, hu, rfl⟩
    have hu : u ∈ (s.record.admitted u.request a (a.step now s.shared).1).opened := hu
    rw [hdone] at hu
    obtain ⟨b, hb, hlate⟩ := later u (by cases a <;> exact hu)
    rw [here, Option.some.injEq] at hb
    rw [← hb, early] at hlate
    cases hlate

/-- A request that is over has published its package, or it got no register. -/
theorem OnWay.published_or_refused {moves : List Move} (h : s.OnWay pid j) (later : s.OpenedLater)
    (done : (s.after moves).admissions[j]? = some .done) :
    (∃ p, (j, p) ∈ publications pid (s.chronicle moves)) ∨ (s.after moves).Refused j := by
  induction moves generalizing s with
  | nil =>
    have done : s.admissions[j]? = some .done := done
    rw [OnWay, done] at h
    cases h
  | cons m moves ih =>
    rcases h.step_cases later m with hway | ⟨p, hp⟩ | hrefused
    · rcases ih hway (later.stepped (Activities.step_cases s m)) done with ⟨p, hp⟩ | hrefused
      · refine Or.inl ⟨p, ?_⟩
        rw [chronicle, publications_append]
        exact List.mem_append_right _ hp
      · exact Or.inr hrefused
    · refine Or.inl ⟨p, ?_⟩
      rw [chronicle, publications_append]
      exact List.mem_append_left _ hp
    · exact Or.inr (hrefused.after moves)

/-- Who publishes a package has a register. -/
theorem hasRegister_of_publication {moves : List Move} (hr : s.Recorded)
    (h : (j, p) ∈ publications pid (s.chronicle moves)) : (s.after moves).HasRegister j := by
  induction moves generalizing s with
  | nil => cases h
  | cons m moves ih =>
    rw [chronicle, publications_append, List.mem_append] at h
    rcases h with hnow | hlater
    · obtain ⟨-, a, logger, here, hholds⟩ := onWay_of_happening hnow
      have hregister : s.HasRegister j := ⟨_, hr.held j a logger p here hholds, rfl⟩
      exact hregister.after (m :: moves)
    · exact ih (hr.stepped (step_cases s m)) hlater

/-! ### What stands in line after a removal -/

/-- What is published of a process goes to the end of its line, and what leaves goes from the front. -/
theorem line_after (hr : s.Recorded) (moves : List Move) (pid : ProcessId) :
    s.shared.scheduler.lineOf pid ++ (publications pid (s.chronicle moves)).map Prod.snd =
      (departures pid (s.chronicle moves)).map Prod.snd ++ (s.after moves).shared.scheduler.lineOf pid := by
  induction moves generalizing s with
  | nil => exact List.append_nil _
  | cons m moves ih =>
    rw [chronicle, publications_append, departures_append, List.map_append, List.map_append, ← List.append_assoc,
      (passes_step s m).line hr.tidy pid, List.append_assoc, ih (hr.stepped (step_cases s m)), List.append_assoc]
    rfl

/-- The process is forgotten and nothing of it is in line; requests for it may be on their way. -/
structure Gone (s : Activities σ) (pid : ProcessId) : Prop where
  recorded : s.Recorded
  later : s.OpenedLater
  forgotten : s.Forgotten pid
  empty : s.shared.scheduler.lineOf pid = []

theorem gone_of_strip (recorded : s.Recorded) (later : s.OpenedLater) (forgotten : s.Forgotten pid)
    (here : s.removals[i]? = some (.strip pid)) (now : Instant) : (s.stepRemoval i (.strip pid) now).Gone pid where
  recorded := recorded.stepRemoval here now
  later := later.stepped (.removal now here)
  forgotten := forgotten
  empty := (Scheduler.lineOf_remove _ pid pid).trans (if_pos rfl)

namespace Gone

variable {moves : List Move}

theorem line (h : s.Gone pid) (moves : List Move) : (publications pid (s.chronicle moves)).map Prod.snd =
    (departures pid (s.chronicle moves)).map Prod.snd ++ (s.after moves).shared.scheduler.lineOf pid := by
  have hline := line_after h.recorded moves pid
  rwa [h.empty, List.nil_append] at hline

theorem publishes_iff (h : s.Gone pid) (hj : s.OnWay pid j) (done : (s.after moves).admissions[j]? = some .done) :
    (∃ p, (j, p) ∈ publications pid (s.chronicle moves)) ↔ (s.after moves).HasRegister j := by
  constructor
  · rintro ⟨p, hp⟩
    exact hasRegister_of_publication h.recorded hp
  · intro hregister
    rcases hj.published_or_refused h.later done with hp | ⟨-, hnone⟩
    · exact hp
    · exact absurd hregister hnone

/-- There is nothing of the process in line, and nothing has left it, if no request on its way has got a register. -/
theorem nothing_iff (h : s.Gone pid) (stays : ∀ m ∈ moves, m.defined? ≠ some pid)
    (done : ∀ j, s.OnWay pid j → (s.after moves).admissions[j]? = some .done) :
    (s.after moves).shared.scheduler.lineOf pid = [] ∧ departures pid (s.chronicle moves) = [] ↔
      ∀ j, s.OnWay pid j → ¬ (s.after moves).HasRegister j := by
  have hline := h.line moves
  constructor
  · rintro ⟨hempty, hnone⟩ j hj hregister
    obtain ⟨p, hp⟩ := (h.publishes_iff hj (done j hj)).mpr hregister
    rw [hempty, hnone, List.map_nil, List.append_nil, List.map_eq_nil_iff] at hline
    rw [hline] at hp
    cases hp
  · intro hnone
    have hnothing : publications pid (s.chronicle moves) = [] := by
      refine List.eq_nil_iff_forall_not_mem.mpr ?_
      rintro ⟨j, p⟩ hp
      exact hnone j (onWay_of_publication hp h.forgotten stays) (hasRegister_of_publication h.recorded hp)
    rw [hnothing] at hline
    obtain ⟨hleft, hempty⟩ := List.append_eq_nil_iff.mp hline.symm
    exact ⟨hempty, List.map_eq_nil_iff.mp hleft⟩

end Gone

/-- A removal forgets a process by one step and takes its packages out of the queues by a later one. If the process is
not defined again, what is published of it after that comes from requests that had found it before it was forgotten and
had still not published when the queues were looked through; and all that is published stands in line or has left it
like any other package. Once these requests are over, the process has nothing in line and had nothing dispatched since
exactly if none of them got a register: each that got one has published its package. -/
theorem removal_overlooks_requests_on_their_way (kind : ServiceKind) (instanceId cores workers : Nat) (logger : Logger)
    (registry : Registry) (storage : σ) (early mid late : List Move) (i : Nat) (pid : ProcessId) (now now' : Instant) :
    let forgetting := (ofService (Service.create kind instanceId cores workers logger registry storage)).after early
    let stripping := (forgetting.step (.removal i now)).after mid
    let stripped := stripping.step (.removal i now')
    let h := stripped.chronicle late
    let s := stripped.after late
    forgetting.removals[i]? = some (.forget pid) → stripping.removals[i]? = some (.strip pid) →
    (∀ m ∈ mid, m.defined? ≠ some pid) → (∀ m ∈ late, m.defined? ≠ some pid) →
      (∀ j p, (j, p) ∈ publications pid h → forgetting.OnWay pid j ∧ stripping.OnWay pid j ∧ s.HasRegister j) ∧
      (publications pid h).map Prod.snd = (departures pid h).map Prod.snd ++ s.shared.scheduler.lineOf pid ∧
      s.runs.map (·.package) = stripping.runs.map (·.package) ++ h.filterMap (·.dispatched?) ∧
      ((∀ j, stripping.OnWay pid j → s.admissions[j]? = some .done) →
        (∀ j, stripping.OnWay pid j → ((∃ p, (j, p) ∈ publications pid h) ↔ s.HasRegister j)) ∧
        (s.shared.scheduler.lineOf pid = [] ∧ departures pid h = [] ↔
          ∀ j, stripping.OnWay pid j → ¬ s.HasRegister j)) := by
  intro forgetting stripping stripped h s ordered next stays stays'
  have hforget : forgetting.step (.removal i now) = forgetting.stepRemoval i (.forget pid) now := by
    simp only [step, ordered, Option.elim_some]
  have hstrip : stripped = stripping.stepRemoval i (.strip pid) now' := by
    simp only [stripped, step, next, Option.elim_some]
  -- From its first step on the removal has the process forgotten.
  have hforgotten : (forgetting.step (.removal i now)).Forgotten pid := by
    rw [hforget]
    exact Keyed.get?_erase_self _ _
  have hgone : stripped.Gone pid := by
    have hmoves : stripping = (ofService (Service.create kind instanceId cores workers logger registry storage)).after
        (early ++ .removal i now :: mid) := (after_append _ early (.removal i now :: mid)).symm
    have hrecorded : stripping.Recorded := hmoves ▸ recorded_after (recorded_start _ rfl) _
    have hlater : stripping.OpenedLater := hmoves ▸ openedLater_after (fun _ ht => absurd ht List.not_mem_nil) _
    rw [hstrip]
    exact gone_of_strip hrecorded hlater (hforgotten.after stays) next now'
  have hsame : ∀ j, stripped.OnWay pid j ↔ stripping.OnWay pid j := by
    intro j
    rw [hstrip]
    exact Iff.rfl
  refine ⟨fun j p hp => ?_, hgone.line late, ?_, fun done => ⟨fun j hj => ?_, ?_⟩⟩
  · have hway : stripping.OnWay pid j := (hsame j).mp (onWay_of_publication hp hgone.forgotten stays')
    have hfound := hway.before_after hforgotten stays
    rw [hforget] at hfound
    exact ⟨hfound, hway, hasRegister_of_publication hgone.recorded hp⟩
  · have hruns : stripped.runs = stripping.runs := by
      rw [hstrip]
      rfl
    rw [← hruns]
    exact runs_after stripped late
  · exact hgone.publishes_iff ((hsame j).mpr hj) (done j hj)
  · simp only [← hsame] at done ⊢
    exact hgone.nothing_iff stays' done

/-- A request finds its process, and somebody orders the removal of the process. -/
def foundThenForgotten : List Move := [.request 1 .epoch, .admission 0 .epoch, .forget 1]

/-- The request goes on to its end, and the main loop looks for packages. -/
def goesOnAndRuns : List Move := List.replicate 4 (.admission 0 .epoch) ++ [.launch, .loop, .loop]

/-- The request takes its copy of the log between the two steps of the removal, and the process runs after it. -/
theorem removal_overlooks_requests_on_their_way_of_foundThenForgotten :
    let forgetting := (ofService (Service.create .collector 1 4 2 ⟨some soloTable⟩ soloRegistry soloLog)).after
      foundThenForgotten
    let stripping := (forgetting.step (.removal 0 .epoch)).after [.admission 0 .epoch]
    let stripped := stripping.step (.removal 0 .epoch)
    let s := stripped.after goesOnAndRuns
    forgetting.removals[0]? = some (.forget 1) ∧ stripping.removals[0]? = some (.strip 1) ∧
      stripped.removals = [.done 0] ∧ stripping.OnWay 1 0 ∧ s.admissions.map (·.isDone) = [true] ∧
      s.HasRegister 0 ∧ s.Forgotten 1 ∧ s.runs.map (·.package) = [⟨1, 1, .epoch, false⟩] ∧
      ¬ (s.shared.scheduler.lineOf 1 = [] ∧ departures 1 (stripped.chronicle goesOnAndRuns) = []) := by
  intro forgetting stripping stripped s
  obtain ⟨-, -, -, returned⟩ := removal_overlooks_requests_on_their_way .collector 1 4 2
    ⟨some soloTable⟩ soloRegistry
    soloLog foundThenForgotten [.admission 0 .epoch] goesOnAndRuns 0 1 .epoch .epoch rfl rfl (by decide) (by decide)
  have hway : stripping.OnWay 1 0 := rfl
  have hdone : s.admissions.map (·.isDone) = [true] := by decide +kernel
  have hregister : s.HasRegister 0 := ⟨⟨0, ⟨some soloTable⟩, ⟨1, 1, .epoch, false⟩⟩, by decide +kernel, rfl⟩
  have hforgotten : s.Forgotten 1 := Option.isNone_iff_eq_none.mp (by decide +kernel)
  refine ⟨rfl, rfl, rfl, hway, hdone, hregister, hforgotten, by decide +kernel, fun hnothing => ?_⟩
  simp only [s, stripped, stripping, forgetting] at hnothing
  refine (returned fun j hj => ?_).2.mp hnothing 0 hway hregister
  obtain ⟨a, ha, hover⟩ := List.map_eq_singleton_iff.mp hdone
  cases j with
  | zero =>
    rw [ha]
    cases a with
    | done => rfl
    | _ => cases hover
  | succ j => cases hj

end Activities

end ProcessRuns
