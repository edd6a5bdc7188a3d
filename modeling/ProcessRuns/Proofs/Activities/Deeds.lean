import ProcessRuns.Proofs.Activities.Order
import ProcessRuns.Proofs.Activities.Places

/-! # What activities do for others to notice

Requests, removals and runs touch the queues and announce events; whatever else they do is between them and the
storage. `deeds` puts down, move by move, who did what. A request whose register was opened enters the queues once and
announces it once, a run announces its start, releases its process and announces its end, a removal announces each
package that it took out: this is so whatever the storage answers on the way. -/

namespace ProcessRuns

/-- What an activity does that others notice. -/
inductive Deed where
  /-- Puts its package on the primary queue. -/
  | queues (p : Package)
  /-- Puts its package behind its process. -/
  | waits (p : Package)
  /-- Takes the packages of a process out of the queues. -/
  | strips (pid : ProcessId) (packages : List Package)
  | releases (pid : ProcessId)
  | announces (n : Notice)

namespace Deed

/-- The queues after it. -/
def apply (s : Scheduler) : Deed → Scheduler
  | queues p => s.enqueue p
  | waits p => s.wait p
  | strips pid _ => (s.remove pid).2
  | releases pid => (s.finish pid).2
  | announces _ => s

/-- The event that is told. -/
def notice? : Deed → Option Notice
  | announces n => some n
  | _ => none

end Deed

/-- An event of a package's register. -/
def Package.notice (p : Package) (event : Event) : Notice := ⟨p.processId, p.registerId, event⟩

/-! ### One activity -/

/-- What a request does by going from one stage to another. -/
def Admission.deed? (a next : Admission) : Option Deed :=
  match a, next with
  | .place _ p, .wake _ => some (.queues p)
  | .place _ p, .announce _ _ => some (.waits p)
  | .announce p event, _ => some (.announces (p.notice event))
  | _, _ => none

/-- What the next step of a removal does for others to see. -/
def Removal.deed? (r : Removal) (s : Scheduler) : Option Deed :=
  match r with
  | .strip pid => some (.strips pid (s.remove pid).1)
  | .announce _ _ p _ => some (.announces (p.notice .notExecuted))
  | _ => none

/-- What the next step of a run does for others to see. -/
def Run.deed? (r : Run) : Option Deed :=
  match r.stage with
  | .announce => some (.announces (r.package.notice (.running r.package.executionDate)))
  | .release _ => some (.releases r.package.processId)
  | .report e => some (.announces (r.package.notice (.finished (e.report r.package))))
  | _ => none

/-- What request `i` has done when it stands where it does; `ts` are the registers that were opened for it. -/
def Admission.Did (i : Nat) (ts : List Ticket) (ds : List Deed) : Admission → Prop
  | .find _ _ | .takeLog _ _ | .openRegister _ _ _ => ts = [] ∧ ds = []
  | .place log p | .mark log p => ts = [(⟨i, log, p⟩ : Ticket).origin] ∧ ds = []
  | .wake p => ds = [.queues p] ∧ ∃ log, ts = [(⟨i, log, p⟩ : Ticket).origin]
  | .announce p event =>
    (event = .queued p.executionDate ∧ ds = [.queues p] ∨ event = .onQueue p.executionDate ∧ ds = [.waits p]) ∧
      ∃ log, ts = [(⟨i, log, p⟩ : Ticket).origin]
  | .done => ts = [] ∧ ds = [] ∨ ∃ log p, ts = [(⟨i, log, p⟩ : Ticket).origin] ∧
      (ds = [.queues p, .announces (p.notice (.queued p.executionDate))] ∨
        ds = [.waits p, .announces (p.notice (.onQueue p.executionDate))])

/-- What a removal has done that took `taken` out and has announced `told` of them. -/
def Removal.dropped (pid : ProcessId) (taken told : List Package) : List Deed :=
  .strips pid taken :: told.map fun p => .announces (p.notice .notExecuted)

/-- A removal has done so far what its stage says. -/
def Removal.Did (ds : List Deed) : Removal → Prop
  | .forget _ | .strip _ => ds = []
  | .takeLog packages => ∃ pid, ds = dropped pid packages []
  | .close _ count packages => ∃ pid told, ds = dropped pid (told ++ packages) told ∧ count = (told ++ packages).length
  | .announce _ count p packages =>
    ∃ pid told, ds = dropped pid (told ++ p :: packages) told ∧ count = (told ++ p :: packages).length
  | .done count => ∃ pid taken, ds = dropped pid taken taken ∧ count = taken.length

/-- What a run has done, announced its start first. -/
def Run.started (r : Run) (more : List Deed) : List Deed :=
  .announces (r.package.notice (.running r.package.executionDate)) :: more

/-- A run has done so far what its stage says. -/
def Run.Did (ds : List Deed) (r : Run) : Prop :=
  match r.stage with
  | .takeLog | .mark | .announce => ds = []
  | .stampStart | .check | .working | .stampEnd _ | .explain _ | .close _ | .release _ => ds = r.started []
  | .wake _ | .report _ => ds = r.started [.releases r.package.processId]
  | .leave | .finished => ∃ e : Ending, ds =
      r.started [.releases r.package.processId, .announces (r.package.notice (.finished (e.report r.package)))]

section
variable {σ : Type} [Storage σ] (now : Instant) (s : Shared σ) {ds : List Deed}

/-- A step of a request announces what its deed says, and does to the queues what its deed says. -/
theorem Admission.effect (a : Admission) :
    (a.step now s).2.notices = s.notices ++ ((a.deed? (a.step now s).1).bind (·.notice?)).toList ∧
      (a.step now s).2.scheduler = (a.deed? (a.step now s).1).elim s.scheduler (·.apply s.scheduler) := by
  have none : s.notices = s.notices ++ [] := (List.append_nil _).symm
  cases a with
  | find pid date => rcases step_find now s pid date with h | h <;> rw [h] <;> exact ⟨none, rfl⟩
  | openRegister logger pid date =>
    rcases step_openRegister now s logger pid date with ⟨_, _, -, h⟩ | ⟨_, _, -, h⟩ <;> rw [h] <;>
      exact ⟨none, rfl⟩
  | place logger p =>
    rcases step_place now s logger p with ⟨-, h⟩ | ⟨-, -, h⟩ | ⟨-, -, h⟩ <;> rw [h] <;> exact ⟨none, rfl⟩
  | wake p =>
    simp only [step, deed?, Shared.wake]
    split <;> exact ⟨none, rfl⟩
  | announce p event => exact ⟨rfl, rfl⟩
  | takeLog | mark | done => exact ⟨none, rfl⟩

theorem Removal.effect (r : Removal) :
    (r.step now s).2.notices = s.notices ++ ((r.deed? s.scheduler).bind (·.notice?)).toList ∧
      (r.step now s).2.scheduler = (r.deed? s.scheduler).elim s.scheduler (·.apply s.scheduler) := by
  have none : s.notices = s.notices ++ [] := (List.append_nil _).symm
  cases r with
  | close logger count packages => cases packages <;> exact ⟨none, rfl⟩
  | announce => exact ⟨rfl, rfl⟩
  | forget | strip | takeLog | done => exact ⟨none, rfl⟩

theorem Run.effect (r : Run) :
    (r.step now s).2.notices = s.notices ++ (r.deed?.bind (·.notice?)).toList ∧
      (r.step now s).2.scheduler = r.deed?.elim s.scheduler (·.apply s.scheduler) := by
  have none : s.notices = s.notices ++ [] := (List.append_nil _).symm
  obtain ⟨p, logger, stage⟩ := r
  cases stage with
  | announce | report => exact ⟨rfl, rfl⟩
  | explain e =>
    simp only [step, deed?]
    cases e.message? <;> exact ⟨none, rfl⟩
  | wake e =>
    simp only [step, deed?, Shared.wake]
    split <;> exact ⟨none, rfl⟩
  | _ => exact ⟨none, rfl⟩

/-- A step of a request adds the deed of the step and the register that it opens. -/
theorem Admission.did_step {i : Nat} {record : Record} {a : Admission}
    (h : a.Did i (record.opened.filter (·.request = i)) ds) :
    (a.step now s).1.Did i ((record.admitted i a (a.step now s).1).opened.filter (·.request = i))
      (ds ++ (a.deed? (a.step now s).1).toList) := by
  cases a with
  | find pid date =>
    obtain ⟨hts, rfl⟩ := h
    rcases step_find now s pid date with hs | hs <;> rw [hs]
    · exact ⟨hts, rfl⟩
    · exact Or.inl ⟨hts, rfl⟩
  | takeLog pid date =>
    obtain ⟨hts, rfl⟩ := h
    exact ⟨hts, rfl⟩
  | openRegister logger pid date =>
    obtain ⟨hts, rfl⟩ := h
    rcases step_openRegister now s logger pid date with ⟨id, _, -, hs⟩ | ⟨_, _, -, hs⟩ <;> rw [hs]
    · refine ⟨?_, rfl⟩
      show List.filter _ (record.opened ++ [_]) = _
      rw [List.filter_append, hts, List.nil_append, List.filter_singleton, decide_eq_true rfl]
      rfl
    · exact Or.inl ⟨hts, rfl⟩
  | place logger p =>
    obtain ⟨hts, rfl⟩ := h
    rcases step_place now s logger p with ⟨-, hs⟩ | ⟨-, -, hs⟩ | ⟨-, -, hs⟩ <;> rw [hs]
    · exact ⟨rfl, logger, hts⟩
    · exact ⟨Or.inr ⟨rfl, rfl⟩, logger, hts⟩
    · exact ⟨hts, rfl⟩
  | mark logger p =>
    obtain ⟨hts, rfl⟩ := h
    exact ⟨hts, rfl⟩
  | wake p =>
    obtain ⟨rfl, hts⟩ := h
    exact ⟨Or.inl ⟨rfl, rfl⟩, hts⟩
  | announce p event =>
    obtain ⟨⟨rfl, rfl⟩ | ⟨rfl, rfl⟩, logger, hts⟩ := h
    · exact Or.inr ⟨logger, p, hts, Or.inl rfl⟩
    · exact Or.inr ⟨logger, p, hts, Or.inr rfl⟩
  | done => exact (List.append_nil ds).symm ▸ h

theorem Removal.did_step {r : Removal} (h : r.Did ds) :
    (r.step now s).1.Did (ds ++ (r.deed? s.scheduler).toList) := by
  cases r with
  | forget pid => exact (List.append_nil ds).symm ▸ h
  | strip pid =>
    obtain rfl : ds = [] := h
    rcases step_strip now s pid with ⟨hnil, hs⟩ | hs <;> rw [hs]
    · refine ⟨pid, [], ?_, rfl⟩
      rw [deed?, hnil]
      rfl
    · exact ⟨pid, rfl⟩
  | takeLog packages =>
    obtain ⟨pid, rfl⟩ := h
    exact ⟨pid, [], rfl, rfl⟩
  | close logger count packages =>
    obtain ⟨pid, told, rfl, hcount⟩ := h
    cases packages with
    | nil => exact ⟨pid, told, by rw [List.append_nil]; exact List.append_nil _, by rw [hcount, List.append_nil]⟩
    | cons p packages => exact ⟨pid, told, List.append_nil _, hcount⟩
  | announce logger count p packages =>
    obtain ⟨pid, told, rfl, hcount⟩ := h
    refine ⟨pid, told ++ [p], ?_, by rw [hcount, List.append_assoc]; rfl⟩
    rw [List.append_assoc, dropped, dropped, List.map_append]
    rfl
  | done count => exact (List.append_nil ds).symm ▸ h

theorem Run.did_step {r : Run} (h : r.Did ds) : (r.step now s).1.Did (ds ++ r.deed?.toList) := by
  obtain ⟨p, logger, stage⟩ := r
  have same : ds = ds ++ [] := (List.append_nil ds).symm
  cases stage with
  | takeLog =>
    obtain rfl : ds = [] := h
    show Run.Did [] { package := p, logger := s.logger, stage := _ }
    split <;> rfl
  | announce =>
    obtain rfl : ds = [] := h
    rfl
  | check =>
    simp only [step, enter]
    split <;> exact same ▸ h
  | release e =>
    obtain rfl : ds = _ := h
    simp only [step, enter]
    split <;> rfl
  | report e =>
    obtain rfl : ds = _ := h
    exact ⟨e, rfl⟩
  | _ => exact same ▸ h

end

/-! ### All activities -/

/-- The move is a step of a request, a removal or a run. -/
def Move.isOwn : Move → Bool
  | .admission _ _ | .removal _ _ | .run _ _ => true
  | _ => false

namespace Activities

variable {σ : Type} {s t : Activities σ} {m : Move} {ds : List (Place × Deed)}

/-- What was done in one place, oldest first. -/
def deedsOf (place : Place) (ds : List (Place × Deed)) : List Deed := (ds.filter (·.1 = place)).map Prod.snd

theorem deedsOf_concat_self (place : Place) (ds : List (Place × Deed)) (d? : Option Deed) :
    deedsOf place (ds ++ (d?.map (place, ·)).toList) = deedsOf place ds ++ d?.toList := by
  rw [deedsOf, List.filter_append, List.map_append, ← deedsOf]
  congr 1
  cases d? <;> simp

theorem deedsOf_concat_of_ne {place other : Place} (h : other ≠ place) (ds : List (Place × Deed)) (d? : Option Deed) :
    deedsOf place (ds ++ (d?.map (other, ·)).toList) = deedsOf place ds := by
  rw [deedsOf, List.filter_append, List.map_append, ← deedsOf]
  cases d? <;> simp [h]

/-- What every activity has done is what its stage says. -/
structure Did (s : Activities σ) (ds : List (Place × Deed)) : Prop where
  admission : ∀ i, (s.admissions[i]?).elim
    (s.record.opened.filter (·.request = i) = [] ∧ deedsOf (.admission i) ds = [])
    (·.Did i (s.record.opened.filter (·.request = i)) (deedsOf (.admission i) ds))
  removal : ∀ i, (s.removals[i]?).elim (deedsOf (.removal i) ds = []) (·.Did (deedsOf (.removal i) ds))
  run : ∀ i, (s.runs[i]?).elim (deedsOf (.run i) ds = []) (·.Did (deedsOf (.run i) ds))

theorem did_start (service : Service σ) : (ofService service).Did [] :=
  ⟨fun _ => ⟨rfl, rfl⟩, fun _ => rfl, fun _ => rfl⟩

section
variable [Storage σ]

/-- What the activity whose step a move is does by it. -/
def deed? (s : Activities σ) : Move → Option (Place × Deed)
  | .admission i now => (s.admissions[i]?).bind fun a => (a.deed? (a.step now s.shared).1).map (.admission i, ·)
  | .removal i _ => (s.removals[i]?).bind fun r => (r.deed? s.shared.scheduler).map (.removal i, ·)
  | .run i _ => (s.runs[i]?).bind fun r => r.deed?.map (.run i, ·)
  | _ => none

/-- Who did what in an interleaving, oldest first. -/
def deeds (s : Activities σ) : List Move → List (Place × Deed)
  | [] => []
  | m :: moves => (s.deed? m).toList ++ (s.step m).deeds moves

theorem mem_deeds {d : Place × Deed} {moves : List Move} (h : d ∈ s.deeds moves) :
    ∃ before m after, moves = before ++ m :: after ∧ (s.after before).deed? m = some d := by
  induction moves generalizing s with
  | nil => cases h
  | cons m moves ih =>
    rcases List.mem_append.mp h with hfirst | hrest
    · exact ⟨[], m, moves, rfl, Option.mem_toList.mp hfirst⟩
    · obtain ⟨before, m', after, rfl, hd⟩ := ih hrest
      exact ⟨m :: before, m', after, rfl, hd⟩

theorem deeds_append (s : Activities σ) (moves more : List Move) :
    s.deeds (moves ++ more) = s.deeds moves ++ (s.after moves).deeds more := by
  induction moves generalizing s with
  | nil => rfl
  | cons m moves ih => rw [List.cons_append, deeds, ih, deeds, List.append_assoc]; rfl

/-- Only requests, removals and runs do something. -/
theorem place_of_deed? {place : Place} {d : Deed} (h : s.deed? m = some (place, d)) :
    (∃ i, place = .admission i) ∨ (∃ i, place = .removal i) ∨ ∃ i, place = .run i := by
  cases m with
  | admission i now =>
    obtain ⟨a, -, ha⟩ := Option.bind_eq_some_iff.mp h
    obtain ⟨_, -, hd⟩ := Option.map_eq_some_iff.mp ha
    exact Or.inl ⟨i, (congrArg Prod.fst hd).symm⟩
  | removal i now =>
    obtain ⟨r, -, hr⟩ := Option.bind_eq_some_iff.mp h
    obtain ⟨_, -, hd⟩ := Option.map_eq_some_iff.mp hr
    exact Or.inr (Or.inl ⟨i, (congrArg Prod.fst hd).symm⟩)
  | run i now =>
    obtain ⟨r, -, hr⟩ := Option.bind_eq_some_iff.mp h
    obtain ⟨_, -, hd⟩ := Option.map_eq_some_iff.mp hr
    exact Or.inr (Or.inr ⟨i, (congrArg Prod.fst hd).symm⟩)
  | _ => cases h

theorem filter_opened_admitted (r : Record) (a next : Admission) {i j : Nat} (h : j ≠ i) :
    (r.admitted i a next).opened.filter (·.request = j) = r.opened.filter (·.request = j) := by
  unfold Record.admitted
  split <;> simp [Ne.symm h]

namespace Did

theorem stepAdmission (h : s.Did ds) {i : Nat} {a : Admission} (here : s.admissions[i]? = some a) (now : Instant) :
    (s.stepAdmission i a now).Did (ds ++ ((a.deed? (a.step now s.shared).1).map (.admission i, ·)).toList) := by
  refine ⟨fun j => ?_, fun j => ?_, fun j => ?_⟩
  · show ((s.admissions.set i _)[j]?).elim (List.filter _ (s.record.admitted i a _).opened = [] ∧ _)
      (·.Did j (List.filter _ (s.record.admitted i a _).opened) _)
    by_cases hj : j = i
    · subst hj
      have ha := h.admission j
      rw [here] at ha
      rw [List.getElem?_set_self (List.getElem?_eq_some_iff.mp here).1, deedsOf_concat_self]
      exact Admission.did_step now s.shared ha
    · rw [List.getElem?_set_ne (Ne.symm hj), filter_opened_admitted _ _ _ hj,
        deedsOf_concat_of_ne fun heq => hj (Place.admission.inj heq).symm]
      exact h.admission j
  · rw [deedsOf_concat_of_ne (by simp)]
    exact h.removal j
  · rw [deedsOf_concat_of_ne (by simp)]
    exact h.run j

theorem stepRemoval (h : s.Did ds) {i : Nat} {r : Removal} (here : s.removals[i]? = some r) (now : Instant) :
    (s.stepRemoval i r now).Did (ds ++ ((r.deed? s.shared.scheduler).map (.removal i, ·)).toList) := by
  refine ⟨fun j => ?_, fun j => ?_, fun j => ?_⟩
  · rw [deedsOf_concat_of_ne (by simp)]
    show (s.admissions[j]?).elim (List.filter _ (s.record.removed i r).opened = [] ∧ _)
      (·.Did j (List.filter _ (s.record.removed i r).opened) _)
    rw [Record.opened_removed]
    exact h.admission j
  · show ((s.removals.set i _)[j]?).elim _ _
    by_cases hj : j = i
    · subst hj
      have hr := h.removal j
      rw [here] at hr
      rw [List.getElem?_set_self (List.getElem?_eq_some_iff.mp here).1, deedsOf_concat_self]
      exact Removal.did_step now s.shared hr
    · rw [List.getElem?_set_ne (Ne.symm hj), deedsOf_concat_of_ne fun heq => hj (Place.removal.inj heq).symm]
      exact h.removal j
  · rw [deedsOf_concat_of_ne (by simp)]
    exact h.run j

theorem stepRun (h : s.Did ds) {i : Nat} {r : Run} (here : s.runs[i]? = some r) (now : Instant) :
    (s.stepRun i r now).Did (ds ++ (r.deed?.map (.run i, ·)).toList) := by
  refine ⟨fun j => ?_, fun j => ?_, fun j => ?_⟩
  · rw [deedsOf_concat_of_ne (by simp)]
    exact h.admission j
  · rw [deedsOf_concat_of_ne (by simp)]
    exact h.removal j
  · show ((s.runs.set i _)[j]?).elim _ _
    by_cases hj : j = i
    · subst hj
      have hr := h.run j
      rw [here] at hr
      rw [List.getElem?_set_self (List.getElem?_eq_some_iff.mp here).1, deedsOf_concat_self]
      exact Run.did_step now s.shared hr
    · rw [List.getElem?_set_ne (Ne.symm hj), deedsOf_concat_of_ne fun heq => hj (Place.run.inj heq).symm]
      exact h.run j

/-- By other moves activities come up or get an answer, but do nothing. -/
theorem other (h : s.Did ds) (hm : Stepped s m t) (other : m.isOwn = false) : t.Did ds := by
  cases hm with
  | alike ht =>
    refine ⟨?_, ?_, ?_⟩
    · rw [ht.admissions, ht.record]
      exact h.admission
    · rw [ht.removals]
      exact h.removal
    · rw [ht.runs]
      exact h.run
  | request pid date => exact ⟨fun j => Eq.mpr (elim_concat (by rfl) j) (h.admission j), h.removal, h.run⟩
  | forget pid => exact ⟨h.admission, fun j => Eq.mpr (elim_concat (by rfl) j) (h.removal j), h.run⟩
  -- The answer is put to a run that has announced its start, and it says nothing of its own.
  | @answer i result r here working =>
    refine ⟨h.admission, h.removal, fun j => ?_⟩
    show ((s.runs.set i _)[j]?).elim _ _
    by_cases hj : j = i
    · subst hj
      have hr := h.run j
      rw [here] at hr
      rw [Option.elim_some, Run.Did, working] at hr
      rw [List.getElem?_set_self (List.getElem?_eq_some_iff.mp here).1, Option.elim_some]
      exact hr
    · rw [List.getElem?_set_ne (Ne.symm hj)]
      exact h.run j
  | @dispatch p scheduler popped =>
    refine ⟨fun j => ?_, h.removal, fun j => Eq.mpr (elim_concat (by rfl) j) (h.run j)⟩
    show (s.admissions[j]?).elim (List.filter _ (s.record.dispatch p.processId).opened = [] ∧ _)
      (·.Did j (List.filter _ (s.record.dispatch p.processId).opened) _)
    rw [Record.opened_dispatch]
    exact h.admission j
  | release | select => exact ⟨h.admission, h.removal, h.run⟩
  | admission | removal | run => cases other

theorem step (h : s.Did ds) (m : Move) : (s.step m).Did (ds ++ (s.deed? m).toList) := by
  -- Deeds are steps of activities; all other moves have none.
  cases hm : m.isOwn with
  | false =>
    have hnone : s.deed? m = none := by
      cases m <;> first | rfl | cases hm
    rw [hnone, Option.toList_none, List.append_nil]
    exact h.other (step_cases s m) hm
  | true =>
    cases m with
    | admission i now =>
      cases here : s.admissions[i]? with
      | none => simpa [Activities.step, deed?, here] using h
      | some a => simpa only [Activities.step, deed?, here, Option.elim_some, Option.bind_some]
          using h.stepAdmission here now
    | removal i now =>
      cases here : s.removals[i]? with
      | none => simpa [Activities.step, deed?, here] using h
      | some r => simpa only [Activities.step, deed?, here, Option.elim_some, Option.bind_some]
          using h.stepRemoval here now
    | run i now =>
      cases here : s.runs[i]? with
      | none => simpa [Activities.step, deed?, here] using h
      | some r => simpa only [Activities.step, deed?, here, Option.elim_some, Option.bind_some] using h.stepRun here now
    | _ => cases hm

theorem after (h : s.Did ds) (moves : List Move) : (s.after moves).Did (ds ++ s.deeds moves) := by
  induction moves generalizing s ds with
  | nil => exact (List.append_nil ds).symm ▸ h
  | cons m moves ih =>
    rw [deeds, ← List.append_assoc]
    exact ih (h.step m)

end Did

/-! ### Nothing else is announced -/

theorem notices_other (s : Activities σ) (other : m.isOwn = false) : (s.step m).shared.notices = s.shared.notices := by
  have wake : ∀ shared : Shared σ, shared.wake.notices = shared.notices := fun shared => by
    unfold Shared.wake
    split <;> rfl
  have perform : ∀ (c : JobContext) now action, (c.perform now action s.shared).2.notices = s.shared.notices :=
    fun c now action => by
      obtain ⟨_, -, h⟩ := c.perform_snd now action s.shared
      rw [h]
  cases m with
  | act i action now =>
    cases here : s.runs[i]? with
    | none => simp only [step, here, Option.elim_none]
    | some r =>
      simp only [step, here, Option.elim_some, act]
      split
      · exact perform _ _ _
      · rfl
  | answer i result =>
    cases here : s.runs[i]? <;> simp only [step, here, Option.elim_none, Option.elim_some]
  | loop =>
    rcases s.shared.loopStep_cases with ⟨_, _, -, h⟩ | ⟨_, _, _, h⟩ <;> simp only [step, loop, h]
  | launch =>
    simp only [step, launch]
    split <;> rfl
  | halt =>
    simp only [step, Shared.loopStop]
    split <;> rfl
  | nudge =>
    simp only [step, nudge]
    split
    · rfl
    · exact wake _
  | select name => simp only [step, Shared.selectTable, Action.within]
  | outside c action now => exact perform c now action
  | request | forget | release | lookUp | define | undefine | disown | resize | withdraw => rfl
  | admission | removal | run => cases other

theorem notices_step (s : Activities σ) (m : Move) :
    (s.step m).shared.notices = s.shared.notices ++ (s.deed? m).toList.filterMap (·.2.notice?) := by
  have told : ∀ (place : Place) (d? : Option Deed),
      (d?.map (place, ·)).toList.filterMap (·.2.notice?) = (d?.bind (·.notice?)).toList := fun place d? => by
    cases d? with
    | none => rfl
    | some d => cases d <;> rfl
  cases hm : m.isOwn with
  | false =>
    have hnone : s.deed? m = none := by
      cases m <;> first | rfl | cases hm
    rw [hnone, s.notices_other hm]
    exact (List.append_nil _).symm
  | true =>
    cases m with
    | admission i now =>
      cases here : s.admissions[i]? with
      | none => simp [step, deed?, here]
      | some a =>
        simp only [step, deed?, here, Option.elim_some, Option.bind_some, told]
        exact (a.effect now s.shared).1
    | removal i now =>
      cases here : s.removals[i]? with
      | none => simp [step, deed?, here]
      | some r =>
        simp only [step, deed?, here, Option.elim_some, Option.bind_some, told]
        exact (r.effect now s.shared).1
    | run i now =>
      cases here : s.runs[i]? with
      | none => simp [step, deed?, here]
      | some r =>
        simp only [step, deed?, here, Option.elim_some, Option.bind_some, told]
        exact (r.effect now s.shared).1
    | _ => cases hm

theorem notices_after (s : Activities σ) (moves : List Move) :
    (s.after moves).shared.notices = s.shared.notices ++ (s.deeds moves).filterMap (·.2.notice?) := by
  induction moves generalizing s with
  | nil => exact (List.append_nil _).symm
  | cons m moves ih =>
    rw [deeds, List.filterMap_append, ← List.append_assoc, ← notices_step]
    exact ih (s.step m)

/-- Between dispatches and releases from outside the queues change by what activities do, and as they do it. -/
theorem scheduler_step (s : Activities σ) (own : m ≠ .loop ∧ m.isRelease = false) :
    (s.step m).shared.scheduler = (s.deed? m).elim s.shared.scheduler (·.2.apply s.shared.scheduler) := by
  have done : ∀ (place : Place) (d? : Option Deed), (d?.map (place, ·)).elim s.shared.scheduler
    (·.2.apply s.shared.scheduler) =
      d?.elim s.shared.scheduler (·.apply s.shared.scheduler) := fun place d? => by cases d? <;> rfl
  cases m with
  | admission i now =>
    cases here : s.admissions[i]? with
    | none => simp only [step, deed?, here, Option.elim_none, Option.bind_none]
    | some a =>
      simp only [step, deed?, here, Option.elim_some, Option.bind_some, done]
      exact (a.effect now s.shared).2
  | removal i now =>
    cases here : s.removals[i]? with
    | none => simp only [step, deed?, here, Option.elim_none, Option.bind_none]
    | some r =>
      simp only [step, deed?, here, Option.elim_some, Option.bind_some, done]
      exact (r.effect now s.shared).2
  | run i now =>
    cases here : s.runs[i]? with
    | none => simp only [step, deed?, here, Option.elim_none, Option.bind_none]
    | some r =>
      simp only [step, deed?, here, Option.elim_some, Option.bind_some, done]
      exact (r.effect now s.shared).2
  | loop => exact absurd rfl own.1
  | release pid => cases own.2
  | _ => exact scheduler_silent (step_cases s _) rfl

end

end Activities

end ProcessRuns
