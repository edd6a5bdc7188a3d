import Mathlib.Data.List.Induction
import ProcessRuns.Proofs.Activities.Tickets
import ProcessRuns.Proofs.Queue.Order

/-! # The order in which packages are dispatched

Every move does one of the things to the queues that `Scheduler.Passes` lists, and `chronicle` puts down, move by move,
what happens to packages by it. Requests of one process that are made one after the other publish their packages in
that order, and the packages of a process leave the queues in the order of publication; packages of different
processes are dispatched in the order in which they entered the primary queue. -/

namespace ProcessRuns

/-! ## What moves do to the queues -/

/-- What a request does to the queues by going from one stage to another. -/
def Admission.happening? (a : Admission) (request : Nat) (next : Admission) : Option Happening :=
  match a, next with
  | .place _ p, .wake _ => some (.queued request p)
  | .place _ p, .announce _ _ => some (.waited request p)
  | _, _ => none

/-- The request publishes nothing any more. -/
def Admission.isPast : Admission → Bool
  | .wake _ | .announce _ _ | .done => true
  | _ => false

/-- A request publishes the package that it holds, and nothing after that. -/
theorem Admission.publishes {a next : Admission} {request : Nat} {x : Happening}
    (h : a.happening? request next = some x) :
    ∃ p, x.published? = some (request, p) ∧ x.dispatched? = none ∧ a.isPast = false ∧ next.isPast = true := by
  unfold happening? at h
  split at h
  · cases h
    exact ⟨_, rfl, rfl, rfl, rfl⟩
  · cases h
    exact ⟨_, rfl, rfl, rfl, rfl⟩
  · cases h

/-- What the next step of a removal does to the queues. -/
def Removal.happening? (r : Removal) (s : Scheduler) : Option Happening :=
  match r with
  | .strip pid => some (.stripped pid (s.remove pid).1)
  | _ => none

/-- A process that is released gets the package that is next behind it onto the primary queue. -/
def Scheduler.promotion? (s : Scheduler) (pid : ProcessId) : Option Happening := (s.waitQueue pid).head?.map .promoted

/-- A run releases its process when it ceases to be under way. -/
def Run.happening? (r next : Run) (s : Scheduler) : Option Happening :=
  if r.isUnderWay = true ∧ next.isUnderWay = false then s.promotion? r.package.processId else none

theorem Scheduler.promotes {s : Scheduler} {pid : ProcessId} {x : Happening} (h : s.promotion? pid = some x) :
    ∃ p, x = .promoted p := by
  obtain ⟨p, -, rfl⟩ := Option.map_eq_some_iff.mp h
  exact ⟨p, rfl⟩

theorem Scheduler.passes_finish (s : Scheduler) (pid : ProcessId) : s.Passes (s.promotion? pid) (s.finish pid).2 := by
  cases hq : s.waitQueue pid with
  | nil =>
    rw [promotion?, hq]
    exact .ended hq
  | cons p rest =>
    rw [promotion?, hq]
    exact .promoted hq

namespace Move

/-- It leaves the queues alone. -/
def isSilent : Move → Bool
  | admission _ _ | removal _ _ | run _ _ | loop | release _ => false
  | _ => true

end Move

namespace Activities

variable {σ : Type} [Storage σ] {s t : Activities σ} {m : Move} {i : Nat} {p : Package}

/-- What happens to packages by a move. -/
def happening? (s : Activities σ) : Move → Option Happening
  | .admission i now => (s.admissions[i]?).bind fun a => a.happening? i (a.step now s.shared).1
  | .removal i _ => (s.removals[i]?).bind fun r => r.happening? s.shared.scheduler
  | .run i now => (s.runs[i]?).bind fun r => r.happening? (r.step now s.shared).1 s.shared.scheduler
  | .loop => s.shared.loopStep.1.map .dispatched
  | .release pid => s.shared.scheduler.promotion? pid
  | _ => none

/-- What happens to packages by an interleaving, oldest first. -/
def chronicle (s : Activities σ) : List Move → List Happening
  | [] => []
  | m :: moves => (s.happening? m).toList ++ (s.step m).chronicle moves

theorem chronicle_append (s : Activities σ) (moves more : List Move) :
    s.chronicle (moves ++ more) = s.chronicle moves ++ (s.after moves).chronicle more := by
  induction moves generalizing s with
  | nil => rfl
  | cons m moves ih => rw [List.cons_append, chronicle, ih, chronicle, List.append_assoc]; rfl

theorem chronicle_concat (s : Activities σ) (moves : List Move) (m : Move) :
    s.chronicle (moves ++ [m]) = s.chronicle moves ++ ((s.after moves).happening? m).toList := by
  rw [chronicle_append, chronicle, chronicle, List.append_nil]

theorem scheduler_silent (h : Stepped s m t) (silent : m.isSilent = true) :
    t.shared.scheduler = s.shared.scheduler := by
  cases h with
  | alike h => exact h.scheduler
  | request | forget | answer | select => rfl
  | admission | removal | run | dispatch | release => cases silent

theorem happening_silent (silent : m.isSilent = true) : s.happening? m = none := by
  cases m <;> first | rfl | cases silent

theorem passes_admission (i : Nat) (a : Admission) (now : Instant) (s : Shared σ) :
    s.scheduler.Passes (a.happening? i (a.step now s).1) (a.step now s).2.scheduler := by
  cases a with
  | place logger p =>
    rcases Admission.step_place now s logger p with ⟨idle, h⟩ | ⟨active, -, h⟩ | ⟨-, -, h⟩ <;> rw [h]
    · exact .queued i idle
    · exact .waited i active
    · exact .keep
  | find pid date => rcases Admission.step_find now s pid date with h | h <;> rw [h] <;> exact .keep
  | openRegister logger pid date =>
    rcases Admission.step_openRegister now s logger pid date with ⟨_, _, -, h⟩ | ⟨_, _, -, h⟩ <;>
      rw [h] <;> exact .keep
  | wake p =>
    have hkeep : s.wake.scheduler = s.scheduler := by
      unfold Shared.wake
      split <;> rfl
    simp only [Admission.step, hkeep]
    exact .keep
  | takeLog | mark | announce | done => exact .keep

theorem passes_removal (r : Removal) (now : Instant) (s : Shared σ) :
    s.scheduler.Passes (r.happening? s.scheduler) (r.step now s).2.scheduler := by
  cases r with
  | strip pid => exact .stripped pid
  | close logger count packages => cases packages <;> exact .keep
  | forget | takeLog | announce | done => exact .keep

theorem passes_run (r : Run) (now : Instant) (s : Shared σ) :
    s.scheduler.Passes (r.happening? (r.step now s).1 s.scheduler) (r.step now s).2.scheduler := by
  rcases r.step_cases now s with ⟨hway, hscheduler⟩ | ⟨hway, hover, hscheduler⟩ <;> rw [hscheduler, Run.happening?]
  · rw [hway, if_neg fun hover => by simp [hover.1] at hover]
    exact .keep
  · rw [if_pos ⟨hway, hover⟩]
    exact s.scheduler.passes_finish _

/-- Every move does one of the things that may happen to the queues. -/
theorem passes_step (s : Activities σ) (m : Move) :
    s.shared.scheduler.Passes (s.happening? m) (s.step m).shared.scheduler := by
  cases hm : m.isSilent with
  | true =>
    rw [scheduler_silent (step_cases s m) hm, happening_silent hm]
    exact .keep
  | false =>
    cases m with
    | admission i now =>
      simp only [step, happening?]
      cases s.admissions[i]? with
      | none => exact .keep
      | some a => exact passes_admission i a now s.shared
    | removal i now =>
      simp only [step, happening?]
      cases s.removals[i]? with
      | none => exact .keep
      | some r => exact passes_removal r now s.shared
    | run i now =>
      simp only [step, happening?]
      cases s.runs[i]? with
      | none => exact .keep
      | some r => exact passes_run r now s.shared
    | loop =>
      rcases s.shared.loopStep_cases with ⟨p, scheduler, popped, h⟩ | ⟨_, _, _, h⟩ <;>
        simp only [step, loop, happening?, h]
      · exact .dispatched popped
      · exact .keep
    | release pid => exact s.shared.scheduler.passes_finish pid
    | _ => cases hm

/-- Only a step of a request publishes a package, and only the main loop dispatches one. -/
theorem happening_cases {x : Happening} (h : s.happening? m = some x) :
    (∃ i now a, m = .admission i now ∧ s.admissions[i]? = some a ∧
      a.happening? i (a.step now s.shared).1 = some x) ∨
    (m = .loop ∧ ∃ p, x = .dispatched p) ∨ (x.published? = none ∧ x.dispatched? = none) := by
  have promotion : ∀ pid, s.shared.scheduler.promotion? pid = some x → x.published? = none ∧ x.dispatched? = none :=
    fun pid hx => by
      obtain ⟨p, rfl⟩ := Scheduler.promotes hx
      exact ⟨rfl, rfl⟩
  cases m with
  | admission i now =>
    obtain ⟨a, here, hx⟩ := Option.bind_eq_some_iff.mp h
    exact Or.inl ⟨i, now, a, rfl, here, hx⟩
  | loop =>
    obtain ⟨p, -, rfl⟩ := Option.map_eq_some_iff.mp h
    exact Or.inr (Or.inl ⟨rfl, p, rfl⟩)
  | removal i now =>
    obtain ⟨r, -, hx⟩ := Option.bind_eq_some_iff.mp h
    cases r <;> cases hx
    exact Or.inr (Or.inr ⟨rfl, rfl⟩)
  | run i now =>
    obtain ⟨r, -, hx⟩ := Option.bind_eq_some_iff.mp h
    rw [Run.happening?] at hx
    split at hx
    · exact Or.inr (Or.inr (promotion _ hx))
    · cases hx
  | release pid => exact Or.inr (Or.inr (promotion pid h))
  | _ => cases h

theorem dispatched_of_happening {x : Happening} (h : s.happening? m = some x) : m = .loop ∨ x.dispatched? = none := by
  rcases happening_cases h with ⟨i, now, a, -, -, hpublished⟩ | ⟨hloop, -⟩ | ⟨-, hnone⟩
  · obtain ⟨p, -, hnone, -⟩ := Admission.publishes hpublished
    exact Or.inr hnone
  · exact Or.inl hloop
  · exact Or.inr hnone

/-! ## Runs -/

theorem runs_stepped (h : Stepped s m t) (own : m ≠ .loop) : t.runs.map (·.package) = s.runs.map (·.package) := by
  cases h with
  | alike h => rw [h.runs]
  | run now here => exact Recorded.packages_set here (Run.package_step now _ _)
  | answer result here working => exact Recorded.packages_set here rfl
  | dispatch popped => exact absurd rfl own
  | request | forget | admission | removal | release | select => rfl

/-- What is dispatched is a new run, and no other run comes or goes. -/
theorem runs_step (s : Activities σ) (m : Move) :
    (s.step m).runs.map (·.package) = s.runs.map (·.package) ++ (s.happening? m).toList.filterMap (·.dispatched?) := by
  by_cases hm : m = .loop
  · subst hm
    rcases s.shared.loopStep_cases with ⟨p, scheduler, -, h⟩ | ⟨_, _, _, h⟩ <;>
      simp [step, loop, happening?, h, Happening.dispatched?]
  · have hnone : (s.happening? m).toList.filterMap (·.dispatched?) = [] := by
      cases hx : s.happening? m with
      | none => rfl
      | some x => simp [(dispatched_of_happening hx).resolve_left hm]
    rw [hnone, List.append_nil]
    exact runs_stepped (step_cases s m) hm

theorem runs_after (s : Activities σ) (moves : List Move) :
    (s.after moves).runs.map (·.package) = s.runs.map (·.package) ++ (s.chronicle moves).filterMap (·.dispatched?) := by
  induction moves generalizing s with
  | nil => exact (List.append_nil _).symm
  | cons m moves ih =>
    rw [chronicle, List.filterMap_append, ← List.append_assoc, ← runs_step]
    exact ih (s.step m)

/-! ## Requests -/

/-- The requests that have published a package, in the order of publication. -/
def requests (h : List Happening) : List Nat := (h.filterMap (·.published?)).map Prod.fst

theorem requests_append (h h' : List Happening) : requests (h ++ h') = requests h ++ requests h' := by
  rw [requests, List.filterMap_append, List.map_append, requests, requests]

theorem mem_requests {h : List Happening} {pid : ProcessId} (hp : (i, p) ∈ publications pid h) : i ∈ requests h :=
  List.mem_map_of_mem (List.mem_filter.mp hp).1

/-- Request `i` publishes nothing any more. -/
def Past (s : Activities σ) (i : Nat) : Prop := ∃ a, s.admissions[i]? = some a ∧ a.isPast = true

/-- A request goes on by its own steps only. -/
theorem admission_stepped {a : Admission} (here : s.admissions[i]? = some a) (hm : Stepped s m t) :
    t.admissions[i]? = some a ∨ ∃ now, m = .admission i now ∧ t = s.stepAdmission i a now := by
  cases hm with
  | alike ht => exact Or.inl (ht.admissions ▸ here)
  | request pid date => exact Or.inl ((List.getElem?_append_left (List.getElem?_eq_some_iff.mp here).1).trans here)
  | @admission j now b there =>
    by_cases hj : j = i
    · subst hj
      obtain rfl : a = b := Option.some.inj (here.symm.trans there)
      exact Or.inr ⟨now, rfl, rfl⟩
    · exact Or.inl ((List.getElem?_set_ne hj).trans here)
  | forget | removal | run | answer | dispatch | release | select => exact Or.inl here

theorem getElem?_stepAdmission {a : Admission} (here : s.admissions[i]? = some a) (now : Instant) :
    (s.stepAdmission i a now).admissions[i]? = some (a.step now s.shared).1 :=
  List.getElem?_set_self (List.getElem?_eq_some_iff.mp here).1

/-- What every step of a request keeps is kept by every move. -/
theorem admission_keeps {P : Admission → Prop} (keep : ∀ a now, P a → P (a.step now s.shared).1)
    (h : ∃ a, s.admissions[i]? = some a ∧ P a) (hm : Stepped s m t) : ∃ a, t.admissions[i]? = some a ∧ P a := by
  obtain ⟨a, here, ha⟩ := h
  rcases admission_stepped here hm with hsame | ⟨now, -, rfl⟩
  · exact ⟨a, hsame, ha⟩
  · exact ⟨_, getElem?_stepAdmission here now, keep a now ha⟩

theorem Past.stepped (h : s.Past i) (hm : Stepped s m t) : t.Past i := by
  refine admission_keeps (fun a now past => ?_) h hm
  cases a <;> first | rfl | cases past

/-- A request that publishes a package has published none before, and publishes none after it. -/
theorem past_of_request (h : i ∈ requests (s.happening? m).toList) : ¬ s.Past i ∧ (s.step m).Past i := by
  cases hx : s.happening? m with
  | none =>
    rw [hx] at h
    cases h
  | some x =>
    rw [hx] at h
    rcases happening_cases hx with ⟨j, now, a, rfl, here, hpublished⟩ | ⟨-, p, rfl⟩ | ⟨hnone, -⟩
    · obtain ⟨p, hp, -, before, past⟩ := Admission.publishes hpublished
      obtain rfl : i = j := by simpa [requests, hp] using h
      refine ⟨?_, ?_⟩
      · rintro ⟨b, there, hb⟩
        rw [here, Option.some.injEq] at there
        rw [← there, before] at hb
        cases hb
      · refine ⟨(a.step now s.shared).1, ?_, past⟩
        simp only [step, here, Option.elim_some]
        exact getElem?_stepAdmission here now
    · simp [requests, Happening.published?] at h
    · simp [requests, hnone] at h

theorem Past.after (h : s.Past i) (moves : List Move) : (s.after moves).Past i :=
  after_keep (P := fun t => t.Past i) s h fun t ht m _ => ht.stepped (step_cases t m)

theorem Past.not_mem_requests (h : s.Past i) (moves : List Move) : i ∉ requests (s.chronicle moves) := by
  induction moves generalizing s with
  | nil => exact List.not_mem_nil
  | cons m moves ih =>
    rw [chronicle, requests_append, List.mem_append]
    rintro (hnow | hlater)
    · exact (past_of_request hnow).1 h
    · exact ih (h.stepped (step_cases s m)) hlater

theorem past_of_mem_requests (s : Activities σ) (moves : List Move) (h : i ∈ requests (s.chronicle moves)) :
    (s.after moves).Past i := by
  induction moves generalizing s with
  | nil => cases h
  | cons m moves ih =>
    rw [chronicle, requests_append, List.mem_append] at h
    rcases h with hnow | hlater
    · exact (past_of_request hnow).2.after moves
    · exact ih (s.step m) hlater

/-- No request publishes two packages. -/
theorem nodup_requests (s : Activities σ) (moves : List Move) : (requests (s.chronicle moves)).Nodup := by
  induction moves generalizing s with
  | nil => exact List.nodup_nil
  | cons m moves ih =>
    rw [chronicle, requests_append]
    refine List.nodup_append.mpr ⟨?_, ih (s.step m), fun i hi j hj hij => ?_⟩
    · cases s.happening? m with
      | none => exact List.nodup_nil
      | some x => cases hx : x.published? <;> simp [requests, hx]
    · exact (past_of_request hi).2.not_mem_requests moves (hij ▸ hj)

/-- What a request publishes that was done comes before what a later request publishes. -/
theorem published_before {moves before rest : List Move} (split : moves = before ++ rest)
    {pid : ProcessId} {j k l : Nat}
    {q : Package} (done : (s.after before).Past i) (later : (s.after before).admissions.length ≤ j)
    (hk : (publications pid (s.chronicle moves))[k]? = some (i, p))
    (hl : (publications pid (s.chronicle moves))[l]? = some (j, q)) : k < l := by
  rw [split, chronicle_append, publications_append] at hk hl
  have hk' : k < (publications pid (s.chronicle before)).length := by
    by_contra hge
    rw [List.getElem?_append_right (Nat.le_of_not_lt hge)] at hk
    exact done.not_mem_requests rest (mem_requests (List.mem_of_getElem? hk))
  have hl' : (publications pid (s.chronicle before)).length ≤ l := by
    by_contra hlt
    rw [List.getElem?_append_left (Nat.lt_of_not_le hlt)] at hl
    obtain ⟨a, there, -⟩ := past_of_mem_requests s before (mem_requests (List.mem_of_getElem? hl))
    exact Nat.not_lt.mpr later (List.getElem?_eq_some_iff.mp there).1
  exact Nat.lt_of_lt_of_le hk' hl'

/-! ## The order of the packages -/

/-- What the chronicle of an interleaving has to do with the queues that it leads to. -/
structure Chronicled (s : Activities σ) (moves : List Move) : Prop where
  inLine : Scheduler.InLine (s.chronicle moves) (s.after moves).shared.scheduler
  inOrder : Scheduler.InOrder (s.chronicle moves) (s.after moves).shared.scheduler
  longestFirst : LongestFirst (s.chronicle moves)

theorem chronicled_start (service : Service σ) (fresh : service.shared.scheduler = {}) :
    (ofService service).Chronicled [] := by
  refine ⟨?_, ?_, fun d p hd => by cases hd⟩
  · show Scheduler.InLine [] service.shared.scheduler
    rw [fresh]
    exact .empty
  · show Scheduler.InOrder [] service.shared.scheduler
    rw [fresh]
    exact .empty

theorem Chronicled.concat {moves : List Move} (h : s.Chronicled moves) (apart : (s.after moves).Exclusive) (m : Move) :
    s.Chronicled (moves ++ [m]) := by
  have hpasses := passes_step (s.after moves) m
  have hone : ∀ pid, (s.after moves).shared.scheduler.queuedCount pid ≤ 1 := fun pid =>
    Nat.le_trans (Nat.le_add_right _ _) (apart.2.one pid)
  refine ⟨?_, ?_, ?_⟩ <;> rw [chronicle_concat]
  · rw [after_append]
    exact h.inLine.passes hpasses apart.1
  · rw [after_append]
    exact h.inOrder.passes hpasses hone
  · exact hpasses.longestFirst h.inOrder hone h.longestFirst

theorem chronicled_after {moves : List Move} (own : ∀ m ∈ moves, m.isRelease = false) (h : s.Chronicled [])
    (apart : s.Exclusive) : s.Chronicled moves := by
  induction moves using List.reverseRecOn with
  | nil => exact h
  | append_singleton moves m ih =>
    have howner : ∀ m ∈ moves, m.isRelease = false := fun m hm => own m (List.mem_append_left _ hm)
    exact (ih howner).concat (exclusive_after howner apart) m

/-- Under any interleaving in which a process is released by its own runs only, the packages of a process leave the
queues in the order in which they were published: each that is published is dispatched, is taken out by a removal or
is still there, and none leaves before one that was published earlier. A request that is made when another is done
publishes its package after that one, so its package is dispatched only if the other one has left. The packages of
all processes are dispatched in the order in which they entered the primary queue, where what enters, promoted or
not, stands behind all others. -/
theorem packages_leave_in_order (kind : ServiceKind) (instanceId cores workers : Nat) (logger : Logger)
    (registry : Registry)
    (storage : σ) (moves : List Move) (own : ∀ m ∈ moves, m.isRelease = false) :
    let first := ofService (Service.create kind instanceId cores workers logger registry storage)
    let s := first.after moves
    let h := first.chronicle moves
    h.filterMap (·.dispatched?) = s.runs.map (·.package) ∧
    (∀ pid, (publications pid h).map Prod.snd = (departures pid h).map Prod.snd ++ s.shared.scheduler.lineOf pid) ∧
    (requests h).Nodup ∧
    (∀ before pid date rest, moves = before ++ .request pid date :: rest →
      ∀ i : Nat, (first.after before).admissions[i]? = some .done → ∀ (k l : Nat) (p q : Package),
        (publications pid h)[k]? = some (i, p) →
          (publications pid h)[l]? = some ((first.after before).admissions.length, q) →
          k < l ∧ ((departures pid h)[l]? = some (.dispatched, q) →
            ∃ leaving, (departures pid h)[k]? = some (leaving, p))) ∧
    Scheduler.InOrder h s.shared.scheduler ∧ LongestFirst h ∧
    ∀ e e' d d', DispatchOf h e d → DispatchOf h e' d' → (d < d' ↔ e < e') := by
  intro first s h
  obtain ⟨hline, horder, hfirst⟩ : first.Chronicled moves :=
    chronicled_after own (chronicled_start _ rfl) (exclusive_start _ rfl)
  refine ⟨?_, hline, nodup_requests first moves, ?_, horder, hfirst, fun e e' d d' hd hd' => hd.lt_iff hfirst hd'⟩
  · exact (runs_after first moves).symm
  · intro before pid date rest hmoves i done k l p q hk hl
    have hlt : k < l := published_before hmoves ⟨_, done, rfl⟩ (Nat.le_refl _) hk hl
    refine ⟨hlt, fun hdispatched => ?_⟩
    exact hline.departed hk (Nat.lt_trans hlt (List.getElem?_eq_some_iff.mp hdispatched).1)

/-- A second package of a process waits while a first one runs, a package of another process is queued, and then the run
ends: the second package is promoted behind that of the other process. -/
def overtakenByOther : List Move :=
  secondRequest ++ [.request 2 .epoch] ++ List.replicate 8 (.admission 2 .epoch) ++ List.replicate 5 (.run 0 .epoch) ++
    [.answer 0 (.done none [])] ++ List.replicate 8 (.run 0 .epoch) ++ List.replicate 4 .loop

theorem packages_leave_in_order_of_overtakenByOther :
    (∀ m ∈ overtakenByOther, m.isRelease = false) ∧
      let first := ofService (Service.create .collector 1 4 2 ⟨some soloTable⟩
        (soloRegistry.add ⟨2, 1, true, none⟩) soloLog)
      let h := first.chronicle overtakenByOther
      h = [.queued 0 ⟨1, 1, .epoch, false⟩, .dispatched ⟨1, 1, .epoch, false⟩, .waited 1 ⟨1, 2, .epoch, true⟩,
        .queued 2 ⟨2, 3, .epoch, false⟩, .promoted ⟨1, 2, .epoch, true⟩, .dispatched ⟨2, 3, .epoch, false⟩,
        .dispatched ⟨1, 2, .epoch, true⟩] ∧
      (first.after overtakenByOther).runs.map (·.package) =
        [⟨1, 1, .epoch, false⟩, ⟨2, 3, .epoch, false⟩, ⟨1, 2, .epoch, true⟩] ∧
      (∃ leaving, (departures 1 h)[0]? = some (leaving, ⟨1, 1, .epoch, false⟩)) ∧
      DispatchOf h 3 5 ∧ DispatchOf h 4 6 ∧ LongestFirst h := by
  have own : ∀ m ∈ overtakenByOther, m.isRelease = false := by decide
  have chronicled : (ofService (Service.create .collector 1 4 2 ⟨some soloTable⟩
    (soloRegistry.add ⟨2, 1, true, none⟩)
      soloLog)).chronicle overtakenByOther = [.queued 0 ⟨1, 1, .epoch, false⟩, .dispatched ⟨1, 1, .epoch, false⟩,
        .waited 1 ⟨1, 2, .epoch, true⟩, .queued 2 ⟨2, 3, .epoch, false⟩, .promoted ⟨1, 2, .epoch, true⟩,
        .dispatched ⟨2, 3, .epoch, false⟩, .dispatched ⟨1, 2, .epoch, true⟩] := by decide +kernel
  obtain ⟨runs, -, -, sequential, -, first, -⟩ := packages_leave_in_order .collector 1 4 2 ⟨some soloTable⟩
    (soloRegistry.add ⟨2, 1, true, none⟩) soloLog overtakenByOther own
  have afterFirst := sequential (secondRequest.take 13) 1 .epoch (overtakenByOther.drop 14) rfl 0 rfl 0 1
    ⟨1, 1, .epoch, false⟩ ⟨1, 2, .epoch, true⟩
  rw [chronicled] at runs afterFirst
  refine ⟨own, chronicled, runs.symm, ?_, ?_, ?_, first⟩
  · rw [chronicled]
    exact (afterFirst rfl rfl).2 rfl
  · rw [chronicled]
    exact ⟨_, rfl, rfl, by decide⟩
  · rw [chronicled]
    exact ⟨_, rfl, rfl, by decide⟩

end Activities

end ProcessRuns
