import Mathlib.Logic.Function.Basic
import ProcessRuns.Proofs.Activities.Tickets

/-! # Where the registers are

A register that was opened is at one place at a time: its package is held by the request that opened it, stands
in the queues, is with a run or with a removal, until the removal has closed it. A `Course` is such a place with
what was written to the register on the way; `Placed` ties the courses of all registers to the state, and
`Transferred` is how packages go from one place to another. -/

namespace ProcessRuns

/-- Who has a package. -/
inductive Place where
  | nowhere
  | admission (i : Nat)
  | queues
  | run (i : Nat)
  | removal (i : Nat)
deriving DecidableEq

/-- Where a register is, whether it was marked as queued behind another execution, and what came after that. -/
inductive Course where
  | unopened
  | admitted (i : Nat) (onQueue : Bool)
  | queued (onQueue : Bool)
  | dispatched (i : Nat) (onQueue : Bool)
  /-- The run has marked it as started, if it was marked otherwise. -/
  | started (i : Nat) (onQueue : Bool)
  /-- The run has closed it. -/
  | ended (i : Nat) (onQueue failed : Bool)
  | stripped (i : Nat) (onQueue : Bool)
  /-- The removal has closed it. -/
  | dropped (i : Nat) (onQueue : Bool)
deriving DecidableEq

namespace Course

/-- Who has the package of the register. -/
def place : Course → Place
  | unopened | dropped _ _ => .nowhere
  | admitted i _ => .admission i
  | queued _ => .queues
  | dispatched i _ | started i _ | ended i _ _ => .run i
  | stripped i _ => .removal i

/-- The package waited behind another one when it was let in. -/
def onQueue : Course → Bool
  | unopened => false
  | admitted _ q | queued q | dispatched _ q | started _ q | ended _ q _ | stripped _ q | dropped _ q => q

/-- What a register has had while nobody worked on it. -/
def opening (onQueue : Bool) : List Status := if onQueue then [.start, .onQueue] else [.start]

/-- What a register has had when its job runs. -/
def running (onQueue : Bool) : List Status := if onQueue then [.start, .onQueue, .start] else [.start]

/-- The statuses that were written to the register, oldest first. -/
def history : Course → List Status
  | unopened => []
  | admitted _ q | queued q | dispatched _ q | stripped _ q => opening q
  | started _ q => running q
  | ended _ q failed => running q ++ [if failed then .error else .done]
  | dropped _ q => opening q ++ [.notExecuted]

variable {x : Course}

theorem eq_unopened (h : x.history = []) : x = unopened := by
  cases x with
  | unopened => rfl
  | admitted i q | queued q | dispatched i q | stripped i q | started i q => cases q <;> cases h
  | ended i q failed | dropped i q => simp [history] at h

theorem eq_admitted {i : Nat} (h : x.place = .admission i) : x = admitted i x.onQueue := by
  cases x <;> cases h
  rfl

theorem eq_queued (h : x.place = .queues) : x = queued x.onQueue := by
  cases x <;> cases h
  rfl

theorem eq_stripped {i : Nat} (h : x.place = .removal i) : x = stripped i x.onQueue := by
  cases x <;> cases h
  rfl

end Course

/-- The packages that a request has in hand. -/
def Admission.held (a : Admission) : List Package := (a.holds?.map Prod.snd).toList

/-- The packages that a removal has in hand. -/
def Removal.held : Removal → List Package
  | .takeLog packages | .close _ _ packages | .announce _ _ _ packages => packages
  | _ => []

namespace Activities

variable {σ : Type} {s t : Activities σ} {c c' : RegisterId → Course}

/-- The packages that are in hand at a place. -/
def heldAt (s : Activities σ) : Place → List Package
  | .nowhere => []
  | .admission i => (s.admissions[i]?).elim [] (·.held)
  | .queues => s.shared.scheduler.packages
  | .run i => (s.runs[i]?).elim [] fun r => [r.package]
  | .removal i => (s.removals[i]?).elim [] (·.held)

theorem heldAt_admission {i : Nat} {a : Admission} (here : s.admissions[i]? = some a) :
    s.heldAt (.admission i) = a.held := by
  rw [heldAt, here]
  rfl

theorem heldAt_run {i : Nat} {r : Run} (here : s.runs[i]? = some r) : s.heldAt (.run i) = [r.package] := by
  rw [heldAt, here]
  rfl

theorem heldAt_removal {i : Nat} {r : Removal} (here : s.removals[i]? = some r) : s.heldAt (.removal i) = r.held := by
  rw [heldAt, here]
  rfl

theorem mem_heldAt_admission {i : Nat} {p : Package} (hp : p ∈ s.heldAt (.admission i)) :
    ∃ a, s.admissions[i]? = some a ∧ p ∈ a.held := by
  cases ha : s.admissions[i]? with
  | none =>
    rw [heldAt, ha] at hp
    cases hp
  | some a =>
    rw [heldAt_admission ha] at hp
    exact ⟨a, rfl, hp⟩

theorem mem_heldAt_run {i : Nat} {p : Package} (hp : p ∈ s.heldAt (.run i)) : ∃ r, s.runs[i]? = some r ∧
    p = r.package := by
  cases hr : s.runs[i]? with
  | none =>
    rw [heldAt, hr] at hp
    cases hp
  | some r =>
    rw [heldAt_run hr] at hp
    exact ⟨r, rfl, List.mem_singleton.mp hp⟩

theorem mem_heldAt_removal {i : Nat} {p : Package} (hp : p ∈ s.heldAt (.removal i)) :
    ∃ r, s.removals[i]? = some r ∧ p ∈ r.held := by
  cases hr : s.removals[i]? with
  | none =>
    rw [heldAt, hr] at hp
    cases hp
  | some r =>
    rw [heldAt_removal hr] at hp
    exact ⟨r, rfl, hp⟩

theorem heldAt_congr {place : Place} (admissions : ∀ i, place = .admission i → t.admissions[i]? = s.admissions[i]?)
    (queues : place = .queues → t.shared.scheduler = s.shared.scheduler)
    (runs : ∀ i, place = .run i → t.runs[i]? = s.runs[i]?)
    (removals : ∀ i, place = .removal i → t.removals[i]? = s.removals[i]?) : t.heldAt place = s.heldAt place := by
  cases place with
  | nowhere => rfl
  | admission i => rw [heldAt, heldAt, admissions i rfl]
  | queues => rw [heldAt, heldAt, queues rfl]
  | run i => rw [heldAt, heldAt, runs i rfl]
  | removal i => rw [heldAt, heldAt, removals i rfl]

theorem heldAt_runs_set {place : Place} {i : Nat} {r' : Run} (apart : place ≠ .run i) :
    ({ s with runs := s.runs.set i r' } : Activities σ).heldAt place = s.heldAt place :=
  heldAt_congr (fun _ _ => rfl) (fun _ => rfl) (fun _ hj => List.getElem?_set_ne (by rintro rfl; exact apart hj))
    fun _ _ => rfl

section
variable [Storage σ] {place : Place} {i : Nat}

/-- A step of a request is noticed by the request, and at the queues if it changes them. -/
theorem heldAt_stepAdmission {a : Admission} {now : Instant} (apart : place ≠ .admission i)
    (queues : place = .queues → (a.step now s.shared).2.scheduler = s.shared.scheduler) :
    (s.stepAdmission i a now).heldAt place = s.heldAt place :=
  heldAt_congr (fun _ hj => List.getElem?_set_ne (by rintro rfl; exact apart hj)) queues (fun _ _ => rfl) fun _ _ => rfl

theorem heldAt_stepRemoval {r : Removal} {now : Instant} (apart : place ≠ .removal i)
    (queues : place = .queues → (r.step now s.shared).2.scheduler = s.shared.scheduler) :
    (s.stepRemoval i r now).heldAt place = s.heldAt place :=
  heldAt_congr (fun _ _ => rfl) queues (fun _ _ => rfl) fun _ hj => List.getElem?_set_ne (by rintro rfl; exact apart hj)

end

theorem heldAt_stepRun [Storage σ] {i : Nat} {r : Run} (here : s.runs[i]? = some r) {now : Instant}
    (packages : (r.step now s.shared).2.scheduler.packages.Perm s.shared.scheduler.packages) (place : Place) :
    ((s.stepRun i r now).heldAt place).Perm (s.heldAt place) := by
  have hi := (List.getElem?_eq_some_iff.mp here).1
  by_cases hplace : place = .run i
  · refine .of_eq ?_
    rw [hplace, heldAt_run here, ← r.package_step now s.shared]
    exact heldAt_run (List.getElem?_set_self hi)
  · by_cases hqueues : place = .queues
    · rw [hqueues]
      exact packages
    · exact .of_eq (heldAt_congr (fun _ _ => rfl) (fun hq => absurd hq hqueues)
        (fun j hj => List.getElem?_set_ne (by rintro rfl; exact hplace hj)) fun _ _ => rfl)

/-- Every package is where its register's course says, and every register that is at a place has a package
there. -/
structure Placed (s : Activities σ) (c : RegisterId → Course) : Prop where
  here : ∀ place, ∀ p ∈ s.heldAt place, (c p.registerId).place = place ∧ (c p.registerId).onQueue = p.onQueue
  there : ∀ id, (c id).place ≠ .nowhere → id ∈ (s.heldAt (c id).place).map (·.registerId)
  distinct : ∀ place, ((s.heldAt place).map (·.registerId)).Nodup

namespace Placed

/-- Nobody has got or given a package; courses may have gone on where they are. -/
theorem stay (h : s.Placed c) (held : ∀ place, (t.heldAt place).Perm (s.heldAt place))
    (same : ∀ id, (c' id).place = (c id).place ∧ (c' id).onQueue = (c id).onQueue) : t.Placed c' where
  here place p hp := by
    rw [(same p.registerId).1, (same p.registerId).2]
    exact h.here place p ((held place).mem_iff.mp hp)
  there id hid := by
    rw [(same id).1] at hid ⊢
    exact ((held _).map (·.registerId)).mem_iff.mpr (h.there id hid)
  distinct place := ((held place).map (·.registerId)).nodup_iff.mpr (h.distinct place)

/-- A package is marked where it is. -/
theorem mark (h : s.Placed c) {place : Place} {p p' : Package} (old : s.heldAt place = [p])
    (new : t.heldAt place = [p'])
    (id : p'.registerId = p.registerId) (others : ∀ other, other ≠ place → t.heldAt other = s.heldAt other)
    (marked : (c' p.registerId).place = place ∧ (c' p.registerId).onQueue = p'.onQueue)
    (kept : ∀ id, id ≠ p.registerId → c' id = c id) : t.Placed c' := by
  have hp := h.here place p (old ▸ List.mem_singleton.mpr rfl)
  have hids : ∀ other, (t.heldAt other).map (·.registerId) = (s.heldAt other).map (·.registerId) := fun other => by
    by_cases ho : other = place
    · rw [ho, old, new, List.map_singleton, List.map_singleton, id]
    · rw [others other ho]
  refine ⟨fun other q hq => ?_, fun i hi => ?_, fun other => hids other ▸ h.distinct other⟩
  · by_cases ho : other = place
    · rw [ho, new] at hq
      rw [List.mem_singleton.mp hq, id, ho]
      exact marked
    · rw [others other ho] at hq
      have hother := h.here other q hq
      rw [kept q.registerId fun heq => ho (hother.1.symm.trans (heq ▸ hp.1))]
      exact hother
  · rw [hids]
    by_cases hmarked : i = p.registerId
    · rw [hmarked, marked.1, ← hp.1]
      exact h.there p.registerId (by rw [hp.1]; exact fun hno => by rw [hno] at old; cases old)
    · rw [kept i hmarked] at hi ⊢
      exact h.there i hi

end Placed

/-- Packages go from one place to another; a register is opened or closed where one of the places is nowhere. -/
structure Transferred (s t : Activities σ) (c c' : RegisterId → Course) (packages : List Package)
    (source target : Place) :
    Prop where
  apart : source ≠ target
  ids : (packages.map (·.registerId)).Nodup
  at_source : ∀ p ∈ packages, (c p.registerId).place = source
  given : source ≠ .nowhere → (s.heldAt source).Perm (packages ++ t.heldAt source)
  got : target ≠ .nowhere → (t.heldAt target).Perm (packages ++ s.heldAt target)
  others : ∀ place, place ≠ source → place ≠ target → t.heldAt place = s.heldAt place
  moved : ∀ p ∈ packages, (c' p.registerId).place = target ∧ (c' p.registerId).onQueue = p.onQueue
  kept : ∀ id, id ∉ packages.map (·.registerId) → c' id = c id

namespace Transferred

variable {packages : List Package} {source target place : Place} {p : Package} {id : RegisterId}

theorem id_at_source (h : Transferred s t c c' packages source target) (hid : id ∈ packages.map (·.registerId)) :
    (c id).place = source := by
  obtain ⟨p, hp, rfl⟩ := List.mem_map.mp hid
  exact h.at_source p hp

/-- What stays behind has other registers than what goes. -/
theorem nodup_source (h : Transferred s t c c' packages source target) (hs : s.Placed c) (opened : source ≠ .nowhere) :
    (packages.map (·.registerId) ++ (t.heldAt source).map (·.registerId)).Nodup := by
  rw [← List.map_append]
  exact ((h.given opened).map (·.registerId)).nodup_iff.mp (hs.distinct source)

/-- A package that is somewhere afterwards has gone to the target, or it has stayed where it was. -/
theorem mem_cases (h : Transferred s t c c' packages source target) (hs : s.Placed c) (hp : p ∈ t.heldAt place) :
    (place = target ∧ p ∈ packages) ∨ (p ∈ s.heldAt place ∧ p.registerId ∉ packages.map (·.registerId)) := by
  -- A package that was there before has its register there, so it has not gone unless this is the source.
  have stayed : place ≠ source → p ∈ s.heldAt place → p.registerId ∉ packages.map (·.registerId) := by
    intro hsource hold hid
    exact hsource ((hs.here place p hold).1.symm.trans (h.id_at_source hid))
  by_cases hno : place = .nowhere
  · rw [hno] at hp
    cases hp
  by_cases hsource : place = source
  · subst hsource
    refine Or.inr ⟨(h.given hno).mem_iff.mpr (List.mem_append_right _ hp), fun hid => ?_⟩
    exact (List.nodup_append.mp (h.nodup_source hs hno)).2.2 _ hid _ (List.mem_map_of_mem hp) rfl
  by_cases htarget : place = target
  · subst htarget
    rcases List.mem_append.mp ((h.got hno).mem_iff.mp hp) with hnew | hold
    · exact Or.inl ⟨rfl, hnew⟩
    · exact Or.inr ⟨hold, stayed hsource hold⟩
  · have hold : p ∈ s.heldAt place := h.others place hsource htarget ▸ hp
    exact Or.inr ⟨hold, stayed hsource hold⟩

theorem here (h : Transferred s t c c' packages source target) (hs : s.Placed c) (hp : p ∈ t.heldAt place) :
    (c' p.registerId).place = place ∧ (c' p.registerId).onQueue = p.onQueue := by
  rcases h.mem_cases hs hp with ⟨rfl, hmoved⟩ | ⟨hold, hid⟩
  · exact h.moved p hmoved
  · rw [h.kept _ hid]
    exact hs.here place p hold

theorem there (h : Transferred s t c c' packages source target) (hs : s.Placed c) (hid : (c' id).place ≠ .nowhere) :
    id ∈ (t.heldAt (c' id).place).map (·.registerId) := by
  by_cases hmoved : id ∈ packages.map (·.registerId)
  · obtain ⟨p, hp, rfl⟩ := List.mem_map.mp hmoved
    rw [(h.moved p hp).1] at hid ⊢
    exact List.mem_map_of_mem ((h.got hid).mem_iff.mpr (List.mem_append_left _ hp))
  · rw [h.kept id hmoved] at hid ⊢
    obtain ⟨p, hp, rfl⟩ := List.mem_map.mp (hs.there id hid)
    refine List.mem_map_of_mem ?_
    by_cases hsource : (c p.registerId).place = source
    · rw [hsource] at hp hid ⊢
      exact (List.mem_append.mp ((h.given hid).mem_iff.mp hp)).resolve_left fun hp => hmoved (List.mem_map_of_mem hp)
    · by_cases htarget : (c p.registerId).place = target
      · rw [htarget] at hp hid ⊢
        exact (h.got hid).mem_iff.mpr (List.mem_append_right _ hp)
      · rw [h.others _ hsource htarget]
        exact hp

theorem distinct (h : Transferred s t c c' packages source target) (hs : s.Placed c) (place : Place) :
    ((t.heldAt place).map (·.registerId)).Nodup := by
  by_cases hno : place = .nowhere
  · rw [hno]
    exact List.nodup_nil
  by_cases htarget : place = target
  · subst htarget
    refine ((h.got hno).map (·.registerId)).nodup_iff.mpr ?_
    rw [List.map_append]
    refine List.nodup_append.mpr ⟨h.ids, hs.distinct place, ?_⟩
    rintro id hid _ hold rfl
    obtain ⟨p, hp, rfl⟩ := List.mem_map.mp hold
    exact h.apart ((h.id_at_source hid).symm.trans (hs.here place p hp).1)
  by_cases hsource : place = source
  · subst hsource
    exact (List.nodup_append.mp (h.nodup_source hs hno)).2.1
  · rw [h.others place hsource htarget]
    exact hs.distinct place

theorem placed (h : Transferred s t c c' packages source target) (hs : s.Placed c) : t.Placed c' where
  here _ _ hp := h.here hs hp
  there _ hid := h.there hs hid
  distinct := h.distinct hs

end Transferred

/-- One package goes from one place to another. -/
theorem Placed.transfer (h : s.Placed c) {p : Package} {x : Course} {source : Place} (apart : source ≠ x.place)
    (at_source : (c p.registerId).place = source) (onQueue : x.onQueue = p.onQueue)
    (given : source ≠ .nowhere → (s.heldAt source).Perm (p :: t.heldAt source))
    (got : x.place ≠ .nowhere → (t.heldAt x.place).Perm (p :: s.heldAt x.place))
    (others : ∀ place, place ≠ source → place ≠ x.place → t.heldAt place = s.heldAt place) :
    t.Placed (Function.update c p.registerId x) := by
  have go : Transferred s t c (Function.update c p.registerId x) [p] source x.place := by
    refine ⟨apart, List.nodup_singleton _, ?_, given, got, others, ?_, ?_⟩
    · intro q hq
      rwa [List.mem_singleton.mp hq]
    · intro q hq
      rw [List.mem_singleton.mp hq, Function.update_self]
      exact ⟨rfl, onQueue⟩
    · intro id hid
      rw [List.map_singleton, List.mem_singleton] at hid
      exact Function.update_of_ne hid _ _
  exact go.placed h

end Activities

end ProcessRuns
