import Mathlib.Data.List.Induction
import ProcessRuns.Proofs.Activities.Courses
import ProcessRuns.Proofs.Activities.Writes

/-! # Log tables

The numbers of registers are unique within a table only, and a package does not know the table of its register. A
request, a removal and a run each take a copy of the service's log once and write to its table from then on. So what
is written for a package goes to its own register exactly if the copy has the table that the package's request had;
if other tables were selected in between, it goes to another register, which may be that of another package. -/

namespace ProcessRuns

/-- The register that was opened for a package. -/
def Ticket.register? (t : Ticket) : Option (LogTable × RegisterId) :=
  t.log.table.map fun table => (table, t.package.registerId)

section
variable {σ : Type} [Storage σ] (now : Instant) {s : Shared σ} {l : Logger}

/-- A request keeps the log that it has, and it takes that of the service. -/
theorem Admission.log_step {a : Admission} (h : (a.step now s).1.log? = some l) :
    a.log? = some l ∨ a.log? = none ∧ s.logger = l := by
  cases a with
  | find pid date =>
    rcases step_find now s pid date with hs | hs <;> rw [hs] at h <;> cases h
  | takeLog pid date => exact Or.inr ⟨rfl, Option.some.inj h⟩
  | openRegister logger pid date =>
    rcases step_openRegister now s logger pid date with ⟨_, _, -, hs⟩ | ⟨_, _, -, hs⟩ <;> rw [hs] at h
    · exact Or.inl h
    · cases h
  | place logger p =>
    rcases step_place now s logger p with ⟨-, hs⟩ | ⟨-, -, hs⟩ | ⟨-, -, hs⟩ <;> rw [hs] at h
    · cases h
    · cases h
    · exact Or.inl h
  | mark logger p => exact Or.inl h
  | wake | announce | done => cases h

theorem Admission.log_of_holds {a : Admission} {p : Package} (h : a.holds? = some (l, p)) : a.log? = some l := by
  cases a <;> cases h <;> rfl

theorem Removal.log_step {r : Removal} (h : (r.step now s).1.log? = some l) :
    r.log? = some l ∨ r.log? = none ∧ s.logger = l := by
  cases r with
  | strip pid =>
    rcases step_strip now s pid with ⟨-, hs⟩ | hs <;> rw [hs] at h <;> cases h
  | takeLog packages => exact Or.inr ⟨rfl, Option.some.inj h⟩
  | close logger count packages =>
    cases packages with
    | nil => cases h
    | cons p packages => exact Or.inl h
  | announce => exact Or.inl h
  | forget | done => cases h

theorem Run.log_step {r : Run} (h : (r.step now s).1.log? = some l) : r.log? = some l ∨ r.log? = none ∧
    s.logger = l := by
  obtain ⟨p, logger, stage⟩ := r
  cases stage with
  | takeLog =>
    have htaken : s.logger = l := by
      cases hq : p.onQueue <;> simpa [step, hq, log?] using h
    exact Or.inr ⟨rfl, htaken⟩
  | check =>
    simp only [step, enter] at h
    split at h <;> exact Or.inl h
  | release e =>
    simp only [step, enter] at h
    split at h <;> exact Or.inl h
  | mark | announce | stampStart | working | stampEnd | explain | close | wake | report | leave | finished =>
    exact Or.inl h

end

namespace Activities

variable {σ : Type} [Storage σ] {first s t : Activities σ} {m : Move} {place : Place} {l : Logger}

/-- An activity that holds a log has it from before, or takes the one of the service. -/
theorem logAt_stepped (hm : Stepped s m t) (h : t.logAt place = some l) :
    s.logAt place = some l ∨ s.logAt place = none ∧ s.shared.logger = l ∧ m.place? = some place := by
  cases hm with
  | alike ht =>
    refine Or.inl ?_
    cases place <;> simpa only [logAt, ht.admissions, ht.removals, ht.runs] using h
  -- Who comes up stands behind all the others of its kind, and has no log yet.
  | request pid date =>
    cases place with
    | admission i => exact Or.inl (bind_of_concat rfl h)
    | _ => exact Or.inl h
  | forget pid =>
    cases place with
    | removal i => exact Or.inl (bind_of_concat rfl h)
    | _ => exact Or.inl h
  | dispatch popped =>
    cases place with
    | run i => exact Or.inl (bind_of_concat rfl h)
    | _ => exact Or.inl h
  | admission now here =>
    cases place with
    | admission j =>
      rcases bind_set_cases here h with ⟨rfl, hlog⟩ | hold
      · simpa only [logAt, here, Option.bind_some, Move.place?, and_true] using Admission.log_step now hlog
      · exact Or.inl hold
    | _ => exact Or.inl h
  | removal now here =>
    cases place with
    | removal j =>
      rcases bind_set_cases here h with ⟨rfl, hlog⟩ | hold
      · simpa only [logAt, here, Option.bind_some, Move.place?, and_true] using Removal.log_step now hlog
      · exact Or.inl hold
    | _ => exact Or.inl h
  | run now here =>
    cases place with
    | run j =>
      rcases bind_set_cases here h with ⟨rfl, hlog⟩ | hold
      · simpa only [logAt, here, Option.bind_some, Move.place?, and_true] using Run.log_step now hlog
      · exact Or.inl hold
    | _ => exact Or.inl h
  | @answer i result r here working =>
    refine Or.inl ?_
    cases place with
    | run j =>
      rcases bind_set_cases here h with ⟨rfl, hlog⟩ | hold
      · have hr : r.log? = some r.logger := by rw [Run.log?, working]
        rw [logAt, here, Option.bind_some, hr]
        exact hlog
      · exact hold
    | _ => exact h
  | release | select => exact Or.inl (by cases place <;> exact h)

/-- An activity took its copy of the log when that of the service was this one. -/
def TookLog (first : Activities σ) (moves : List Move) (place : Place) (l : Logger) : Prop :=
  ∃ done m rest, moves = done ++ m :: rest ∧ m.place? = some place ∧ (first.after done).logAt place = none ∧
    (first.after done).shared.logger = l

theorem TookLog.more {moves : List Move} (h : TookLog first moves place l) (m : Move) :
    TookLog first (moves ++ [m]) place l := by
  obtain ⟨done, taking, rest, rfl, h⟩ := h
  exact ⟨done, taking, rest ++ [m], by rw [List.append_assoc, List.cons_append], h⟩

/-- Whatever log an activity holds, it has taken it. -/
theorem tookLog_after (idle : ∀ place, first.logAt place = none) (moves : List Move)
    (h : (first.after moves).logAt place = some l) : TookLog first moves place l := by
  induction moves using List.reverseRecOn with
  | nil =>
    have hnone := idle place
    rw [show first.logAt place = some l from h] at hnone
    cases hnone
  | append_singleton moves m ih =>
    rw [after_append] at h
    rcases logAt_stepped (step_cases _ m) h with hold | ⟨hnone, hlogger, hm⟩
    · exact (ih hold).more m
    · exact ⟨moves, m, [], rfl, hm, hnone, hlogger⟩

/-! ### The registers of the tickets -/

/-- Whatever register was opened, the request of its ticket has taken the log of the ticket. -/
theorem tookLog_opened (idle : ∀ place, first.logAt place = none) (nothing : first.record.opened = [])
    (moves : List Move) :
    ∀ t ∈ (first.after moves).record.opened, TookLog first moves (.admission t.request) t.log := by
  induction moves using List.reverseRecOn with
  | nil =>
    intro t ht
    have ht : t ∈ first.record.opened := ht
    rw [nothing] at ht
    cases ht
  | append_singleton moves m ih =>
    intro t ht
    rw [after_append] at ht
    rcases opened_stepped (step_cases (first.after moves) m) with
      hsame | ⟨i, logger, pid, date, now, id, here, -, -, hopened⟩
    · have ht : t ∈ ((first.after moves).step m).record.opened := ht
      exact (ih t (hsame ▸ ht)).more m
    · have ht : t ∈ ((first.after moves).step m).record.opened := ht
      rw [hopened] at ht
      rcases List.mem_append.mp ht with ht | ht
      · exact (ih t ht).more m
      · rw [List.mem_singleton.mp ht]
        have hlog : (first.after moves).logAt (.admission i) = some logger := by
          rw [logAt, here]
          rfl
        exact (tookLog_after idle moves hlog).more m

/-- Every register that was opened is in its table, and no two of them are the same. -/
structure Filed [RowStorage σ] (s : Activities σ) : Prop where
  sound : RowStorage.Sound s.shared.storage
  there : ∀ t ∈ s.record.opened, ∃ table, t.log.table = some table ∧
    (RowStorage.rows s.shared.storage table t.package.registerId).isSome
  apart : (s.record.opened.map (·.register?)).Nodup

namespace Filed

variable [RowStorage σ]

theorem stepped (h : s.Filed) (hm : Stepped s m t) : t.Filed := by
  have hcalls := calls_stepped s hm
  have hsound : RowStorage.Sound t.shared.storage := hcalls.keep (fun _ _ => RowStorage.sound) h.sound
  have hkept : ∀ u ∈ s.record.opened, ∃ table, u.log.table = some table ∧
      (RowStorage.rows t.shared.storage table u.package.registerId).isSome := by
    intro u hu
    obtain ⟨table, htable, hrow⟩ := h.there u hu
    refine ⟨table, htable, (hcalls.keep (P := fun storage => RowStorage.Sound storage ∧
      (RowStorage.rows storage table u.package.registerId).isSome) ?_ ⟨h.sound, hrow⟩).2⟩
    exact fun _ _ hs call => ⟨RowStorage.sound hs.1 call, RowStorage.kept hs.1 call hs.2⟩
  rcases opened_stepped hm with hsame | ⟨i, logger, pid, date, now, id, -, hstart, -, hopened⟩
  · exact ⟨hsound, hsame ▸ hkept, hsame ▸ h.apart⟩
  · -- The new register has a number that no register of its table had.
    obtain ⟨table, htable, hinsert⟩ := Logger.start_ok hstart
    obtain ⟨hfree, hrows⟩ := RowStorage.insert_ok h.sound hinsert
    refine ⟨hsound, fun u hu => ?_, ?_⟩
    · rw [hopened] at hu
      rcases List.mem_append.mp hu with hu | hu
      · exact hkept u hu
      · rw [List.mem_singleton.mp hu]
        refine ⟨table, htable, ?_⟩
        rw [hrows, Rows.set, if_pos ⟨rfl, rfl⟩]
        rfl
    · rw [hopened, List.map_append, List.map_singleton, List.nodup_append]
      refine ⟨h.apart, List.nodup_singleton _, ?_⟩
      rintro r hr _ hnew rfl
      obtain ⟨u, hu, hregister⟩ := List.mem_map.mp hr
      obtain ⟨other, hother, hrow⟩ := h.there u hu
      rw [List.mem_singleton.mp hnew, Ticket.register?, Ticket.register?, hother, htable] at hregister
      obtain ⟨rfl, hid⟩ := Prod.mk.inj (Option.some.inj hregister)
      rw [show u.package.registerId = id from hid, hfree] at hrow
      cases hrow

theorem start (service : Service σ) (sound : RowStorage.Sound service.shared.storage) : (ofService service).Filed :=
  ⟨sound, fun _ ht => absurd ht List.not_mem_nil, List.nodup_nil⟩

theorem after (h : s.Filed) (moves : List Move) : (s.after moves).Filed :=
  after_keep (P := Filed) s h fun t ht m _ => ht.stepped (step_cases t m)

theorem eq_of_register (h : s.Filed) {u v : Ticket} (hu : u ∈ s.record.opened) (hv : v ∈ s.record.opened)
    (same : u.register? = v.register?) : u = v :=
  List.inj_on_of_nodup_map h.apart hu hv same

end Filed

/-- Under any interleaving, selections of log tables and failures included, whatever an activity or its job writes
opens a register, or it is written for the package that the activity works for, in the table of the log that the
activity has taken. It goes to the register of the package exactly if that is the table that the package's request
has taken; otherwise, if it goes to a register that was opened at all, it goes to that of another package. -/
theorem writes_follow_the_log_taken {σ : Type} [Storage σ] [RowStorage σ] (kind : ServiceKind)
    (instanceId cores workers : Nat) (logger : Logger) (registry : Registry) {storage : σ}
    (sound : RowStorage.Sound storage)
    (moves : List Move) {m : Move} {place : Place} (hm : m.place? = some place) :
    let first := journaled kind instanceId cores workers logger registry storage
    let s := first.after moves
    ∀ w ∈ s.writesOf m, (∃ table id?, w = .register table .start id?) ∨
      ∃ t l, s.ticketAt place = some t ∧ t.package ∈ s.heldAt place ∧ t.origin ∈ s.record.opened ∧
        s.logAt place = some l ∧ TookLog first moves place l ∧ TookLog first moves (.admission t.request) t.log ∧
        w.target? = l.table.map (fun table => (table, t.package.registerId)) ∧
        (w.target? = t.register? ↔ l.table = t.log.table) ∧
        (∀ i, place = .admission i → l = t.log) ∧
        ∀ u ∈ s.record.opened, w.target? = u.register? → (u = t.origin ↔ l.table = t.log.table) := by
  intro first s w hw
  have idle : ∀ place, first.logAt place = none := fun place => by cases place <;> rfl
  have hrecorded : s.Recorded := recorded_after (recorded_start _ rfl) moves
  have hfiled : s.Filed := after_keep first ⟨sound, fun _ h => absurd h List.not_mem_nil, List.nodup_nil⟩
    fun t ht m _ => ht.stepped (step_cases t m)
  rcases writes_step hrecorded hm hw with hopen | ⟨t, l, ht, hheld, hl, hgoes⟩
  · exact Or.inl hopen
  have horigin := hrecorded.origin_ticketAt ht
  -- Both targets name the register of the package, so they differ in their tables only.
  have hown : w.target? = t.register? ↔ l.table = t.log.table := by
    rw [show w.target? = _ from hgoes, Ticket.register?]
    refine ⟨fun h => ?_, fun h => by rw [h]⟩
    have htables := congrArg (Option.map Prod.fst) h
    rwa [Option.map_map, Option.map_map, show (Prod.fst ∘ fun table => (table, t.package.registerId)) = id from rfl,
      Option.map_id, id, id] at htables
  refine Or.inr ⟨t, l, ht, hheld, horigin, hl, tookLog_after idle moves hl,
    tookLog_opened idle rfl moves t.origin horigin, hgoes, hown, ?_, fun u hu htarget => ?_⟩
  · rintro i rfl
    obtain ⟨a, here, ha⟩ := Option.bind_eq_some_iff.mp ht
    obtain ⟨⟨log, p⟩, hholds, rfl⟩ := Option.map_eq_some_iff.mp ha
    rw [logAt, here, Option.bind_some, Admission.log_of_holds hholds] at hl
    exact (Option.some.inj hl).symm
  · rw [← hown, htarget]
    exact ⟨fun h => h ▸ rfl, fun h => hfiled.eq_of_register hu horigin h⟩

/-- A process is requested; other log tables are selected, and a second process is requested. Then the first one is
removed, up to where its register is closed. -/
def removalAfterSelect : List Move :=
  [.request 1 .epoch] ++ List.replicate 8 (.admission 0 .epoch) ++ [.select "other", .request 2 .epoch] ++
    List.replicate 8 (.admission 1 .epoch) ++ [.forget 1] ++ List.replicate 3 (.removal 0 .epoch)

/-- Where these moves lead. -/
def switched : Activities (Journaled Memory) :=
  (journaled .collector 1 4 2 ⟨some soloTable⟩ (soloRegistry.add ⟨2, 1, true, none⟩) soloLog).after
    removalAfterSelect

/-- The table that is selected in between. -/
def otherTable : LogTable := ⟨"other", by decide⟩

/-- The ticket of the first request. -/
def firstTicket : Ticket := ⟨0, ⟨some soloTable⟩, ⟨1, 1, .epoch, false⟩⟩

/-- The ticket of the second request. -/
def secondTicket : Ticket := ⟨1, ⟨some otherTable⟩, ⟨2, 1, .epoch, false⟩⟩

/-- The removal closes the register of the other process. -/
theorem writes_follow_the_log_taken_of_removalAfterSelect :
    RowStorage.Sound soloLog ∧ (Move.removal 0 .epoch).place? = some (.removal 0) ∧
      switched.record.opened = [firstTicket, secondTicket] ∧ switched.ticketAt (.removal 0) = some firstTicket ∧
      ∃ w ∈ switched.writesOf (.removal 0 .epoch), w = .status otherTable 1 .notExecuted true ∧
        w.target? = secondTicket.register? ∧ w.target? ≠ firstTicket.register? := by
  have opened : Logger.opened "log" ({} : Memory) = (.ok ⟨some soloTable⟩, soloLog) := by rfl
  have sound : RowStorage.Sound soloLog := Logger.sound_opened Memory.sound_empty opened
  have htickets : switched.record.opened = [firstTicket, secondTicket] := by decide +kernel
  have hticket : switched.ticketAt (.removal 0) = some firstTicket := by decide +kernel
  have hw : .status otherTable 1 .notExecuted true ∈ switched.writesOf (.removal 0 .epoch) := by decide +kernel
  refine ⟨sound, rfl, htickets, hticket, _, hw, rfl, rfl, ?_⟩
  rcases writes_follow_the_log_taken .collector 1 4 2 ⟨some soloTable⟩ (soloRegistry.add ⟨2, 1, true, none⟩) sound
    removalAfterSelect (m := .removal 0 .epoch) rfl _ hw with
    ⟨table, id?, hopen⟩ | ⟨t, l, ht, -, -, -, -, -, -, hregister, -, hlast⟩
  · cases hopen
  · have hfirst : t = firstTicket := Option.some.inj (ht.symm.trans hticket)
    have hsecond : secondTicket ∈ switched.record.opened := by
      rw [htickets]
      exact List.mem_cons_of_mem _ List.mem_cons_self
    subst hfirst
    have hother : l.table ≠ some soloTable := fun same => by
      have heq : secondTicket = firstTicket.origin := (hlast secondTicket hsecond rfl).mpr same
      exact absurd heq (by decide)
    exact mt hregister.mp hother

end Activities

end ProcessRuns
