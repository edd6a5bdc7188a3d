import ProcessRuns.Proofs.Activities.LateRequests
import ProcessRuns.Proofs.Activities.LogTables
import ProcessRuns.Proofs.Activities.Releases
import ProcessRuns.Proofs.Activities.Wakeups
import ProcessRuns.Proofs.Log.Journal
import ProcessRuns.Proofs.Schedule.Dates

/-! # Reprocessings

A reprocessing requests a process for each of the dates between two instants, oldest first, and goes on to the next date
when the request for the last one is over. Others work on in the meantime: packages are dispatched and runs end between
two dates and in the middle of a request. As long as nobody else requests the process or forgets it, each date gets one
register and one package behind all that was pending, and the packages leave in the order of their dates. -/

namespace ProcessRuns

/-! ## Who is at work on a process -/

/-- The process for which the request may still publish a package. -/
def Admission.aim? : Admission → Option ProcessId
  | .find pid _ | .takeLog pid _ | .openRegister _ pid _ => some pid
  | .place _ p | .mark _ p => some p.processId
  | .wake _ | .announce _ _ | .done => none

/-- The process whose packages the removal may still take out. -/
def Removal.aim? : Removal → Option ProcessId
  | .forget pid | .strip pid => some pid
  | _ => none

/-- Neither requests the process nor touches its definition, and leaves the log tables as they are selected. -/
def Move.spares (pid : ProcessId) : Move → Bool
  | .request other _ | .forget other | .undefine other => other ≠ pid
  | .define p => p.id ≠ pid
  | .disown | .select _ => false
  | _ => true

/-- What a request reads: the process, the instance that runs it, and the log. -/
def Shared.sight {σ : Type} (s : Shared σ) (pid : ProcessId) : Option ProcessDefinition × Nat × Logger :=
  (s.find? pid, s.instanceId, s.logger)

section
variable {σ : Type} {a : Admission} {r : Removal} {pid : ProcessId} {now : Instant} {s : Shared σ}

theorem Shared.SameSettings.sight {t : Shared σ} (h : s.SameSettings t) (pid : ProcessId) :
    t.sight pid = s.sight pid := by
  simp only [Shared.sight, find?, h.instanceId, h.registry, h.owned, h.logger]

theorem Shared.find?_remove (s : Shared σ) {other : ProcessId} (h : pid ≠ other) :
    ({ s with registry := s.registry.remove other } : Shared σ).find? pid = s.find? pid := by
  simp only [find?, Registry.find?, Registry.remove]
  rw [Keyed.get?_erase_of_ne _ h]

theorem Admission.aim?_of_onWay (h : a.onWay? = some pid) : a.aim? = some pid := by
  cases a <;> first | exact h | cases h

variable [Storage σ]

theorem Admission.aim?_of_step (h : (a.step now s).1.aim? = some pid) : a.aim? = some pid := by
  cases a with
  | find other date =>
    rcases step_find now s other date with hs | hs <;> rw [hs] at h
    · exact h
    · cases h
  | openRegister logger other date =>
    rcases step_openRegister now s logger other date with ⟨_, _, -, hs⟩ | ⟨_, _, -, hs⟩ <;> rw [hs] at h
    · exact h
    · cases h
  | place logger p =>
    rcases step_place now s logger p with ⟨-, hs⟩ | ⟨-, -, hs⟩ | ⟨-, -, hs⟩ <;> rw [hs] at h
    · cases h
    · cases h
    · exact h
  | takeLog | mark => exact h
  | wake | announce | done => cases h

theorem Removal.aim?_of_step (h : (r.step now s).1.aim? = some pid) : r.aim? = some pid := by
  cases r with
  | forget => exact h
  | strip other => rcases step_strip now s other with ⟨-, hs⟩ | hs <;> rw [hs] at h <;> cases h
  | close logger count packages => cases packages <;> cases h
  | takeLog | announce | done => cases h

/-- A removal hides its own process only. -/
theorem Removal.sight_step (spared : r.aim? ≠ some pid) (now : Instant) (s : Shared σ) :
    (r.step now s).2.sight pid = s.sight pid := by
  cases r with
  | forget other =>
    have hne : pid ≠ other := fun h => spared (congrArg some h.symm)
    exact congrArg (·, s.instanceId, s.logger) (s.find?_remove hne)
  | strip | takeLog | close | announce | done =>
    exact (sameSettings_step (fun _ => Removal.noConfusion) now s).sight pid

end

namespace Activities

section
variable {σ : Type}

/-- The process is registered and owned, its registers go to the table, and nobody but request `j` is at work on it. -/
structure Undisturbed (s : Activities σ) (pid : ProcessId) (table : LogTable) (j : Nat) : Prop where
  found : ∃ p, s.shared.find? pid = some p ∧ s.shared.owns p = true
  logger : s.shared.logger = ⟨some table⟩
  requests : ∀ (i : Nat) (a : Admission), s.admissions[i]? = some a → a.aim? = some pid → i = j
  removals : ∀ r ∈ s.removals, r.aim? ≠ some pid

/-- Request `j` is over, so that nobody at all is at work on the process. -/
theorem Undisturbed.ended {s : Activities σ} {pid : ProcessId} {table : LogTable} {j : Nat}
    (h : s.Undisturbed pid table j)
    (done : s.admissions[j]? = some .done) (k : Nat) : s.Undisturbed pid table k where
  found := h.found
  logger := h.logger
  requests i a here aim := by
    obtain rfl := h.requests i a here aim
    rw [done, Option.some.injEq] at here
    rw [← here] at aim
    cases aim
  removals := h.removals

end

variable {σ : Type} [Storage σ] {s t u : Activities σ} {m : Move} {pid : ProcessId} {table : LogTable} {i j : Nat}

theorem sight_step (spared : m.spares pid = true) (removals : ∀ r ∈ s.removals, r.aim? ≠ some pid) :
    (s.step m).shared.sight pid = s.shared.sight pid := by
  cases m with
  -- Definitions of other processes, and their removal, leave the entry of this one.
  | define p =>
    have hne : pid ≠ p.id := Ne.symm (of_decide_eq_true spared)
    refine congrArg (·, s.shared.instanceId, s.shared.logger) ?_
    simp only [Activities.step, Shared.find?, Registry.find?, Registry.add]
    rw [Keyed.get?_set_of_ne _ _ hne]
    rfl
  | undefine other =>
    have hne : pid ≠ other := Ne.symm (of_decide_eq_true spared)
    exact congrArg (·, s.shared.instanceId, s.shared.logger) (s.shared.find?_remove hne)
  | admission i now =>
    simp only [Activities.step]
    cases s.admissions[i]? with
    | none => rfl
    | some a => exact (a.sameSettings_step now s.shared).sight pid
  -- Of the activities only a removal touches the registry, and none is about this process.
  | removal i now =>
    simp only [Activities.step]
    cases here : s.removals[i]? with
    | none => rfl
    | some r => exact Removal.sight_step (removals r (List.mem_of_getElem? here)) now s.shared
  | run i now =>
    simp only [Activities.step]
    cases s.runs[i]? with
    | none => rfl
    | some r => exact (r.sameSettings_step now s.shared).sight pid
  | act i action now =>
    simp only [Activities.step]
    cases s.runs[i]? with
    | none => rfl
    | some r =>
      obtain ⟨_, -, hact⟩ := r.context.perform_snd now action s.shared
      simp only [Option.elim_some, act]
      split
      · rw [hact]
        rfl
      · rfl
  | answer i result =>
    simp only [Activities.step]
    cases s.runs[i]? <;> rfl
  | loop =>
    have hshared : s.loop.shared = s.shared.loopStep.2 := by
      unfold loop
      split <;> rename_i hloop <;> rw [hloop]
    rw [Activities.step, hshared]
    exact s.shared.sameSettings_loopStep.sight pid
  | launch =>
    simp only [Activities.step, launch]
    split <;> rfl
  | halt => exact s.shared.sameSettings_loopStop.sight pid
  | nudge =>
    simp only [Activities.step, nudge]
    split
    · rfl
    · exact s.shared.sameSettings_wake.sight pid
  | outside context action now =>
    obtain ⟨_, -, hact⟩ := context.perform_snd now action s.shared
    rw [Activities.step, hact]
    rfl
  | disown | select => cases spared
  | request | forget | release | lookUp | resize | withdraw => rfl

theorem unremoved_stepped (hm : Stepped s m t) (removals : ∀ r ∈ s.removals, r.aim? ≠ some pid)
    (stays : m ≠ .forget pid) :
    ∀ r ∈ t.removals, r.aim? ≠ some pid := by
  cases hm with
  | alike ht =>
    rw [ht.removals]
    exact removals
  | forget other =>
    refine Orderly.of_concat removals fun haim => stays ?_
    rw [Option.some.inj haim]
  | removal now here =>
    refine Orderly.of_set removals fun haim => ?_
    exact removals _ (List.mem_of_getElem? here) (Removal.aim?_of_step haim)
  | request | admission | run | answer | dispatch | release | select => exact removals

theorem not_forget_of_spares (spared : m.spares pid = true) : m ≠ .forget pid := by
  rintro rfl
  exact of_decide_eq_true spared rfl

namespace Undisturbed

theorem requests_stepped (h : s.Undisturbed pid table j) (hm : Stepped s m t) (spared : m.spares pid = true) :
    ∀ (i : Nat) (a : Admission), t.admissions[i]? = some a → a.aim? = some pid → i = j := by
  intro i a here aim
  cases hm with
  | alike ht => exact h.requests i a (ht.admissions ▸ here) aim
  | request other date =>
    rcases getElem?_concat_cases here with ⟨-, rfl⟩ | here
    · exact absurd (Option.some.inj aim) (of_decide_eq_true spared)
    · exact h.requests i a here aim
  | @admission k now b there =>
    rcases getElem?_set_cases there here with ⟨rfl, rfl⟩ | ⟨-, here⟩
    · exact h.requests _ b there (Admission.aim?_of_step aim)
    · exact h.requests i a here aim
  | forget | removal | run | answer | dispatch | release | select => exact h.requests i a here aim

theorem step (h : s.Undisturbed pid table j) (spared : m.spares pid = true) : (s.step m).Undisturbed pid table j := by
  have hsight := sight_step spared h.removals
  have hinstance : (s.step m).shared.instanceId = s.shared.instanceId := congrArg (·.2.1) hsight
  obtain ⟨p, hfind, howns⟩ := h.found
  refine ⟨⟨p, (congrArg Prod.fst hsight).trans hfind, ?_⟩, (congrArg (·.2.2) hsight).trans h.logger, ?_, ?_⟩
  · rw [Shared.owns, hinstance]
    exact howns
  · exact h.requests_stepped (step_cases s m) spared
  · exact unremoved_stepped (step_cases s m) h.removals (not_forget_of_spares spared)

/-- The first request for the process is made. -/
theorem request (h : s.Undisturbed pid table s.admissions.length) (date : Instant) :
    (s.step (.request pid date)).Undisturbed pid table s.admissions.length where
  found := h.found
  logger := h.logger
  requests i a here aim := by
    rcases getElem?_concat_cases here with ⟨hi, -⟩ | here
    · exact hi
    · exact h.requests i a here aim
  removals := h.removals

end Undisturbed

/-! ## Registers -/

/-- The registers that were opened for the process, from one state to another, are those of the tickets, in this order;
they have numbers of the table that ascend, above all that the table had. -/
structure Opens [RowStorage σ] (s t : Activities σ) (pid : ProcessId) (table : LogTable)
    (tickets : List Ticket) : Prop where
  opened : (t.record.opened.filter fun u => u.package.processId = pid) =
    (s.record.opened.filter fun u => u.package.processId = pid) ++ tickets.map (·.origin)
  log : ∀ u ∈ tickets, u.log = ⟨some table⟩
  last : ∀ u ∈ tickets, ∀ id, (RowStorage.rows s.shared.storage table id).isSome → id < u.package.registerId
  ascending : (tickets.map (·.package.registerId)).Pairwise (· < ·)

namespace Opens

variable [RowStorage σ] {tickets more : List Ticket} {v : Ticket}

theorem refl (s : Activities σ) (pid : ProcessId) (table : LogTable) : Opens s s pid table [] where
  opened := (List.append_nil _).symm
  log _ hv := absurd hv List.not_mem_nil
  last _ hv := absurd hv List.not_mem_nil
  ascending := .nil

theorem of_same (h : Opens s t pid table tickets) (same : (u.record.opened.filter fun u => u.package.processId = pid) =
    t.record.opened.filter fun u => u.package.processId = pid) : Opens s u pid table tickets :=
  { h with opened := same.trans h.opened }

theorem trans (h : Opens s t pid table tickets) (h' : Opens t u pid table more)
    (kept : ∀ id, (RowStorage.rows s.shared.storage table id).isSome →
      (RowStorage.rows t.shared.storage table id).isSome)
    (there : ∀ u ∈ tickets, (RowStorage.rows t.shared.storage table u.package.registerId).isSome) :
    Opens s u pid table (tickets ++ more) where
  opened := by rw [h'.opened, h.opened, List.append_assoc, List.map_append]
  log v hv := (List.mem_append.mp hv).elim (h.log v) (h'.log v)
  last v hv id hid := (List.mem_append.mp hv).elim (fun hv => h.last v hv id hid) fun hv =>
    h'.last v hv id (kept id hid)
  ascending := by
    rw [List.map_append]
    refine List.pairwise_append.mpr ⟨h.ascending, h'.ascending, ?_⟩
    intro id hid id' hid'
    obtain ⟨v, hv, rfl⟩ := List.mem_map.mp hid
    obtain ⟨w, hw, rfl⟩ := List.mem_map.mp hid'
    exact h'.last w hw _ (there v hv)

/-- The registers are in the table. -/
theorem there (h : Opens s t pid table tickets) (filed : t.Filed) :
    ∀ u ∈ tickets, (RowStorage.rows t.shared.storage table u.package.registerId).isSome := by
  intro v hv
  have hopened : v.origin ∈ t.record.opened.filter fun u => u.package.processId = pid := by
    rw [h.opened]
    exact List.mem_append_right _ (List.mem_map_of_mem hv)
  obtain ⟨other, hlog, hrow⟩ := filed.there _ (List.mem_filter.mp hopened).1
  have hsame : some table = some other := (congrArg Logger.table (h.log v hv)).symm.trans hlog
  rw [Option.some.inj hsame]
  exact hrow

/-- The package of the only ticket may be marked. -/
theorem remark {l : Logger} {p : Package} (h : Opens s t pid table [⟨j, l, p⟩]) :
    Opens s t pid table [⟨j, l, { p with onQueue := true }⟩] where
  opened := h.opened
  log v hv := by
    rw [List.mem_singleton.mp hv]
    exact h.log ⟨j, l, p⟩ List.mem_cons_self
  last v hv := by
    rw [List.mem_singleton.mp hv]
    exact h.last ⟨j, l, p⟩ List.mem_cons_self
  ascending := List.pairwise_singleton _ _

end Opens

/-! ## One request -/

/-- What a request for a date that began in state `s` has brought about by now, by the stage that it has reached; `h` is
what has happened to packages since. -/
def Stands [RowStorage σ] (s t : Activities σ) (h : List Happening) (pid : ProcessId) (date : Instant)
    (table : LogTable)
    (j : Nat) : Admission → Prop
  | .find id d | .takeLog id d => (id = pid ∧ d = date) ∧ Opens s t pid table [] ∧ publications pid h = []
  | .openRegister l id d =>
    l = ⟨some table⟩ ∧ (id = pid ∧ d = date) ∧ Opens s t pid table [] ∧ publications pid h = []
  | .place l p | .mark l p =>
    (p.processId = pid ∧ p.executionDate = date) ∧ Opens s t pid table [⟨j, l, p⟩] ∧ publications pid h = []
  | .wake _ | .announce _ _ | .done =>
    ∃ l p, p.executionDate = date ∧ Opens s t pid table [⟨j, l, p⟩] ∧ publications pid h = [(j, p)]

section
variable [RowStorage σ] {h h' : List Happening} {date : Instant} {a : Admission}

/-- Others have done what the process does not notice. -/
theorem Stands.of_same (hs : Stands s t h pid date table j a)
    (opened : (u.record.opened.filter fun u => u.package.processId = pid) =
      t.record.opened.filter fun u => u.package.processId = pid)
    (published : publications pid h' = publications pid h) : Stands s u h' pid date table j a := by
  cases a with
  | find | takeLog => exact ⟨hs.1, hs.2.1.of_same opened, published.trans hs.2.2⟩
  | openRegister => exact ⟨hs.1, hs.2.1, hs.2.2.1.of_same opened, published.trans hs.2.2.2⟩
  | place | mark => exact ⟨hs.1, hs.2.1.of_same opened, published.trans hs.2.2⟩
  | wake | announce | done =>
    obtain ⟨l, p, hdate, hopens, hpublished⟩ := hs
    exact ⟨l, p, hdate, hopens.of_same opened, published.trans hpublished⟩

end

/-- A move that is not the request's own opens no register for the process and publishes nothing of it. -/
theorem Undisturbed.others {a : Admission} (h : s.Undisturbed pid table j) (here : s.admissions[j]? = some a)
    (still : (s.step m).admissions[j]? = some a) :
    (((s.step m).record.opened.filter fun u => u.package.processId = pid) =
      s.record.opened.filter fun u => u.package.processId = pid) ∧ publications pid (s.happening? m).toList = [] := by
  constructor
  · rcases opened_stepped (step_cases s m) with hsame | ⟨i, logger, other, date, now, id, there, -, hset, hopened⟩
    · rw [hsame]
    · have hother : other ≠ pid := by
        rintro rfl
        obtain rfl := h.requests i _ there rfl
        rw [hset, List.getElem?_set_self (List.getElem?_eq_some_iff.mp there).1] at still
        rw [here, ← still] at there
        cases there
      simp [hopened, hother]
  · refine List.eq_nil_iff_forall_not_mem.mpr ?_
    rintro ⟨k, p⟩ hp
    obtain ⟨hp, hpid⟩ := List.mem_filter.mp hp
    obtain ⟨x, hx, hpublished⟩ := List.mem_filterMap.mp hp
    obtain rfl : p.processId = pid := of_decide_eq_true hpid
    rcases happening_cases (Option.mem_toList.mp hx) with ⟨i, now, b, rfl, there, hhappens⟩ |
      ⟨-, q, rfl⟩ | ⟨hnone, -⟩
    · obtain ⟨-, hway, -⟩ := Admission.onWay?_of_happening hhappens hpublished
      obtain rfl := h.requests i b there (Admission.aim?_of_onWay hway)
      obtain ⟨-, -, -, hbefore, hafter⟩ := Admission.publishes hhappens
      obtain rfl : a = b := Option.some.inj (here.symm.trans there)
      simp only [Activities.step, there, Option.elim_some] at still
      rw [getElem?_stepAdmission there, Option.some.injEq] at still
      rw [still, hbefore] at hafter
      cases hafter
    · cases hpublished
    · rw [hnone] at hpublished
      cases hpublished

section
variable {σ : Type} [Storage σ] [RowStorage σ] {s t : Activities (Journaled σ)} {m : Move} {pid : ProcessId}
    {date : Instant}
  {table : LogTable} {j : Nat} {h : List Happening} {a : Admission} {now : Instant}

/-- A request that began in state `s` and that nobody disturbs. -/
structure Requesting (s t : Activities (Journaled σ)) (h : List Happening) (pid : ProcessId) (date : Instant)
    (table : LogTable)
    (j : Nat) : Prop where
  calm : t.Undisturbed pid table j
  sound : RowStorage.Sound s.shared.storage
  calls : Storage.Calls s.shared.storage t.shared.storage
  stands : ∃ a, t.admissions[j]? = some a ∧ Stands s t h pid date table j a

theorem publications_nothing : publications pid (h ++ (none : Option Happening).toList) = publications pid h := by
  rw [Option.toList_none, List.append_nil]

theorem publications_queued {p : Package} (hp : p.processId = pid) (none : publications pid h = []) :
    publications pid (h ++ (some (.queued j p) : Option Happening).toList) = [(j, p)] ∧
      publications pid (h ++ (some (.waited j p) : Option Happening).toList) = [(j, p)] := by
  constructor <;> rw [publications_append, none] <;> simp [publications, Happening.published?, hp]

/-- The storage does not fail, so that the register is opened, with a number above all that the table has. -/
theorem Requesting.opens [AscendingStorage σ] (hr : Requesting s t h pid date table j) (opens : Opens s t pid table [])
    (unfailed : (t.stepAdmission j (.openRegister ⟨some table⟩ pid date) now).shared.storage.failures =
      t.shared.storage.failures) :
    ∃ id, (Admission.openRegister ⟨some table⟩ pid date).step now t.shared =
        (.place ⟨some table⟩ ⟨pid, id, date, false⟩,
          (t.stepAdmission j (.openRegister ⟨some table⟩ pid date) now).shared) ∧
      Opens s (t.stepAdmission j (.openRegister ⟨some table⟩ pid date) now) pid table
        [⟨j, ⟨some table⟩, ⟨pid, id, date, false⟩⟩] := by
  have hsound : RowStorage.Sound t.shared.storage := hr.calls.keep (fun _ _ => RowStorage.sound) hr.sound
  rcases Admission.step_openRegister now t.shared ⟨some table⟩ pid date with ⟨id, storage, hstart, hstep⟩ |
    ⟨e, storage, hstart, hstep⟩
  · have hinsert := (Logger.start_apply _ _ rfl pid now).symm.trans hstart
    refine ⟨id, by rw [stepAdmission, hstep], ?_⟩
    rw [stepAdmission, hstep]
    refine ⟨?_, by simp, ?_, List.pairwise_singleton _ _⟩
    · have hopened := opens.opened
      rw [List.map_nil, List.append_nil] at hopened
      simp [Record.admitted, hopened, Ticket.origin]
    · intro v hv other there
      rw [List.mem_singleton.mp hv]
      exact AscendingStorage.insert_last hsound hinsert other (RowStorage.there_after hr.calls hr.sound there)
  · have hinsert := (Logger.start_apply _ _ rfl pid now).symm.trans hstart
    rw [stepAdmission, hstep] at unfailed
    obtain ⟨id, hid⟩ := Journaled.insert_unfailed ((congrArg (·.2.failures) hinsert).trans unfailed)
    rw [hinsert] at hid
    cases hid

/-- The request goes on by a step of its own. -/
theorem Requesting.own [AscendingStorage σ] (hr : Requesting s t h pid date table j) (here : t.admissions[j]? = some a)
    (stands : Stands s t h pid date table j a)
    (unfailed : (t.stepAdmission j a now).shared.storage.failures = t.shared.storage.failures) :
    Stands s (t.stepAdmission j a now) (h ++ (a.happening? j (a.step now t.shared).1).toList) pid date table j
      (a.step now t.shared).1 := by
  cases a with
  | find id d =>
    obtain ⟨⟨rfl, rfl⟩, hopens, hpublished⟩ := stands
    obtain ⟨p, hfind, howns⟩ := hr.calm.found
    have hstep : (Admission.find id d).step now t.shared = (.takeLog id d, t.shared) := by
      simp only [Admission.step, hfind, howns, if_true]
    rw [stepAdmission, hstep]
    exact ⟨⟨rfl, rfl⟩, hopens.of_same rfl, publications_nothing.trans hpublished⟩
  | takeLog id d =>
    obtain ⟨⟨rfl, rfl⟩, hopens, hpublished⟩ := stands
    exact ⟨hr.calm.logger, ⟨rfl, rfl⟩, hopens.of_same rfl, publications_nothing.trans hpublished⟩
  | openRegister l id d =>
    obtain ⟨rfl, ⟨rfl, rfl⟩, hopens, hpublished⟩ := stands
    obtain ⟨register, hstep, hopened⟩ := hr.opens hopens unfailed
    rw [hstep]
    exact ⟨⟨rfl, rfl⟩, hopened, publications_nothing.trans hpublished⟩
  | place l p =>
    obtain ⟨⟨hpid, hdate⟩, hopens, hpublished⟩ := stands
    obtain ⟨hqueued, hwaited⟩ := publications_queued (j := j) hpid hpublished
    rcases Admission.step_place now t.shared l p with ⟨-, hstep⟩ | ⟨-, -, hstep⟩ | ⟨-, -, hstep⟩ <;>
      rw [stepAdmission, hstep]
    · exact ⟨l, p, hdate, hopens.of_same rfl, hqueued⟩
    · exact ⟨l, p, hdate, hopens.of_same rfl, hwaited⟩
    · exact ⟨⟨hpid, hdate⟩, hopens.of_same rfl, publications_nothing.trans hpublished⟩
  | mark l p =>
    obtain ⟨⟨hpid, hdate⟩, hopens, hpublished⟩ := stands
    exact ⟨⟨hpid, hdate⟩, hopens.remark.of_same rfl, publications_nothing.trans hpublished⟩
  | wake | announce | done =>
    obtain ⟨l, p, hdate, hopens, hpublished⟩ := stands
    exact ⟨l, p, hdate, hopens.of_same rfl, publications_nothing.trans hpublished⟩

theorem Requesting.step [AscendingStorage σ] (hr : Requesting s t h pid date table j) (spared : m.spares pid = true)
    (unfailed : (t.step m).shared.storage.failures = t.shared.storage.failures) :
    Requesting s (t.step m) (h ++ (t.happening? m).toList) pid date table j := by
  obtain ⟨a, here, stands⟩ := hr.stands
  refine ⟨hr.calm.step spared, hr.sound, hr.calls.trans (calls_stepped t (step_cases t m)), ?_⟩
  rcases admission_stepped here (step_cases t m) with hstill | ⟨now, rfl, hown⟩
  · obtain ⟨hopened, hnothing⟩ := hr.calm.others here hstill
    refine ⟨a, hstill, stands.of_same hopened ?_⟩
    rw [publications_append, hnothing, List.append_nil]
  · have hhappening : t.happening? (.admission j now) = a.happening? j (a.step now t.shared).1 := by
      rw [happening?, here, Option.bind_some]
    rw [hown] at unfailed ⊢
    rw [hhappening]
    exact ⟨_, getElem?_stepAdmission here now, hr.own here stands unfailed⟩

theorem Requesting.after [AscendingStorage σ] {work : List Move} (hr : Requesting s t h pid date table j)
    (spared : ∀ m ∈ work, m.spares pid = true)
    (unfailed : (t.after work).shared.storage.failures = t.shared.storage.failures) :
    Requesting s (t.after work) (h ++ t.chronicle work) pid date table j := by
  induction work generalizing t h with
  | nil =>
    rw [chronicle, List.append_nil]
    exact hr
  | cons m work ih =>
    obtain ⟨hm, hwork⟩ := List.forall_mem_cons.mp spared
    obtain ⟨hfirst, hrest⟩ := Journaled.unfailed_between (calls_stepped t (step_cases t m))
      (calls_after (t.step m) work) unfailed
    rw [chronicle, ← List.append_assoc]
    exact ih (hr.step hm hfirst) hwork hrest

/-- A request that is made while nobody is at work on the process, and that is over, has opened one register and
published its package. -/
theorem requested [AscendingStorage σ] {work : List Move} (calm : s.Undisturbed pid table s.admissions.length)
    (sound : RowStorage.Sound s.shared.storage) (spared : ∀ m ∈ work, m.spares pid = true)
    (unfailed : (s.after (.request pid date :: work)).shared.storage.failures = s.shared.storage.failures)
    (ended : (s.after (.request pid date :: work)).admissions[s.admissions.length]? = some .done) :
    (s.after (.request pid date :: work)).Undisturbed pid table
    (s.after (.request pid date :: work)).admissions.length ∧
      ∃ l p, p.executionDate = date ∧
        Opens s (s.after (.request pid date :: work)) pid table [⟨s.admissions.length, l, p⟩] ∧
        publications pid (s.chronicle (.request pid date :: work)) = [(s.admissions.length, p)] := by
  have hmade : Requesting s (s.step (.request pid date)) [] pid date table s.admissions.length :=
    ⟨calm.request date, sound, .none, .find pid date, List.getElem?_concat_length, ⟨rfl, rfl⟩,
      (Opens.refl s pid table).of_same rfl, rfl⟩
  have hover := hmade.after spared unfailed
  obtain ⟨a, here, stands⟩ := hover.stands
  obtain rfl : a = .done := Option.some.inj (here.symm.trans ended)
  exact ⟨hover.calm.ended ended _, stands⟩

end

/-! ## One date after the other -/

section
variable {σ : Type} [Storage σ]

/-- Somebody requests a process for some dates, and for each of them when the request for the last one is over. Others
work on in the meantime, but nobody else requests the process or forgets it. -/
inductive Reprocesses (pid : ProcessId) : Activities σ → List Instant → List Move → Prop where
  | none (s : Activities σ) : Reprocesses pid s [] []
  | next {s : Activities σ} {date : Instant} {dates : List Instant} {work rest : List Move}
    (spared : ∀ m ∈ work, m.spares pid = true)
    (ended : (s.after (.request pid date :: work)).admissions[s.admissions.length]? = some .done)
    (more : Reprocesses pid (s.after (.request pid date :: work)) dates rest) :
    Reprocesses pid s (date :: dates) (.request pid date :: work ++ rest)

variable {s t : Activities σ} {pid : ProcessId} {moves : List Move}

theorem Reprocesses.not_forget {dates : List Instant} (h : Reprocesses pid s dates moves) :
    ∀ m ∈ moves, m ≠ .forget pid := by
  induction h with
  | none => exact fun m hm => absurd hm List.not_mem_nil
  | next spared ended more ih =>
    intro m hm
    rcases List.mem_append.mp hm with hm | hm
    · rcases List.mem_cons.mp hm with rfl | hm
      · exact Move.noConfusion
      · exact not_forget_of_spares (spared m hm)
    · exact ih m hm

/-! ### The call alone -/

/-- A request goes on to its end, with nothing in between. -/
theorem request_over (now : Instant) (s : Activities σ) {j : Nat} {x : Admission} (here : s.admissions[j]? = some x) :
    ∃ k, (s.after (List.replicate k (.admission j now))).shared = x.run now s.shared ∧
      (s.after (List.replicate k (.admission j now))).admissions[j]? = some .done := by
  rw [Admission.run]
  split
  · rename_i hdone
    refine ⟨0, rfl, ?_⟩
    cases x <;> first | exact here | cases hdone
  · have hstep : s.step (.admission j now) = s.stepAdmission j x now := by simp only [step, here, Option.elim_some]
    obtain ⟨k, hshared, hover⟩ := request_over now (s.stepAdmission j x now) (getElem?_stepAdmission here now)
    refine ⟨k + 1, ?_, ?_⟩ <;> rw [List.replicate_succ, after, List.foldl_cons, hstep]
    · exact hshared
    · exact hover
termination_by x.rank
decreasing_by exact x.rank_step now s.shared ‹_›

/-- A service that is called, with nothing in between. -/
theorem reprocesses_alone (pid : ProcessId) (now : Instant) (dates : List Instant) (s : Activities σ) :
    ∃ moves, Reprocesses pid s dates moves ∧ ∀ v : Service σ, v.shared = s.shared →
      dates.foldl (fun v date => v.trigger pid date now) v = { v with shared := (s.after moves).shared } := by
  induction dates generalizing s with
  | nil => exact ⟨[], .none s, fun v hv => by rw [List.foldl_nil, show (s.after []).shared = v.shared from hv.symm]⟩
  | cons date dates ih =>
    obtain ⟨k, hshared, hover⟩ := request_over now (s.step (.request pid date)) List.getElem?_concat_length
    obtain ⟨rest, hrest, hfold⟩ :=
      ih (s.after (.request pid date :: List.replicate k (.admission s.admissions.length now)))
    refine ⟨_, .next (fun m hm => ?_) hover hrest, fun v hv => ?_⟩
    · rw [List.eq_of_mem_replicate hm]
      rfl
    · have htrigger : (v.trigger pid date now).shared =
          (s.after (.request pid date :: List.replicate k (.admission s.admissions.length now))).shared := by
        rw [Service.trigger, hv]
        exact hshared.symm
      rw [List.foldl_cons, hfold _ htrigger, after_append]
      rfl

end

/-! ### The call with others in between -/

section
variable {σ : Type} [Storage σ] [RowStorage σ] {s : Activities (Journaled σ)} {pid : ProcessId} {table : LogTable}
  {dates : List Instant} {moves : List Move}

/-- Each date gets one register and one package. -/
theorem Reprocesses.requested [AscendingStorage σ] (h : Reprocesses pid s dates moves)
    (calm : s.Undisturbed pid table s.admissions.length) (filed : s.Filed)
    (unfailed : (s.after moves).shared.storage.failures = s.shared.storage.failures) :
    ∃ tickets, Opens s (s.after moves) pid table tickets ∧ tickets.map (·.package.executionDate) = dates ∧
      publications pid (s.chronicle moves) = tickets.map fun u => (u.request, u.package) := by
  induction h with
  | none s => exact ⟨[], .refl s pid table, rfl, rfl⟩
  | @next s date dates work rest spared ended more ih =>
    have hbefore := calls_after s (.request pid date :: work)
    have hafter := calls_after (s.after (.request pid date :: work)) rest
    rw [after_append] at unfailed ⊢
    obtain ⟨hfirst, hrest⟩ := Journaled.unfailed_between hbefore hafter unfailed
    obtain ⟨hcalm, l, p, hdate, hopens, hpublished⟩ := Activities.requested calm filed.sound spared hfirst ended
    have hfiled : (s.after (.request pid date :: work)).Filed := filed.after _
    obtain ⟨tickets, hmore, hdates, hpublications⟩ := ih hcalm hfiled hrest
    refine ⟨⟨s.admissions.length, l, p⟩ :: tickets, ?_, ?_, ?_⟩
    · exact hopens.trans hmore (fun id => RowStorage.there_after hbefore filed.sound) (hopens.there hfiled)
    · rw [List.map_cons, hdates, hdate]
    · rw [chronicle_append, publications_append, hpublished, hpublications]
      rfl

end

/-! ## What is dispatched -/

section
variable {σ : Type} {s : Activities σ} {m : Move} {pid : ProcessId} {moves more : List Move}

/-- When the main loop sleeps, nobody has to wake it and no run of the process is under way, nothing of it is in
line. -/
theorem line_empty (apart : s.Exclusive) (heard : s.Heard) (asleep : s.shared.loop = .asleep) (due : s.wakesDue = 0)
    (ended : s.underWay pid = 0) : s.shared.scheduler.lineOf pid = [] := by
  have hqueued : s.shared.scheduler.queued = [] := by
    by_contra hsome
    rcases heard.due (Or.inr asleep) hsome with hkept | hdue
    · rw [heard.asleep asleep] at hkept
      cases hkept
    · omega
  have hcount : s.shared.scheduler.queuedCount pid = 0 := by rw [Scheduler.queuedCount, hqueued, List.countP_nil]
  have hwaiting : s.shared.scheduler.waitQueue pid = [] := by
    by_contra hsome
    have hone := (apart.2.active pid).mp (apart.1.behind pid hsome)
    omega
  rw [Scheduler.lineOf, hqueued, hwaiting]
  rfl

variable [Storage σ]

theorem stripped_of_happening {id : ProcessId} {packages : List Package}
    (h : s.happening? m = some (.stripped id packages)) :
    .strip id ∈ s.removals ∧ packages = s.shared.scheduler.lineOf id := by
  cases m with
  | admission i now =>
    obtain ⟨a, -, hx⟩ := Option.bind_eq_some_iff.mp h
    obtain ⟨p, hp, -⟩ := Admission.publishes hx
    cases hp
  | removal i now =>
    obtain ⟨r, here, hx⟩ := Option.bind_eq_some_iff.mp h
    cases r <;> cases hx
    exact ⟨List.mem_of_getElem? here, rfl⟩
  | run i now =>
    obtain ⟨r, -, hx⟩ := Option.bind_eq_some_iff.mp h
    rw [Run.happening?] at hx
    split at hx
    · obtain ⟨p, hp⟩ := Scheduler.promotes hx
      cases hp
    · cases hx
  | loop =>
    obtain ⟨p, -, hp⟩ := Option.map_eq_some_iff.mp h
    cases hp
  | release other =>
    obtain ⟨p, hp⟩ := Scheduler.promotes h
    cases hp
  | _ => cases h

theorem departures_step (hr : s.Recorded) (removals : ∀ r ∈ s.removals, r.aim? ≠ some pid) :
    (departures pid (s.happening? m).toList).map Prod.snd =
      ((s.happening? m).toList.filterMap (·.dispatched?)).filter fun p => p.processId = pid := by
  cases hx : s.happening? m with
  | none => rfl
  | some x =>
    cases x with
    | queued | waited | promoted => rfl
    | dispatched p =>
      by_cases hp : p.processId = pid <;> simp [departures, Happening.leaving, Happening.dispatched?, hp]
    | stripped id packages =>
      obtain ⟨hstrip, rfl⟩ := stripped_of_happening hx
      have hother : ∀ p ∈ s.shared.scheduler.lineOf id, p.processId ≠ pid := by
        intro p hp hpid
        refine removals _ hstrip (congrArg some ?_)
        rw [← hpid, Scheduler.processId_of_mem_lineOf hr.tidy hp]
      simpa [departures, Happening.leaving, Happening.dispatched?] using hother

/-- Where nobody forgets the process, its packages leave the queues by being dispatched. -/
theorem departures_after (hr : s.Recorded) (removals : ∀ r ∈ s.removals, r.aim? ≠ some pid)
    (stays : ∀ m ∈ moves, m ≠ .forget pid) :
    (departures pid (s.chronicle moves)).map Prod.snd =
      ((s.chronicle moves).filterMap (·.dispatched?)).filter fun p => p.processId = pid := by
  induction moves generalizing s with
  | nil => rfl
  | cons m moves ih =>
    obtain ⟨hm, hrest⟩ := List.forall_mem_cons.mp stays
    have hnext := ih (hr.stepped (step_cases s m)) (unremoved_stepped (step_cases s m) removals hm) hrest
    rw [chronicle, departures_append, List.map_append, departures_step hr removals, hnext, List.filterMap_append,
      List.filter_append]

theorem heard_after (h : s.Heard) (moves : List Move) : (s.after moves).Heard :=
  after_keep (P := Heard) s h fun t ht m _ => (called_step t m).heard ht

/-- Whoever is released from outside is idle at that moment. -/
def ReleasesIdle (s : Activities σ) (moves : List Move) : Prop :=
  ∀ done pid rest, moves = done ++ .release pid :: rest → pid ∉ (s.after done).shared.scheduler.active

theorem ReleasesIdle.of_append (h : s.ReleasesIdle (moves ++ more)) : s.ReleasesIdle moves :=
    fun done pid rest hmoves =>
  h done pid (rest ++ more) (by rw [hmoves, List.append_assoc, List.cons_append])

theorem select_table (name : String) (l : Logger) (storage : σ) :
    (Logger.select name (l, storage)).2.1 = l ∨ ∃ table, (Logger.select name (l, storage)).2.1 = ⟨some table⟩ := by
  simp only [Logger.select]
  cases LogTable.ofName name with
  | error e => exact Or.inl rfl
  | ok table =>
    simp only
    cases Storage.init table storage with
    | mk result t =>
      cases result with
      | error e => exact Or.inl rfl
      | ok => exact Or.inr ⟨table, rfl⟩

theorem releasesIdle_of_own (own : ∀ m ∈ moves, m.isRelease = false) : s.ReleasesIdle moves := by
  rintro done pid rest rfl
  have hno := own (.release pid) (List.mem_append_right done List.mem_cons_self)
  cases hno

/-- A log that has a table has one whatever is selected. -/
theorem logger_after (h : ∃ table, s.shared.logger = ⟨some table⟩) (moves : List Move) :
    ∃ table, (s.after moves).shared.logger = ⟨some table⟩ := by
  refine after_keep (P := fun t => ∃ table, t.shared.logger = ⟨some table⟩) s h fun t ht m _ => ?_
  have hm := step_cases t m
  generalize t.step m = u at hm ⊢
  cases hm with
  | alike hu => exact hu.logger ▸ ht
  | @admission i now a here =>
    have hsame : (t.stepAdmission i a now).shared.logger = t.shared.logger := (a.sameSettings_step now t.shared).logger
    exact hsame ▸ ht
  | @removal i now r here =>
    have hsame : (t.stepRemoval i r now).shared.logger = t.shared.logger := by
      cases r with
      | close logger count packages => cases packages <;> rfl
      | forget | strip | takeLog | announce | done => rfl
    exact hsame ▸ ht
  | @run i now r here =>
    have hsame : (t.stepRun i r now).shared.logger = t.shared.logger := r.logger_step now t.shared
    exact hsame ▸ ht
  | @select name logger storage hselect =>
    have hlogger : (Logger.select name (t.shared.logger, t.shared.storage)).2.1 = logger := congrArg Prod.fst hselect
    rcases select_table name t.shared.logger t.shared.storage with hsame | ⟨table, htable⟩
    · exact (hlogger.symm.trans hsame) ▸ ht
    · exact ⟨table, hlogger.symm.trans htable⟩
  | request | forget | answer | dispatch | release => exact ht

end

/-- A reprocessing of a process that is registered and owned, while nobody else is at work on it and the storage does
not fail. If there are no dates for it, it says why and leaves everything as it is. Otherwise it says how many dates
there are; it opens one register for each date, with numbers that ascend with the dates, and publishes one package for
each behind all that is pending of the process, the oldest date first. Whatever others do while it goes on and
afterwards, as long as nobody forgets the process, its packages are dispatched in this order and none of them twice,
and none is lost: it stands in line until it is dispatched, and when the service has come to rest nothing stands in
line. If nobody releases a process from outside that is not idle, a package is dispatched only when no run of the
process is under way. -/
theorem reprocessing_runs_in_date_order {σ : Type} [Storage σ] [RowStorage σ] [AscendingStorage σ] (kind : ServiceKind)
    (instanceId cores workers : Nat) (table : LogTable) (registry : Registry) (storage : Journaled σ)
    (sound : RowStorage.Sound storage) (early : List Move) (pid : ProcessId) (a b : Instant) (schedule : Schedule) :
    let first := ofService (Service.create kind instanceId cores workers ⟨some table⟩ registry storage)
    let s := first.after early
    (∃ p, s.shared.find? pid = some p ∧ s.shared.owns p = true) →
    (∀ x ∈ s.admissions, x.aim? ≠ some pid) → (∀ x ∈ s.removals, x.aim? ≠ some pid) →
      -- The call, with nothing in between.
      (∀ (v : Service (Journaled σ)) (now : Instant), v.shared = s.shared →
        (∀ e, schedule.datesBetween a b = .error e → v.reprocess pid a b schedule now = (.error e, v)) ∧
        ∀ dates, schedule.datesBetween a b = .ok dates → ∃ moves, Reprocesses pid s dates moves ∧
          v.reprocess pid a b schedule now = (.ok dates.length, { v with shared := (s.after moves).shared })) ∧
      -- The call, with others in between.
      ∀ dates, schedule.datesBetween a b = .ok dates → ∀ moves, Reprocesses pid s dates moves →
        let t := s.after moves
        t.shared.storage.failures = s.shared.storage.failures →
        ∃ log tickets, s.shared.logger = ⟨some log⟩ ∧ Opens s t pid log tickets ∧
          (∀ u ∈ tickets, (RowStorage.rows t.shared.storage log u.package.registerId).isSome) ∧
          tickets.map (·.package.executionDate) = dates ∧ dates.Pairwise (· < ·) ∧
          publications pid (s.chronicle moves) = (tickets.map fun u => (u.request, u.package)) ∧
          -- What follows.
          ∀ late, (∀ m ∈ late, m ≠ .forget pid) →
            let u := t.after late
            let dispatched := (s.chronicle (moves ++ late)).filterMap (·.dispatched?)
            u.runs.map (·.package) = s.runs.map (·.package) ++ dispatched ∧
            s.shared.scheduler.lineOf pid ++ tickets.map (·.package) ++
              (publications pid (t.chronicle late)).map Prod.snd =
              (dispatched.filter fun p => p.processId = pid) ++ u.shared.scheduler.lineOf pid ∧
            (first.ReleasesIdle (early ++ (moves ++ late)) →
              (∀ done rest p, moves ++ late = done ++ .loop :: rest → (s.after done).shared.loopStep.1 = some p →
                p.processId = pid → ∀ r ∈ (s.after done).runs, r.package.processId = pid → r.isUnderWay = false) ∧
              (u.shared.loop = .asleep → u.wakesDue = 0 → u.underWay pid = 0 →
                  u.shared.scheduler.lineOf pid = [])) := by
  intro first s found requests removals
  have hrecorded : s.Recorded := recorded_after (recorded_start _ rfl) early
  have hstart : first.Heard := ⟨nofun, fun hloop => by rcases hloop with hloop | hloop <;> cases hloop⟩
  have hheard : s.Heard := heard_after hstart early
  have hfiled : s.Filed := (Filed.start _ sound).after early
  obtain ⟨log, hlog⟩ : ∃ log, s.shared.logger = ⟨some log⟩ := logger_after ⟨table, rfl⟩ early
  have hcalm : s.Undisturbed pid log s.admissions.length :=
    ⟨found, hlog, fun i x here aim => absurd aim (requests x (List.mem_of_getElem? here)), removals⟩
  constructor
  · intro v now hv
    refine ⟨fun e he => ?_, fun dates hdates => ?_⟩
    · rw [Service.reprocess, he]
    · obtain ⟨moves, hmoves, hfold⟩ := reprocesses_alone pid now dates s
      refine ⟨moves, hmoves, ?_⟩
      simp only [Service.reprocess, hdates, hfold v hv]
  · intro dates hdates moves hmoves t unfailed
    obtain ⟨tickets, hopens, hexecution, hpublished⟩ := hmoves.requested hcalm hfiled unfailed
    refine ⟨log, tickets, hlog, hopens, hopens.there (hfiled.after moves), hexecution,
      Schedule.datesBetween_ascending hdates, hpublished, ?_⟩
    intro late stays u dispatched
    have hu : s.after (moves ++ late) = u := after_append s moves late
    have hstays : ∀ m ∈ moves ++ late, m ≠ .forget pid := fun m hm =>
      (List.mem_append.mp hm).elim (hmoves.not_forget m) (stays m)
    refine ⟨?_, ?_, fun idle => ⟨fun done rest p hdone hdispatch hp r hr hrun => ?_, fun asleep due ended => ?_⟩⟩
    · rw [← hu]
      exact runs_after s (moves ++ late)
    · have hpackages : (publications pid (s.chronicle (moves ++ late))).map Prod.snd =
          tickets.map (·.package) ++ (publications pid (t.chronicle late)).map Prod.snd := by
        rw [chronicle_append, publications_append, hpublished, List.map_append, List.map_map]
        rfl
      have hline := line_after hrecorded (moves ++ late) pid
      rw [hpackages, departures_after hrecorded removals hstays, hu, ← List.append_assoc] at hline
      exact hline
    · have hsplit : early ++ (moves ++ late) = (early ++ done) ++ (.loop :: rest) := by rw [hdone, List.append_assoc]
      have hapart : (first.after (early ++ done)).Exclusive :=
        exclusive_after_idle (exclusive_start _ rfl) (ReleasesIdle.of_append (hsplit ▸ idle))
      rw [after_append] at hapart
      exact not_underWay_of_dispatch hapart hdispatch hr (hrun.trans hp.symm)
    · have hapart : (first.after (early ++ (moves ++ late))).Exclusive :=
        exclusive_after_idle (exclusive_start _ rfl) idle
      rw [after_append, show first.after early = s from rfl, hu] at hapart
      exact line_empty hapart (heard_after (heard_after hheard moves) late) asleep due ended

/-- The first date of the schedule. -/
def firstDate : Instant := ⟨120, 0, by decide⟩

/-- The second date of the schedule. -/
def secondDate : Instant := ⟨180, 0, by decide⟩

/-- The process is requested for two dates, and between the two a run of it goes on. -/
def twoDates : List Move :=
  (.request 1 firstDate :: List.replicate 7 (.admission 2 .epoch)) ++
    ((.request 1 secondDate :: .run 0 .epoch :: List.replicate 7 (.admission 3 .epoch)) ++ [])

/-- A run goes on to its end, and the main loop looks for the next package. -/
def endOfRun (i : Nat) : List Move :=
  List.replicate 6 (.run i .epoch) ++ [.answer i (.done none [])] ++ List.replicate 8 (.run i .epoch) ++
    List.replicate 4 .loop

/-- The first date runs, and the second one is requested. -/
def runningWithSecond : Activities (Journaled Memory) :=
  (ofService (Service.create .collector 1 4 2 ⟨some soloTable⟩ soloRegistry { storage := soloLog })).after secondRequest

/-- The runs come to their ends, one after the other. -/
def untilAllHaveRun : List Move := endOfRun 0 ++ endOfRun 1 ++ endOfRun 2 ++ endOfRun 3

/-- The process runs and a second package of it waits; after it the packages of the two dates are dispatched. -/
theorem reprocessing_runs_in_date_order_of_secondRequest :
    (⟨1, "min"⟩ : Schedule).datesBetween secondDate firstDate = .ok [firstDate, secondDate] ∧
      Reprocesses 1 runningWithSecond [firstDate, secondDate] twoDates ∧
      ∃ tickets : List Ticket, tickets.map (·.package.executionDate) = [firstDate, secondDate] ∧
        (tickets.map (·.package.registerId)).Pairwise (· < ·) ∧
        ⟨1, 2, .epoch, true⟩ :: tickets.map (·.package) =
          ((runningWithSecond.chronicle (twoDates ++ untilAllHaveRun)).filterMap (·.dispatched?)).filter fun p =>
            p.processId = 1 := by
  have dates : (⟨1, "min"⟩ : Schedule).datesBetween secondDate firstDate = .ok [firstDate, secondDate] := by
    have period : (⟨1, "min"⟩ : Schedule).step = .ok 60 := by decide +kernel
    have next : firstDate.plus? 60 = some secondDate := by decide
    have beyond : secondDate.plus? 60 = some ⟨240, 0, by decide⟩ := by decide
    have both : Schedule.datesFrom 60 secondDate firstDate = [firstDate, secondDate] := by
      rw [Schedule.datesFrom_of_inside (by decide), next, Option.elim_some, Schedule.datesFrom_of_inside (by decide),
        beyond, Option.elim_some, Schedule.datesFrom_of_outside (by decide)]
    rw [Schedule.datesBetween, period, ← both]
    rfl
  have moves : Reprocesses 1 runningWithSecond [firstDate, secondDate] twoDates :=
    .next (by decide) (by rfl) (.next (by decide) (by rfl) (.none _))
  have own : ∀ m ∈ secondRequest ++ (twoDates ++ untilAllHaveRun), m.isRelease = false := by decide
  have found : runningWithSecond.shared.find? 1 = some ⟨1, 1, true, none⟩ := by decide +kernel
  have requests : ∀ x ∈ runningWithSecond.admissions, x.aim? ≠ some 1 := by decide +kernel
  have removals : ∀ x ∈ runningWithSecond.removals, x.aim? ≠ some 1 := by decide +kernel
  obtain ⟨-, called⟩ := reprocessing_runs_in_date_order .collector 1 4 2 soloTable soloRegistry { storage := soloLog }
    sound_soloLog secondRequest 1 secondDate firstDate ⟨1, "min"⟩ ⟨_, found, rfl⟩ requests removals
  rw [← runningWithSecond] at called
  have unfailed : (runningWithSecond.after twoDates).shared.storage.failures =
      runningWithSecond.shared.storage.failures := by
    decide +kernel
  obtain ⟨log, tickets, -, opens, -, executed, -, -, later⟩ := called _ dates twoDates moves unfailed
  have spared : ∀ m ∈ untilAllHaveRun, m.spares 1 = true := by decide
  obtain ⟨-, line, rest⟩ := later untilAllHaveRun fun m hm => not_forget_of_spares (spared m hm)
  have asleep : ((runningWithSecond.after twoDates).after untilAllHaveRun).shared.loop = .asleep := by decide +kernel
  have due : ((runningWithSecond.after twoDates).after untilAllHaveRun).wakesDue = 0 := by decide +kernel
  have ended : ((runningWithSecond.after twoDates).after untilAllHaveRun).underWay 1 = 0 := by decide +kernel
  have nothing : publications 1 ((runningWithSecond.after twoDates).chronicle untilAllHaveRun) = [] := by decide +kernel
  have waiting : runningWithSecond.shared.scheduler.lineOf 1 = [⟨1, 2, .epoch, true⟩] := by decide +kernel
  have empty := (rest (releasesIdle_of_own own)).2 asleep due ended
  refine ⟨dates, moves, tickets, executed, opens.ascending, ?_⟩
  rw [waiting, nothing, empty, List.map_nil, List.append_nil, List.append_nil] at line
  exact line

end Activities

end ProcessRuns
