import ProcessRuns.Proofs.Activities.LogTables
import ProcessRuns.Proofs.Activities.Reopening

/-! # Log tables that are selected while the service works

A selection repairs its tables as if a service had left them behind. It goes by what the registers say and does not
know which of them belong to packages that are in hand. -/

namespace ProcessRuns

theorem Status.repaired_ne_iff (row : Option Status) :
    row.map repaired ≠ row ↔ row = some .start ∨ row = some .onQueue := by
  cases row with
  | none => simp
  | some status => cases status <;> simp [repaired]

namespace Logger

variable {σ : Type} [Storage σ] {name : String} {l l' : Logger} {s t : σ}

theorem select_invalid {e : Failure} (h : LogTable.ofName name = .error e) : select name (l, s) = (.error e, l, s) := by
  simp only [select, h]

/-- A selection that succeeds does what opening the log anew would do. -/
theorem opened_of_select {table : LogTable} (hname : LogTable.ofName name = .ok table)
    (h : select name (l, s) = (.ok (), l', t)) : opened name s = (.ok ⟨some table⟩, t) := by
  simp only [select, hname] at h
  unfold opened
  simp only [select, hname]
  cases hinit : Storage.init table s with
  | mk result u =>
    rw [hinit] at h
    cases result with
    | error e => cases h
    | ok =>
      cases hrepair : (⟨some table⟩ : Logger).repair u with
      | mk result v =>
        simp only [hrepair, Prod.mk.injEq] at h
        obtain ⟨rfl, -, rfl⟩ := h
        simp only [hrepair]

end Logger

namespace Activities

section
variable {σ : Type}

/-- The package of the ticket is queued, waits for its process, or was dispatched to a run that is not over. -/
def LiveTicket (s : Activities σ) (t : Ticket) : Prop :=
  t ∈ s.record.pending ∨ ∃ i r, s.runs[i]? = some r ∧ r.stage ≠ .finished ∧ s.ticketAt (.run i) = some t

theorem LiveTicket.origin {s : Activities σ} (hs : s.Recorded) {t : Ticket} (ht : s.LiveTicket t) :
    t.origin ∈ s.record.opened := by
  rcases ht with ht | ⟨i, r, -, -, ht⟩
  · exact hs.origins t (Or.inl ht)
  · exact hs.origin_ticketAt ht

end

section
variable {σ : Type} [Storage σ] {s : Activities (Journaled σ)} {name : String} {table : LogTable}

/-- A selection changes the log and what it has done to the storage. -/
theorem shared_select (s : Activities (Journaled σ)) (name : String) :
    (s.shared.selectTable name).1 = (Logger.select name (s.shared.logger, s.shared.storage)).1 ∧
      (s.step (.select name)).shared.storage = (Logger.select name (s.shared.logger, s.shared.storage)).2.2 := by
  simp only [step, Shared.selectTable, Action.within, and_self]

theorem storage_select_invalid {e : Failure} (h : LogTable.ofName name = .error e) :
    (s.step (.select name)).shared.storage = s.shared.storage := by
  rw [(shared_select s name).2, Logger.select_invalid h]

variable [RowStorage σ]

/-- Every open register of the selected tables is repaired, whoever has its package. -/
theorem rows_select (sound : RowStorage.Sound s.shared.storage) (hname : LogTable.ofName name = .ok table)
    (selected : (s.shared.selectTable name).1 = .ok ()) :
    (∀ id, RowStorage.rows (s.step (.select name)).shared.storage table id =
      (RowStorage.rows s.shared.storage table id).map Status.repaired) ∧
    ∀ other, other ≠ table →
      RowStorage.rows (s.step (.select name)).shared.storage other = RowStorage.rows s.shared.storage other := by
  rw [(shared_select s name).1] at selected
  rw [(shared_select s name).2]
  cases hselect : Logger.select name (s.shared.logger, s.shared.storage) with
  | mk result rest =>
    rw [hselect] at selected
    obtain ⟨l, storage⟩ := rest
    cases selected
    exact Logger.rows_opened sound (Logger.opened_of_select hname hselect)

/-- The open registers of a service's log are those of the packages in hand. -/
theorem Courses.open_iff_live {start : Rows} {c : RegisterId → Course} (h : Courses table start s c)
    (none : Courses.NoneOpen table start) (id : RegisterId) :
    (RowStorage.rows s.shared.storage table id = some .start ∨
      RowStorage.rows s.shared.storage table id = some .onQueue) ↔
      id ∈ s.live.map (·.registerId) := by
  constructor
  · intro hopen
    obtain ⟨p, hp, rfl⟩ := h.mem_live_of_open none hopen
    exact List.mem_map_of_mem hp
  · intro hid
    obtain ⟨p, hp, rfl⟩ := List.mem_map.mp hid
    rcases saying_of_live hp with hp | hp
    · exact Or.inl (h.row_of_sayingStarted hp)
    · exact Or.inr (h.row_of_sayingQueued hp)

/-- A selection of log tables at any moment. Under a name that is none it changes no status. Otherwise, as far as the
storage does what it is asked, it repairs every register of its tables and none of others: the status of a package that
is queued, waits or runs changes exactly if its register is in these tables and still open. As long as no call has
failed, the first selection changes the registers of all packages in hand if it selects the tables that the service
has, under whatever spelling, and no others; if it selects other tables it changes nothing in those. -/
theorem selections_repair_what_is_in_hand (kind : ServiceKind) (instanceId cores workers : Nat) (registry : Registry)
    {own : String} {ownTable : LogTable} {before storage : σ} (sound : RowStorage.Sound before)
    (opened : Logger.opened own before = (.ok ⟨some ownTable⟩, storage)) (moves : List Move) (name : String) :
    let s := (journaled kind instanceId cores workers ⟨some ownTable⟩ registry storage).after moves
    let row := RowStorage.rows s.shared.storage
    let row' := RowStorage.rows (s.step (.select name)).shared.storage
    (∀ e, LogTable.ofName name = .error e → row' = row) ∧
    ∀ table, LogTable.ofName name = .ok table → (s.shared.selectTable name).1 = .ok () →
      (∀ id, row' table id = (row table id).map Status.repaired) ∧
      (∀ other, other ≠ table → row' other = row other) ∧
      (∀ t, s.LiveTicket t → ∃ place id, t.register? = some (place, id) ∧ (row place id).isSome ∧
        (row' place id ≠ row place id ↔ place = table ∧
          (row place id = some .start ∨ row place id = some .onQueue))) ∧
      ((∀ m ∈ moves, m.isSelect = false) → s.shared.storage.failures = [] →
        ∀ id, row' ownTable id ≠ row ownTable id ↔ table = ownTable ∧ id ∈ s.live.map (·.registerId)) := by
  intro s row row'
  have hstorage := Logger.sound_opened sound opened
  have hrecorded : s.Recorded := recorded_after (recorded_start _ rfl) moves
  have hfiled : s.Filed := after_keep _ ⟨hstorage, fun _ h => absurd h List.not_mem_nil, List.nodup_nil⟩
    fun t ht m _ => ht.stepped (step_cases t m)
  refine ⟨fun e he => ?_, fun table hname selected => ?_⟩
  · exact congrArg RowStorage.rows (storage_select_invalid he)
  obtain ⟨hrows, hothers⟩ := rows_select hfiled.sound hname selected
  refine ⟨hrows, hothers, fun t ht => ?_, fun stays ok id => ?_⟩
  · obtain ⟨place, hplace, hrow⟩ := hfiled.there _ (ht.origin hrecorded)
    have hregister : t.register? = some (place, t.package.registerId) := by
      rw [Ticket.register?, show t.log.table = some place from hplace]
      rfl
    refine ⟨place, t.package.registerId, hregister, hrow, ?_⟩
    -- The repair changes the rows of the selected table only.
    by_cases hhere : place = table
    · subst hhere
      rw [show row' place t.package.registerId = _ from hrows _, Status.repaired_ne_iff, and_iff_right rfl]
    · simp [show row' place = row place from hothers place hhere, hhere]
  · obtain ⟨c, hc⟩ := (onCourse_after kind instanceId cores workers registry hstorage ownTable stays).courses ok
    by_cases hhere : table = ownTable
    · subst hhere
      rw [show row' table id = _ from hrows _, Status.repaired_ne_iff, and_iff_right rfl]
      exact hc.open_iff_live (Logger.none_open_of_opened sound opened) id
    · simp [show row' ownTable = row ownTable from hothers ownTable (Ne.symm hhere), hhere]

/-- A package is queued. To select the tables in use once more interrupts it, and so does it to select others and then
to return. -/
theorem selections_repair_what_is_in_hand_of_requestAlone :
    Logger.opened "log" ({} : Memory) = (.ok ⟨some soloTable⟩, soloLog) ∧ LogTable.ofName " LOG " = .ok soloTable ∧
      ∀ moves ∈ [requestAlone, requestAlone ++ [.select "other"]],
        let s := (journaled .collector 1 4 2 ⟨some soloTable⟩ soloRegistry soloLog).after moves
        (s.shared.selectTable " LOG ").1 = .ok () ∧ s.LiveTicket firstTicket ∧
          RowStorage.rows s.shared.storage soloTable 1 = some .start ∧
          RowStorage.rows (s.step (.select " LOG ")).shared.storage soloTable 1 = some .interrupted := by
  have opened : Logger.opened "log" ({} : Memory) = (.ok ⟨some soloTable⟩, soloLog) := by rfl
  have hname : LogTable.ofName " LOG " = .ok soloTable := by decide +kernel
  refine ⟨opened, hname, fun moves hmoves => ?_⟩
  obtain ⟨-, hvalid⟩ := selections_repair_what_is_in_hand .collector 1 4 2 soloRegistry Memory.sound_empty
    opened moves " LOG "
  intro s
  have hcases : (s.shared.selectTable " LOG ").1 = .ok () ∧ firstTicket ∈ s.record.pending ∧
      RowStorage.rows s.shared.storage soloTable 1 = some .start := by
    simp only [List.mem_cons, List.not_mem_nil, or_false] at hmoves
    rcases hmoves with rfl | rfl
    · decide +kernel
    · decide +kernel
  obtain ⟨selected, hpending, hrow⟩ := hcases
  obtain ⟨hrows, -⟩ := hvalid soloTable hname selected
  refine ⟨selected, Or.inl hpending, hrow, (hrows 1).trans ?_⟩
  rw [hrow]
  rfl

end

end Activities

end ProcessRuns
