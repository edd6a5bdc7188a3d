import ProcessRuns.Log.Logger
import ProcessRuns.Proofs.Log.Rows

/-! # A journal of writes

A storage that puts down every write that it is asked for and every call that fails. It does what the storage
inside does; from the journal the history of each register can be read, and where no call failed the rows are
what the journal says. -/

namespace ProcessRuns

/-- A write that a storage was asked for. -/
inductive Write where
  /-- A register is opened; its id, if the call succeeded. -/
  | register (table : LogTable) (status : Status) (id? : Option RegisterId)
  /-- A register gets a status; whether the call succeeded and found it. -/
  | status (table : LogTable) (id : RegisterId) (status : Status) (done : Bool)
  /-- A message or a value is attached to a register. -/
  | note (table : LogTable) (id : RegisterId)
  /-- All registers of a table in one of the old statuses get a new one; whether the call succeeded. -/
  | sweep (table : LogTable) (old : List Status) (new : Status) (done : Bool)
deriving DecidableEq

namespace Write

/-- The register that a write is about. -/
def target? : Write → Option (LogTable × RegisterId)
  | register table _ id? => id?.map fun id => (table, id)
  | status table id _ _ | note table id => some (table, id)
  | sweep _ _ _ _ => none

/-- The statuses that a register has had, with those that a write gives it. -/
def follow (table : LogTable) (id : RegisterId) (history : List Status) : Write → List Status
  | register t new (some i) | .status t i new true => if table = t ∧ id = i then history ++ [new] else history
  | sweep t old new true => if table = t ∧ history.getLast?.any (· ∈ old) then history ++ [new] else history
  | _ => history

theorem follow_grows (table : LogTable) (id : RegisterId) (history : List Status) (w : Write) :
    history <+: follow table id history w := by
  unfold follow
  split
  · split
    · exact List.prefix_append _ _
    · exact List.prefix_rfl
  · split
    · exact List.prefix_append _ _
    · exact List.prefix_rfl
  · split
    · exact List.prefix_append _ _
    · exact List.prefix_rfl
  · exact List.prefix_rfl

theorem foldl_follow_grows (table : LogTable) (id : RegisterId) (ws : List Write) (history : List Status) :
    history <+: ws.foldl (follow table id) history :=
  List.foldlRecOn (motive := fun h => history <+: h) ws _ List.prefix_rfl fun _ h w _ =>
    h.trans (follow_grows table id _ w)

end Write

/-- A storage with a journal of what it was told. -/
structure Journaled (σ : Type) where
  storage : σ
  /-- The writes that were asked for, oldest first. -/
  writes : List Write := []
  /-- The calls that failed, oldest first. -/
  failures : List StorageCall := []
deriving DecidableEq

namespace Journaled

variable {σ α : Type}

/-- A call of the storage inside; `put` says what it writes. -/
def asking (call : StorageCall) (a : Action σ α) (put : Except Failure α → List Write) : Action (Journaled σ) α :=
  fun j => ((a j.storage).1, {
    storage := (a j.storage).2
    writes := j.writes ++ put (a j.storage).1
    failures := if (a j.storage).1.isOk then j.failures else j.failures ++ [call] })

instance [Storage σ] : Storage (Journaled σ) where
  init table := asking .init (Storage.init table) fun _ => []
  insertRegister table pid status now :=
    asking .insertRegister (Storage.insertRegister table pid status now) fun r => [.register table status r.toOption]
  updateResult table id status date now :=
    asking .updateResult (Storage.updateResult table id status date now) fun r =>
      [.status table id status (r.toOption.getD false)]
  insertMessage table id type description now :=
    asking .insertMessage (Storage.insertMessage table id type description now) fun _ => [.note table id]
  appendValue table id tag value :=
    asking .appendValue (Storage.appendValue table id tag value) fun _ => [.note table id]
  maxLastProcess table pid := asking .maxLastProcess (Storage.maxLastProcess table pid) fun _ => []
  maxData table pid := asking .maxData (Storage.maxData table pid) fun _ => []
  registers table pid offset limit := asking .registers (Storage.registers table pid offset limit) fun _ => []
  messages table ids := asking .messages (Storage.messages table ids) fun _ => []
  updateStatus table old new :=
    asking .updateStatus (Storage.updateStatus table old new) fun r => [.sweep table old new r.isOk]

/-- The statuses that were written to a register, oldest first. -/
def history (j : Journaled σ) (table : LogTable) (id : RegisterId) : List Status :=
  j.writes.foldl (Write.follow table id) []

/-- The histories with one more status in one of them. -/
def push (histories : LogTable → RegisterId → List Status) (table : LogTable) (id : RegisterId) (status : Status) :
    LogTable → RegisterId → List Status := fun t i =>
  if t = table ∧ i = id then histories t i ++ [status] else histories t i

variable {j k : Journaled σ} {table : LogTable} {id : RegisterId}

/-! ### Single calls -/

theorem asking_failures {call : StorageCall} {a : Action σ α} {put : Except Failure α → List Write}
    (h : (asking call a put j).2.failures = []) : j.failures = [] ∧ ∃ x, (a j.storage).1 = .ok x := by
  simp only [asking] at h
  cases hr : (a j.storage).1 with
  | ok x => exact ⟨by simpa [hr, Except.isOk, Except.toBool] using h, x, rfl⟩
  | error e => simp [hr, Except.isOk, Except.toBool] at h

theorem asking_unfailed {call : StorageCall} {a : Action σ α} {put : Except Failure α → List Write}
    (h : (asking call a put j).2.failures = j.failures) : ∃ x, (a j.storage).1 = .ok x := by
  simp only [asking] at h
  cases hr : (a j.storage).1 with
  | ok x => exact ⟨x, rfl⟩
  | error e => simp [hr, Except.isOk, Except.toBool] at h

theorem asking_inside {call : StorageCall} {a : Action σ α} {put : Except Failure α → List Write}
    {r : Except Failure α}
    (h : asking call a put j = (r, k)) : a j.storage = (r, k.storage) := by
  cases h
  rfl

theorem asking_writes {call : StorageCall} {a : Action σ α} {put : Except Failure α → List Write}
    {r : Except Failure α}
    (h : asking call a put j = (r, k)) : k.writes = j.writes ++ put r := by
  cases h
  rfl

theorem asking_error {call : StorageCall} {a : Action σ α} {put : Except Failure α → List Write} {e : Failure}
    (h : asking call a put j = (.error e, k)) : k.failures ≠ [] := fun hk => by
  obtain ⟨-, x, hx⟩ := asking_failures (h ▸ hk : (asking call a put j).2.failures = [])
  rw [asking_inside h] at hx
  cases hx

theorem history_append {ws : List Write} (h : k.writes = j.writes ++ ws) :
    k.history = fun table id => ws.foldl (Write.follow table id) (j.history table id) := by
  funext table id
  rw [history, h, List.foldl_append]
  rfl

section
variable [Storage σ]

theorem quiet_inside (h : Storage.Quiet j k) : Storage.Quiet j.storage k.storage := by
  cases h <;> constructor

theorem call_inside (h : Storage.Call j k) : Storage.Call j.storage k.storage := by
  cases h with
  | quiet h => exact .quiet (quiet_inside h)
  | insertRegister table pid status now => exact .insertRegister table pid status now
  | updateResult table id status date now => exact .updateResult table id status date now
  | updateStatus table old new => exact .updateStatus table old new

theorem failures_grow (h : Storage.Calls j k) : j.failures <+: k.failures := by
  have hasking : ∀ {α : Type} (call : StorageCall) (a : Action σ α) (put : Except Failure α → List Write)
    (j : Journaled σ),
      j.failures <+: (asking call a put j).2.failures := by
    intro α call a put j
    simp only [asking]
    split
    · exact List.prefix_rfl
    · exact List.prefix_append _ _
  induction h with
  | none => exact List.prefix_rfl
  | next _ call ih =>
    refine ih.trans ?_
    cases call with
    | quiet h =>
      cases h with
      | none => exact List.prefix_rfl
      | init | insertMessage | appendValue | maxLastProcess | maxData | registers | messages => exact hasking _ _ _ _
    | insertRegister | updateResult | updateStatus => exact hasking _ _ _ _

theorem calls_failures (h : Storage.Calls j k) (hk : k.failures = []) : j.failures = [] :=
  List.prefix_nil.mp (hk ▸ failures_grow h)

/-- Where no call has failed from the first to the last, none has failed on the way. -/
theorem unfailed_between {l : Journaled σ} (h : Storage.Calls j k) (h' : Storage.Calls k l)
    (unfailed : l.failures = j.failures) :
    k.failures = j.failures ∧ l.failures = k.failures := by
  have hsame : j.failures = k.failures := by
    refine (failures_grow h).eq_of_length (Nat.le_antisymm (failures_grow h).length_le ?_)
    rw [← unfailed]
    exact (failures_grow h').length_le
  exact ⟨hsame.symm, unfailed.trans hsame⟩

theorem call_writes (h : Storage.Call j k) : ∃ ws, k.writes = j.writes ++ ws := by
  cases h with
  | quiet h =>
    cases h with
    | none => exact ⟨[], (List.append_nil _).symm⟩
    | init | insertMessage | appendValue | maxLastProcess | maxData | registers | messages => exact ⟨_, rfl⟩
  | insertRegister | updateResult | updateStatus => exact ⟨_, rfl⟩

theorem history_grows (h : Storage.Calls j k) (table : LogTable) (id : RegisterId) :
    j.history table id <+: k.history table id := by
  induction h with
  | none => exact List.prefix_rfl
  | next _ call ih =>
    obtain ⟨ws, hws⟩ := call_writes call
    rw [history_append hws]
    exact ih.trans (Write.foldl_follow_grows table id ws _)

theorem quiet_history (h : Storage.Quiet j k) : k.history = j.history := by
  have hwrites : ∃ ws, k.writes = j.writes ++ ws ∧ ∀ w ∈ ws, ∃ table id, w = .note table id := by
    cases h with
    | insertMessage table id | appendValue table id =>
      exact ⟨[.note table id], rfl, fun w hw => ⟨table, id, List.mem_singleton.mp hw⟩⟩
    | none => exact ⟨[], (List.append_nil _).symm, fun w hw => absurd hw List.not_mem_nil⟩
    | init | maxLastProcess | maxData | registers | messages =>
      exact ⟨[], rfl, fun w hw => absurd hw List.not_mem_nil⟩
  obtain ⟨ws, hws, hnotes⟩ := hwrites
  rw [history_append hws]
  funext table id
  refine List.foldlRecOn (motive := fun h => h = j.history table id) ws _ rfl fun h hh w hw => ?_
  obtain ⟨t, i, rfl⟩ := hnotes w hw
  exact hh

theorem insert_unfailed {pid : ProcessId} {status : Status} {now : Instant}
    (h : (Storage.insertRegister table pid status now j).2.failures = j.failures) :
    ∃ id, (Storage.insertRegister table pid status now j).1 = .ok id :=
  asking_unfailed h

theorem history_insert {pid : ProcessId} {status : Status} {now : Instant}
    (h : Storage.insertRegister table pid status now j = (.ok id, k)) :
    k.history = push j.history table id status :=
  history_append (asking_writes h)

end

section
variable [Storage σ] [RowStorage σ]

instance : RowStorage (Journaled σ) where
  Sound j := RowStorage.Sound j.storage
  rows j := RowStorage.rows j.storage
  sound hj h := RowStorage.sound hj (call_inside h)
  kept hj h := RowStorage.kept hj (call_inside h)
  quiet hj h := RowStorage.quiet hj (quiet_inside h)
  insert_ok hj h := RowStorage.insert_ok hj (asking_inside h)
  update_ok hj h := RowStorage.update_ok hj (asking_inside h)
  sweep_ok hj h := RowStorage.sweep_ok hj (asking_inside h)

instance [AscendingStorage σ] : AscendingStorage (Journaled σ) where
  insert_last hj h := AscendingStorage.insert_last (σ := σ) hj (asking_inside h)

/-- A status that is written to a row that is there, by a call that does not fail. -/
theorem update_there {status : Status} {date : Option Instant} {now : Instant} (sound : RowStorage.Sound j)
    (there : (RowStorage.rows j table id).isSome)
    (h : (Storage.updateResult table id status date now j).2 = k) (ok : k.failures = []) :
    k.history = push j.history table id status ∧ RowStorage.rows k = (RowStorage.rows j).set table id status := by
  subst h
  obtain ⟨-, found, hfound⟩ := asking_failures ok
  have hcall : Storage.updateResult table id status date now j =
      (.ok found, (Storage.updateResult table id status date now j).2) := Prod.ext hfound rfl
  obtain ⟨rfl, hrows⟩ := RowStorage.update_ok sound hcall
  have hwrites : (Storage.updateResult table id status date now j).2.writes =
      j.writes ++ [.status table id status true] :=
    (asking_writes hcall).trans (by simp only [Except.toOption, Option.getD_some, there])
  exact ⟨history_append hwrites, by rw [hrows, if_pos there]⟩

/-- The rows that there were when the journal was begun, with what was written since, make up the rows. -/
structure Legible (start : Rows) (j : Journaled σ) : Prop where
  sound : RowStorage.Sound j
  rows : ∀ table id, RowStorage.rows j table id = ((j.history table id).getLast?).or (start table id)

namespace Legible

variable {start : Rows}

theorem there (h : Legible start j) (hid : j.history table id ≠ []) : (RowStorage.rows j table id).isSome := by
  rw [h.rows, List.getLast?_eq_getLast_of_ne_nil hid]
  rfl

theorem quiet (h : Legible start j) (hq : Storage.Quiet j k) : Legible start k where
  sound := RowStorage.sound h.sound (.quiet hq)
  rows table id := by rw [RowStorage.quiet h.sound hq, h.rows, quiet_history hq]

theorem push (h : Legible start j) {status : Status} (sound : RowStorage.Sound k)
    (hhistory : k.history = Journaled.push j.history table id status)
    (hrows : RowStorage.rows k = (RowStorage.rows j).set table id status) : Legible start k where
  sound := sound
  rows t i := by
    rw [hhistory, hrows, Rows.set, Journaled.push]
    split
    · rw [List.getLast?_concat]
      rfl
    · exact h.rows t i

end Legible

end

end Journaled

end ProcessRuns
