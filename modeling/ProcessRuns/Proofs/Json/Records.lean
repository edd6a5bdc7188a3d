import ProcessRuns.Proofs.Json.Fields
import ProcessRuns.Proofs.Time.DateText
import ProcessRuns.Service.Package

/-! # Records as JSON text

Processes, registers, messages, logs and packages are read from their JSON text as they were when it was written, but
for leap seconds in the midst of a minute, which are read as the second after them. Their numbers are those of 64
bits; there is no condition on texts. -/

namespace ProcessRuns

open Json (Document ReadAs readAs_object readAs_word readAs_bool readAs_text readAs_choice readAs_option readAs_list)

/-- A number of 64 bits without a sign. -/
def IsWord (n : Nat) : Prop := n < 2 ^ 64

instance (n : Nat) : Decidable (IsWord n) := inferInstanceAs (Decidable (n < 2 ^ 64))

theorem IsWord.readAs {n : Nat} (h : IsWord n) : ReadAs (n : Json) (·.toWord?) n := readAs_word (Nat.le_pred_of_lt h)

/-! ### Parts of records -/

theorem Instant.readAs (a : Instant) : ReadAs a.toJson ofDocument? a.readBack := by
  obtain ⟨d, hd, hread⟩ := readAs_text a.text
  exact ⟨d, hd, by simp only [ofDocument?, hread, Option.bind_some, read?_text]⟩

theorem Instant.readAs_option (a : Option Instant) :
    ReadAs (.ofOption toJson a) (·.toOption? ofDocument?) (a.map readBack) :=
  Json.readAs_option (fun _ _ h => by cases h) fun x _ => x.readAs

theorem Status.readAs (s : Status) : ReadAs s.toJson ofDocument? s := readAs_choice (by cases s <;> rfl)

theorem MessageType.readAs (t : MessageType) : ReadAs t.toJson ofDocument? t := readAs_choice (by cases t <;> rfl)

/-! ### Processes -/

theorem Schedule.readAs {s : Schedule} (h : IsWord s.frequency) : ReadAs s.toJson ofDocument? s := by
  have hfrequency := h.readAs
  have hunit := readAs_text s.unit
  refine readAs_object ["frequency", "frequency_unit"] (by decide) (.refl _)
    (by simp [hfrequency.isSome_document?, hunit.isSome_document?]) fun d fields hfields hgives => ?_
  simp [ofDocument?, hfields, hgives.required "frequency" rfl hfrequency, hgives.required "frequency_unit" rfl hunit]

/-- The numbers of a process have 64 bits. -/
structure ProcessDefinition.Words (p : ProcessDefinition) : Prop where
  id : IsWord p.id
  instanceId : IsWord p.instanceId
  frequency : ∀ s ∈ p.schedule, IsWord s.frequency

theorem ProcessDefinition.readAs {p : ProcessDefinition} (h : p.Words) : ReadAs p.toJson ofDocument? p := by
  have hid := h.id.readAs
  have hinstance := h.instanceId.readAs
  have hactive := readAs_bool p.active
  obtain ⟨id, instanceId, active, schedule⟩ := p
  cases schedule with
  | none =>
    refine readAs_object ["id", "service_instance_id", "active", "schedule"] (by decide)
      (List.sublist_append_left _ ["schedule"])
      (by simp [hid.isSome_document?, hinstance.isSome_document?, hactive.isSome_document?])
      fun d fields hfields hgives => ?_
    simp [ofDocument?, hfields, hgives.required "id" rfl hid, hgives.required "service_instance_id" rfl hinstance,
      hgives.withDefault "active" rfl hactive, hgives.withDefault_of_none "schedule" rfl]
  | some s =>
    have hschedule : ReadAs s.toJson (·.toOption? Schedule.ofDocument?) (some s) :=
      readAs_option (f := Schedule.toJson) (g := fun s => s) (a := some s) (fun _ _ h => by cases h)
        fun s hs => Schedule.readAs (h.frequency s hs)
    refine readAs_object ["id", "service_instance_id", "active", "schedule"] (by decide) (.refl _)
      (by simp [hid.isSome_document?, hinstance.isSome_document?, hactive.isSome_document?, hschedule.isSome_document?])
      fun d fields hfields hgives => ?_
    simp [ofDocument?, hfields, hgives.required "id" rfl hid, hgives.required "service_instance_id" rfl hinstance,
      hgives.withDefault "active" rfl hactive, hgives.withDefault "schedule" rfl hschedule]

/-- The ids of a register have 64 bits. -/
structure Register.Words (r : Register) : Prop where
  id : IsWord r.id
  processId : IsWord r.processId

/-- The dates of a register. -/
def Register.dates (r : Register) : List Instant := r.start :: r.lastProcess :: r.dataTimestamp.toList

/-- What the text of a register is read as. -/
def Register.readBack (r : Register) : Register :=
  { r with
    start := r.start.readBack
    dataTimestamp := r.dataTimestamp.map Instant.readBack
    lastProcess := r.lastProcess.readBack }

theorem Register.readBack_eq_self_iff {r : Register} : r.readBack = r ↔ ∀ a ∈ r.dates, a.HasOwnText := by
  obtain ⟨id, processId, status, start, data?, last, data⟩ := r
  simp only [readBack, dates, mk.injEq, List.forall_mem_cons, Instant.readBack_eq_self_iff, true_and, and_true]
  cases data? with
  | none => simp
  | some date => simp [Instant.readBack_eq_self_iff, and_comm]

theorem Register.readAs {r : Register} (h : r.Words) : ReadAs r.toJson ofDocument? r.readBack := by
  have hid := h.id.readAs
  have hprocess := h.processId.readAs
  have hstatus := r.status.readAs
  have hstart := r.start.readAs
  have hdate := Instant.readAs_option r.dataTimestamp
  have hlast := r.lastProcess.readAs
  have hdata : ReadAs (.ofOption .text r.data) (·.toOption? (·.toText?)) r.data :=
    by simpa using readAs_option (g := fun s => s) (a := r.data) (fun _ _ h => by cases h) fun s _ => readAs_text s
  refine readAs_object
    ["id", "process_id", "status", "start_timestamp", "data_timestamp", "last_process_timestamp", "data"] (by decide)
    (.refl _) (by simp [hid.isSome_document?, hprocess.isSome_document?, hstatus.isSome_document?,
      hstart.isSome_document?,
      hdate.isSome_document?, hlast.isSome_document?, hdata.isSome_document?]) fun d fields hfields hgives => ?_
  simp [ofDocument?, hfields, hgives.required "id" rfl hid, hgives.required "process_id" rfl hprocess,
    hgives.required "status" rfl hstatus, hgives.required "start_timestamp" rfl hstart,
    hgives.optional "data_timestamp" rfl hdate, hgives.required "last_process_timestamp" rfl hlast,
    hgives.optional "data" rfl hdata, readBack]

/-- The ids of a message have 64 bits. -/
structure LogMessage.Words (m : LogMessage) : Prop where
  id : IsWord m.id
  registerId : IsWord m.registerId

/-- What the text of a message is read as. -/
def LogMessage.readBack (m : LogMessage) : LogMessage := { m with timestamp := m.timestamp.readBack }

theorem LogMessage.readBack_eq_self_iff {m : LogMessage} : m.readBack = m ↔ m.timestamp.HasOwnText := by
  obtain ⟨id, registerId, type, description, timestamp⟩ := m
  simp [readBack, Instant.readBack_eq_self_iff]

theorem LogMessage.readAs {m : LogMessage} (h : m.Words) : ReadAs m.toJson ofDocument? m.readBack := by
  have hid := h.id.readAs
  have hregister := h.registerId.readAs
  have htype := m.type.readAs
  have hdescription := readAs_text m.description
  have htimestamp := m.timestamp.readAs
  refine readAs_object ["id", "log_id", "message_type", "description", "timestamp"] (by decide) (.refl _)
    (by simp [hid.isSome_document?, hregister.isSome_document?, htype.isSome_document?, hdescription.isSome_document?,
      htimestamp.isSome_document?]) fun d fields hfields hgives => ?_
  simp [ofDocument?, hfields, hgives.required "id" rfl hid, hgives.required "log_id" rfl hregister,
    hgives.required "message_type" rfl htype, hgives.required "description" rfl hdescription,
    hgives.required "timestamp" rfl htimestamp, readBack]

/-- The ids of a log have 64 bits. -/
structure LogEntry.Words (e : LogEntry) : Prop where
  register : e.register.Words
  messages : ∀ m ∈ e.messages, m.Words

/-- The dates of a log, those of its messages among them. -/
def LogEntry.dates (e : LogEntry) : List Instant := e.register.dates ++ e.messages.map (·.timestamp)

/-- What the text of a log is read as. -/
def LogEntry.readBack (e : LogEntry) : LogEntry := ⟨e.register.readBack, e.messages.map LogMessage.readBack⟩

theorem LogEntry.readBack_eq_self_iff {e : LogEntry} : e.readBack = e ↔ ∀ a ∈ e.dates, a.HasOwnText := by
  obtain ⟨r, messages⟩ := e
  have hmessages : messages.map LogMessage.readBack = messages ↔ ∀ m ∈ messages, m.timestamp.HasOwnText := by
    simp only [← LogMessage.readBack_eq_self_iff]
    have hsame := List.map_inj_left (l := messages) (f := LogMessage.readBack) (g := fun m => m)
    rwa [List.map_id'] at hsame
  simp only [readBack, dates, mk.injEq, Register.readBack_eq_self_iff, hmessages, List.forall_mem_append,
    List.forall_mem_map]

theorem LogEntry.readAs {e : LogEntry} (h : e.Words) : ReadAs e.toJson ofDocument? e.readBack := by
  have hregister := Register.readAs h.register
  have hmessages := readAs_list fun m hm => LogMessage.readAs (h.messages m hm)
  refine readAs_object ["register", "messages"] (by decide) (.refl _)
    (by simp [hregister.isSome_document?, hmessages.isSome_document?]) fun d fields hfields hgives => ?_
  simp [ofDocument?, hfields, hgives.required "register" rfl hregister, hgives.required "messages" rfl hmessages,
    readBack]

/-! ### Packages -/

/-- The ids of a package have 64 bits. -/
structure Package.Words (p : Package) : Prop where
  processId : IsWord p.processId
  registerId : IsWord p.registerId

/-- What the text of a package is read as. -/
def Package.readBack (p : Package) : Package := { p with executionDate := p.executionDate.readBack }

theorem Package.readBack_eq_self_iff {p : Package} : p.readBack = p ↔ p.executionDate.HasOwnText := by
  obtain ⟨processId, registerId, date, onQueue⟩ := p
  simp [readBack, Instant.readBack_eq_self_iff]

theorem Package.readAs {p : Package} (h : p.Words) : ReadAs p.toJson ofDocument? p.readBack := by
  have hprocess := h.processId.readAs
  have hregister := h.registerId.readAs
  have hdate := p.executionDate.readAs
  have hqueue := readAs_bool p.onQueue
  refine readAs_object ["process_id", "register_id", "execution_date", "on_queue"] (by decide) (.refl _)
    (by simp [hprocess.isSome_document?, hregister.isSome_document?, hdate.isSome_document?, hqueue.isSome_document?])
    fun d fields hfields hgives => ?_
  simp [ofDocument?, hfields, hgives.required "process_id" rfl hprocess, hgives.required "register_id" rfl hregister,
    hgives.required "execution_date" rfl hdate, hgives.required "on_queue" rfl hqueue, readBack]

/-! ### All records -/

end ProcessRuns
