import ProcessRuns.Proofs.Log.Rows

/-! # Sequences of operations

What the tables in memory hold after any calls to the storage. The registers of a table are those that were added to
it, in that order, and likewise its messages; both are numbered from one without a gap, and each message belongs to a
register of its own table. -/

namespace ProcessRuns

/-- A call to a storage, with what it is given. -/
inductive Operation where
  | init (table : LogTable)
  | insertRegister (table : LogTable) (processId : ProcessId) (status : Status) (now : Instant)
  | updateResult (table : LogTable) (id : RegisterId) (status : Status) (dataTimestamp : Option Instant) (now : Instant)
  | insertMessage (table : LogTable) (id : RegisterId) (type : MessageType) (description : String) (now : Instant)
  | appendValue (table : LogTable) (id : RegisterId) (tag value : String)
  | maxLastProcess (table : LogTable) (processId : ProcessId)
  | maxData (table : LogTable) (processId : ProcessId)
  | registers (table : LogTable) (processId : ProcessId) (offset limit : Nat)
  | messages (table : LogTable) (ids : List RegisterId)
  | updateStatus (table : LogTable) (old : List Status) (new : Status)

/-- What the calls return, one case for each type of result. -/
inductive Answer where
  | done
  | added (id : RegisterId)
  | found (found : Bool)
  | numbered (id : Option Nat)
  | time (time : Option Instant)
  | registers (registers : List Register)
  | messages (messages : List LogMessage)
  | count (count : Nat)

namespace Operation

/-- The table that an operation is about. -/
def table : Operation → LogTable
  | init table | insertRegister table .. | updateResult table .. | insertMessage table .. | appendValue table ..
  | maxLastProcess table _ | maxData table _ | registers table .. | messages table _ | updateStatus table .. => table

/-- Calls the storage. -/
def perform {σ : Type} [Storage σ] : Operation → Action σ Answer
  | init table => (fun _ => .done) <$> Storage.init table
  | insertRegister table processId status now => .added <$> Storage.insertRegister table processId status now
  | updateResult table id status dataTimestamp now =>
    .found <$> Storage.updateResult table id status dataTimestamp now
  | insertMessage table id type description now => .numbered <$> Storage.insertMessage table id type description now
  | appendValue table id tag value => .found <$> Storage.appendValue table id tag value
  | maxLastProcess table processId => .time <$> Storage.maxLastProcess table processId
  | maxData table processId => .time <$> Storage.maxData table processId
  | registers table processId offset limit => .registers <$> Storage.registers table processId offset limit
  | messages table ids => .messages <$> Storage.messages table ids
  | updateStatus table old new => .count <$> Storage.updateStatus table old new

/-- A storage after some calls. -/
def after {σ : Type} [Storage σ] (s : σ) (operations : List Operation) : σ :=
  operations.foldl (fun s o => (o.perform s).2) s

end Operation

/-- A call that was made and what it returned. -/
abbrev Exchange : Type := Operation × Except Failure Answer

/-- A failure, or an answer that what was asked for is not there. -/
def refused : Except Failure Answer → Bool
  | .error _ | .ok (.found false) | .ok (.numbered none) | .ok (.time none) => true
  | .ok _ => false

/-- The register that a call has added to a table, as it was added. -/
def Exchange.register? (table : LogTable) : Exchange → Option Register
  | (.insertRegister other processId status now, .ok (.added id)) =>
    if other = table then some ⟨id, processId, status, now, none, now, none⟩ else none
  | _ => none

/-- The message that a call has added to a table. -/
def Exchange.message? (table : LogTable) : Exchange → Option LogMessage
  | (.insertMessage other id type description now, .ok (.numbered (some number))) =>
    if other = table then some ⟨number, id, type, description, now⟩ else none
  | _ => none

/-- What stays as it is for as long as a register is kept. -/
def Register.origin (r : Register) : RegisterId × ProcessId × Instant := (r.id, r.processId, r.start)

namespace Memory

/-- The calls with what they return. -/
def transcript (m : Memory) : List Operation → List Exchange
  | [] => []
  | o :: rest => (o, (o.perform m).1) :: transcript (o.perform m).2 rest

/-- A table; one that was not created holds nothing. -/
def tableAt (m : Memory) (table : LogTable) : MemoryTable := (m.tables.get? table).getD {}

end Memory

/-! ### What one call does to a table -/

namespace MemoryTable

variable {t u v : MemoryTable} {added more : List Register} {notes others : List LogMessage}

theorem contains_iff (t : MemoryTable) (id : RegisterId) : t.contains id = true ↔ id ∈ t.registers.map (·.id) := by
  simp [contains, find?]

theorem ids_of_origins (t : MemoryTable) :
    t.registers.map (·.id) = (t.registers.map Register.origin).map Prod.fst := by
  rw [List.map_map]
  rfl

/-- From the first table to the second by some registers and messages that were added. -/
structure Grown (t u : MemoryTable) (added : List Register) (notes : List LogMessage) : Prop where
  origins : u.registers.map Register.origin = t.registers.map Register.origin ++ added.map Register.origin
  messages : u.messages = t.messages ++ notes
  lastRegister : u.lastRegister = t.lastRegister + added.length
  lastMessage : u.lastMessage = t.lastMessage + notes.length
  ids : added.map (·.id) = List.range' (t.lastRegister + 1) added.length
  noteIds : notes.map (·.id) = List.range' (t.lastMessage + 1) notes.length
  attached : ∀ note ∈ notes, u.contains note.registerId

theorem Grown.refl (t : MemoryTable) : Grown t t [] [] := by
  constructor <;> simp

theorem Grown.contains (h : Grown t u added notes) {id : RegisterId} (hid : t.contains id) : u.contains id := by
  rw [contains_iff, ids_of_origins] at hid ⊢
  rw [h.origins, List.map_append]
  exact List.mem_append_left _ hid

theorem Grown.trans (h : Grown t u added notes) (h' : Grown u v more others) :
    Grown t v (added ++ more) (notes ++ others) where
  origins := by rw [h'.origins, h.origins, List.map_append, List.append_assoc]
  messages := by rw [h'.messages, h.messages, List.append_assoc]
  lastRegister := by rw [h'.lastRegister, h.lastRegister, List.length_append, Nat.add_assoc]
  lastMessage := by rw [h'.lastMessage, h.lastMessage, List.length_append, Nat.add_assoc]
  ids := by
    rw [List.map_append, h.ids, h'.ids, h.lastRegister, List.length_append, ← List.range'_append_1]
    congr 2
    omega
  noteIds := by
    rw [List.map_append, h.noteIds, h'.noteIds, h.lastMessage, List.length_append, ← List.range'_append_1]
    congr 2
    omega
  attached := by
    intro note hnote
    rcases List.mem_append.mp hnote with hnote | hnote
    · exact h'.contains (h.attached note hnote)
    · exact h'.attached note hnote

/-- Registers that change, each but for its origin. -/
theorem grown_map {f : Register → Register} (hf : ∀ r, (f r).origin = r.origin) (t : MemoryTable) :
    Grown t { t with registers := t.registers.map f } [] [] := by
  constructor <;> simp [hf]

theorem grown_modify {f : Register → Register} (hf : ∀ r, (f r).origin = r.origin) (t : MemoryTable) (id : RegisterId) :
    Grown t (t.modify id f) [] [] :=
  grown_map (fun r => by split <;> simp [hf]) t

theorem grown_insertRegister (t : MemoryTable) (pid : ProcessId) (status : Status) (now : Instant) :
    Grown t (t.insertRegister pid status now) [⟨t.lastRegister + 1, pid, status, now, none, now, none⟩] [] := by
  constructor <;> simp [insertRegister]

theorem grown_insertMessage {id : RegisterId} (hid : t.contains id) (type : MessageType) (description : String)
    (now : Instant) :
    Grown t (t.insertMessage id type description now) [] [⟨t.lastMessage + 1, id, type, description, now⟩] := by
  constructor <;> simp [insertMessage]
  exact hid

/-- A table with some registers and messages, as they were added, and no others. -/
structure Filled (t : MemoryTable) (added : List Register) (notes : List LogMessage) : Prop where
  origins : t.registers.map Register.origin = added.map Register.origin
  messages : t.messages = notes
  ids : t.registers.map (·.id) = List.range' 1 t.lastRegister
  found : ∀ r ∈ t.registers, t.find? r.id = some r
  noteIds : t.messages.map (·.id) = List.range' 1 t.lastMessage
  attached : ∀ note ∈ t.messages, t.contains note.registerId

theorem Grown.filled (h : Grown {} t added notes) : t.Filled added notes := by
  have horigins : t.registers.map Register.origin = added.map Register.origin := h.origins
  have hmessages : t.messages = notes := h.messages
  have hids : t.Numbered := by
    have hlast : t.lastRegister = added.length := by simpa using h.lastRegister
    have hadded : (added.map Register.origin).map Prod.fst = List.range' 1 added.length := by
      rw [List.map_map]
      exact h.ids.trans (by simp)
    rw [Numbered, ids_of_origins, horigins, hadded, hlast]
  have hnotes : t.messages.map (·.id) = List.range' 1 t.lastMessage := by
    have hlast : t.lastMessage = notes.length := by simpa using h.lastMessage
    rw [hmessages, hlast]
    simpa using h.noteIds
  exact ⟨horigins, hmessages, hids, fun r => hids.find?_mem, hnotes, hmessages ▸ h.attached⟩

end MemoryTable

/-! ### What one call does to the tables -/

@[simp] theorem Action.map_apply {σ α β : Type} (f : α → β) (a : Action σ α) (s : σ) :
    (f <$> a) s = ((a s).1.map f, (a s).2) := by
  show Action.andThen a (fun x => pure (f x)) s = _
  unfold Action.andThen
  split <;> rename_i heq <;> simp [heq, Except.map]

namespace Memory

variable {m n : Memory} {table other : LogTable} {t : MemoryTable}

theorem tableAt_eq (h : m.tables.get? table = some t) : m.tableAt table = t := by rw [tableAt, h, Option.getD_some]

theorem tableAt_congr (h : m.tables.get? table = n.tables.get? table) : m.tableAt table = n.tableAt table := by
  rw [tableAt, tableAt, h]

theorem onTable_elsewhere {α : Type} (f : MemoryTable → Except Failure (α × MemoryTable)) (h : other ≠ table)
    (m : Memory) : (onTable table f m).2.tables.get? other = m.tables.get? other := by
  rcases onTable_cases table f m with ⟨e, hcall⟩ | ⟨t, x, u, -, -, hcall⟩ <;> rw [hcall]
  exact Keyed.get?_set_of_ne _ _ h

theorem onTable_created {α : Type} (table : LogTable) (f : MemoryTable → Except Failure (α × MemoryTable))
    (m : Memory) :
    ((onTable table f m).2.tables.get? table).isSome ↔ (m.tables.get? table).isSome := by
  rcases onTable_cases table f m with ⟨e, hcall⟩ | ⟨t, x, u, ht, -, hcall⟩ <;> rw [hcall]
  simp [ht]

/-- The table after an operation on it, with what its result says of registers and messages that were added. -/
theorem onTable_grown {α : Type} {f : MemoryTable → Except Failure (α × MemoryTable)} {m : Memory}
    (registers : Except Failure α → List Register) (messages : Except Failure α → List LogMessage)
    (failed : ∀ e, registers (.error e) = [] ∧ messages (.error e) = [])
    (each : ∀ t x u, f t = .ok (x, u) → MemoryTable.Grown t u (registers (.ok x)) (messages (.ok x))) :
    MemoryTable.Grown (m.tableAt table) ((onTable table f m).2.tableAt table) (registers (onTable table f m).1)
      (messages (onTable table f m).1) := by
  rcases onTable_cases table f m with ⟨e, hcall⟩ | ⟨t, x, u, ht, hf, hcall⟩ <;> rw [hcall]
  · rw [(failed e).1, (failed e).2]
    exact .refl _
  · have hback : tableAt ⟨m.tables.set table u⟩ table = u := tableAt_eq (Keyed.get?_set_self ..)
    rw [tableAt_eq ht, hback]
    exact each t x u hf

theorem change_cases {id : RegisterId} {f : MemoryTable → Register → Except Failure MemoryTable}
    {t u : MemoryTable} {x : Bool}
    (h : (match t.find? id with
      | some r => (f t r).map fun t => (true, t)
      | none => .ok (false, t)) = .ok (x, u)) : (x = true ∧ ∃ r, f t r = .ok u) ∨ (x = false ∧ u = t) := by
  cases hr : t.find? id with
  | none =>
    simp only [hr, Except.ok.injEq, Prod.mk.injEq] at h
    exact Or.inr ⟨h.1.symm, h.2.symm⟩
  | some r =>
    simp only [hr] at h
    cases hf : f t r with
    | error e => simp [hf, Except.map] at h
    | ok changed =>
      simp only [hf, Except.map, Except.ok.injEq, Prod.mk.injEq] at h
      obtain ⟨rfl, rfl⟩ := h
      exact Or.inl ⟨rfl, r, hf⟩

/-- A change of one register adds nothing. -/
theorem onRegister_grown {id : RegisterId} {f : MemoryTable → Register → Except Failure MemoryTable}
    (each : ∀ t r u, f t r = .ok u → MemoryTable.Grown t u [] []) (m : Memory) :
    MemoryTable.Grown (m.tableAt table) ((onRegister table id f m).2.tableAt table) [] [] := by
  refine onTable_grown (fun _ => []) (fun _ => []) (fun _ => ⟨rfl, rfl⟩) fun t x u hf => ?_
  rcases change_cases hf with ⟨-, r, hchanged⟩ | ⟨-, rfl⟩
  · exact each t r u hchanged
  · exact .refl _

/-- An operation that puts the same table back whenever its result is of some kind. -/
theorem onTable_unchanged {α : Type} {f : MemoryTable → Except Failure (α × MemoryTable)}
    (kind : Except Failure α → Prop)
    (each : ∀ t x u, f t = .ok (x, u) → kind (.ok x) → u = t) (h : kind (onTable table f m).1) :
    (onTable table f m).2 = m := by
  rcases onTable_cases table f m with ⟨e, hcall⟩ | ⟨t, x, u, ht, hf, hcall⟩ <;> rw [hcall] at h ⊢
  rw [each t x u hf h, Keyed.set_same ht]

theorem onRegister_unchanged {id : RegisterId} {f : MemoryTable → Register → Except Failure MemoryTable}
    (h : refused ((onRegister table id f m).1.map Answer.found)) : (onRegister table id f m).2 = m := by
  refine onTable_unchanged (fun r => refused (r.map Answer.found)) (fun t x u hf hx => ?_) h
  rcases change_cases hf with ⟨rfl, -⟩ | ⟨-, rfl⟩
  · cases hx
  · rfl

theorem init_cases (table : LogTable) (m : Memory) :
    (∃ t, m.tables.get? table = some t) ∧ Storage.init table m = (.ok (), m) ∨
      m.tables.get? table = none ∧ Storage.init table m = (.ok (), ⟨m.tables.set table {}⟩) := by
  cases ht : m.tables.get? table with
  | some t => exact Or.inl ⟨⟨t, rfl⟩, by simp [Storage.init, Memory.init, ht]⟩
  | none => exact Or.inr ⟨rfl, by simp [Storage.init, Memory.init, ht]⟩

end Memory

namespace Operation

variable {table : LogTable} {o : Operation}

/-- A call does nothing to other tables than its own. -/
theorem perform_elsewhere (h : table ≠ o.table) (m : Memory) :
    (o.perform m).2.tables.get? table = m.tables.get? table := by
  cases o <;> simp only [perform, Action.map_apply]
  case init own =>
    rcases Memory.init_cases own m with ⟨-, hcall⟩ | ⟨-, hcall⟩ <;> rw [hcall]
    exact Keyed.get?_set_of_ne _ _ h
  case maxLastProcess | maxData | registers | messages => exact congrArg (·.tables.get? table) (Memory.query_snd ..)
  case insertRegister | updateResult | insertMessage | appendValue | updateStatus =>
    exact Memory.onTable_elsewhere _ h m

theorem register?_elsewhere (h : table ≠ o.table) (answer : Except Failure Answer) :
    Exchange.register? table (o, answer) = none := by
  unfold Exchange.register?
  split
  · rename_i heq
    cases heq
    exact if_neg (Ne.symm h)
  · rfl

theorem message?_elsewhere (h : table ≠ o.table) (answer : Except Failure Answer) :
    Exchange.message? table (o, answer) = none := by
  unfold Exchange.message?
  split
  · rename_i heq
    cases heq
    exact if_neg (Ne.symm h)
  · rfl

/-- A call to a table adds to it the register or the message that it has answered for, and nothing else. -/
theorem perform_grown (o : Operation) (m : Memory) (table : LogTable) :
    MemoryTable.Grown (m.tableAt table) ((o.perform m).2.tableAt table)
      (Exchange.register? table (o, (o.perform m).1)).toList (Exchange.message? table (o, (o.perform m).1)).toList := by
  by_cases htable : table = o.table
  case neg =>
    rw [register?_elsewhere htable, message?_elsewhere htable, Memory.tableAt_congr (perform_elsewhere htable m)]
    exact .refl _
  subst htable
  cases o <;> simp only [perform, Action.map_apply, Operation.table]
  case init own =>
    rcases Memory.init_cases own m with ⟨-, hcall⟩ | ⟨hnone, hcall⟩ <;> rw [hcall]
    · exact .refl _
    · have hnew : Memory.tableAt ⟨m.tables.set own {}⟩ own = m.tableAt own := by
        rw [Memory.tableAt, Memory.tableAt, Keyed.get?_set_self, hnone]
        rfl
      rw [hnew]
      exact .refl _
  case insertRegister own pid status now =>
    refine Memory.onTable_grown
      (fun r => (Exchange.register? own (insertRegister own pid status now, r.map Answer.added)).toList)
      (fun r => (Exchange.message? own (insertRegister own pid status now, r.map Answer.added)).toList)
      (fun _ => ⟨rfl, rfl⟩) fun t x u hf => ?_
    cases hf
    simpa [Exchange.register?, Exchange.message?, Except.map] using MemoryTable.grown_insertRegister t pid status now
  -- Without its register a message is not put down, and nothing is answered that would count as one.
  case insertMessage own id type description now =>
    refine Memory.onTable_grown
      (fun r => (Exchange.register? own (insertMessage own id type description now, r.map Answer.numbered)).toList)
      (fun r => (Exchange.message? own (insertMessage own id type description now, r.map Answer.numbered)).toList)
      (fun _ => ⟨rfl, rfl⟩) fun t x u hf => ?_
    split at hf <;> cases hf
    · rename_i hid
      simpa [Exchange.register?, Exchange.message?, Except.map]
        using MemoryTable.grown_insertMessage hid type description now
    · exact .refl _
  case updateResult own id status date now =>
    refine Memory.onRegister_grown (fun t r u hf => ?_) m
    cases hf
    exact MemoryTable.grown_modify (f := fun r => { r with status, dataTimestamp := date, lastProcess := now })
      (fun _ => rfl) t id
  -- A value that does not parse leaves the register alone, and the call fails.
  case appendValue own id tag value =>
    refine Memory.onRegister_grown (fun t r u hf => ?_) m
    cases hd : Values.append r.data tag value with
    | error e => simp [hd, Except.map] at hf
    | ok data =>
      simp only [hd, Except.map, Except.ok.injEq] at hf
      exact hf ▸ MemoryTable.grown_modify (f := fun r => { r with data := some data }) (fun _ => rfl) t id
  case updateStatus own old new =>
    refine Memory.onTable_grown (fun _ => []) (fun _ => []) (fun _ => ⟨rfl, rfl⟩)
      fun t x u hf => ?_
    cases hf
    exact MemoryTable.grown_map (fun r => by split <;> rfl) t
  case maxLastProcess own _ | maxData own _ | registers own _ _ _ | messages own _ =>
    exact (congrArg (fun n => MemoryTable.Grown _ (Memory.tableAt n own) [] []) (Memory.query_snd own _ m)).mpr
      (.refl _)

/-- A call that returns an error or that it has found nothing has changed nothing. -/
theorem perform_refused {o : Operation} {m : Memory} (h : refused (o.perform m).1) : (o.perform m).2 = m := by
  cases o <;> simp only [perform, Action.map_apply] at h ⊢
  case init own =>
    rcases Memory.init_cases own m with ⟨-, hcall⟩ | ⟨-, hcall⟩ <;> rw [hcall] at h ⊢
    cases h
  case insertRegister own pid status now =>
    refine Memory.onTable_unchanged (fun r => refused (r.map Answer.added)) (fun t x u _ hx => ?_) h
    cases hx
  case insertMessage own id type description now =>
    refine Memory.onTable_unchanged (fun r => refused (r.map Answer.numbered)) (fun t x u hf hx => ?_) h
    split at hf <;> cases hf
    · cases hx
    · rfl
  case updateResult own id status date now => exact Memory.onRegister_unchanged h
  case appendValue own id tag value => exact Memory.onRegister_unchanged h
  case updateStatus own old new =>
    refine Memory.onTable_unchanged (fun r => refused (r.map Answer.count)) (fun t x u _ hx => ?_) h
    cases hx
  case maxLastProcess | maxData | registers | messages => exact Memory.query_snd ..

/-- Only a table that was created is there. -/
theorem perform_created (o : Operation) (m : Memory) (table : LogTable) :
    ((o.perform m).2.tables.get? table).isSome ↔ (m.tables.get? table).isSome ∨ o = .init table := by
  by_cases htable : table = o.table
  case neg =>
    have hne : o ≠ .init table := fun h => htable (by rw [h]; rfl)
    simp [perform_elsewhere htable, hne]
  subst htable
  cases o <;> simp only [perform, Action.map_apply, Operation.table, reduceCtorEq, or_false, or_true, iff_true]
  case init own =>
    rcases Memory.init_cases own m with ⟨⟨t, ht⟩, hcall⟩ | ⟨-, hcall⟩ <;> rw [hcall]
    · simp [ht]
    · simp
  case maxLastProcess own _ | maxData own _ | registers own _ _ _ | messages own _ =>
    exact Eq.to_iff (congrArg (fun n => (n.tables.get? own).isSome = true) (Memory.query_snd own _ m))
  case insertRegister | updateResult | insertMessage | appendValue | updateStatus => exact Memory.onTable_created ..

end Operation

/-! ### What any calls do -/

namespace Memory

theorem after_grown (operations : List Operation) (m : Memory) (table : LogTable) :
    MemoryTable.Grown (m.tableAt table) ((Operation.after m operations).tableAt table)
      ((m.transcript operations).filterMap (Exchange.register? table))
      ((m.transcript operations).filterMap (Exchange.message? table)) := by
  induction operations generalizing m with
  | nil => exact .refl _
  | cons o rest ih =>
    have hsplit : ∀ {α : Type} (f : Exchange → Option α), (m.transcript (o :: rest)).filterMap f =
        (f (o, (o.perform m).1)).toList ++ (transcript (o.perform m).2 rest).filterMap f := by
      intro α f
      rw [transcript, List.filterMap_cons]
      cases f (o, (o.perform m).1) <;> rfl
    rw [hsplit, hsplit]
    exact (o.perform_grown m table).trans (ih (o.perform m).2)

theorem after_created (operations : List Operation) (m : Memory) (table : LogTable) :
    ((Operation.after m operations).tables.get? table).isSome ↔ (m.tables.get? table).isSome ∨
    .init table ∈ operations := by
  induction operations generalizing m with
  | nil => simp [Operation.after]
  | cons o rest ih =>
    refine (ih (o.perform m).2).trans ?_
    rw [o.perform_created, List.mem_cons, or_assoc, eq_comm (a := Operation.init table)]

theorem after_filled (operations : List Operation) {table : LogTable} {t : MemoryTable}
    (ht : (Operation.after ({} : Memory) operations).tables.get? table = some t) :
    t.Filled ((transcript {} operations).filterMap (Exchange.register? table))
      ((transcript {} operations).filterMap (Exchange.message? table)) := by
  have hgrown := after_grown operations {} table
  rw [tableAt_eq ht] at hgrown
  exact hgrown.filled

/-- After any calls on the empty memory the tables are those that were created. Each holds the registers and the
messages that calls have added to it, in the order of these calls and numbered from one; a message belongs to one of
the registers; and whatever is called next, they stay with what they were added with. To create a table once more
changes nothing, nor does a call that is refused, and no call makes a difference to another table than its own. -/
theorem tables_hold_what_was_added (operations : List Operation) :
    let m := Operation.after ({} : Memory) operations
    let entries := ({} : Memory).transcript operations
    (∀ table, (m.tables.get? table).isSome ↔ .init table ∈ operations) ∧
    (∀ table t, m.tables.get? table = some t →
      t.Filled (entries.filterMap (Exchange.register? table)) (entries.filterMap (Exchange.message? table)) ∧
      ∀ more, ∃ u, (Operation.after m more).tables.get? table = some u ∧
        t.registers.map Register.origin <+: u.registers.map Register.origin ∧ t.messages <+: u.messages) ∧
    (∀ table, (m.tables.get? table).isSome → (Operation.init table).perform m = (.ok .done, m)) ∧
    (∀ (o : Operation) table, table ≠ o.table → (o.perform m).2.tables.get? table = m.tables.get? table) ∧
    ∀ o : Operation, refused (o.perform m).1 → (o.perform m).2 = m := by
  intro m entries
  refine ⟨fun table => ?_, fun table t ht => ⟨after_filled operations ht, fun more => ?_⟩, fun table htable => ?_,
    fun o table htable => Operation.perform_elsewhere htable m, fun o => Operation.perform_refused⟩
  · simpa [Keyed.get?_empty] using after_created operations {} table
  · obtain ⟨u, hu⟩ := Option.isSome_iff_exists.mp
      ((after_created more m table).mpr (Or.inl (Option.isSome_iff_exists.mpr ⟨t, ht⟩)))
    have hgrown := after_grown more m table
    rw [tableAt_eq ht, tableAt_eq hu] at hgrown
    exact ⟨u, hu, ⟨_, hgrown.origins.symm⟩, ⟨_, hgrown.messages.symm⟩⟩
  · rcases init_cases table m with ⟨-, hcall⟩ | ⟨hnone, -⟩
    · rw [Operation.perform, Action.map_apply, hcall]
      rfl
    · rw [hnone] at htable
      cases htable

end Memory

end ProcessRuns
