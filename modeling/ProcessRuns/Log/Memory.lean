import ProcessRuns.Keyed
import ProcessRuns.Log.Storage

/-! # Logs in memory

A storage that keeps its tables as lists. Ids count up from one in each table and are never used again; every
operation is one step. -/

namespace ProcessRuns

/-- The registers of a pair of tables and their messages. -/
structure MemoryTable where
  lastRegister : RegisterId := 0
  lastMessage : Nat := 0
  /-- By increasing id. -/
  registers : List Register := []
  /-- By increasing id. -/
  messages : List LogMessage := []
deriving DecidableEq

namespace MemoryTable

/-- The register of an id. -/
def find? (t : MemoryTable) (id : RegisterId) : Option Register := t.registers.find? fun r => r.id = id

/-- There is a register of the id. -/
def contains (t : MemoryTable) (id : RegisterId) : Bool := (t.find? id).isSome

/-- Changes the register of an id. -/
def modify (t : MemoryTable) (id : RegisterId) (f : Register → Register) : MemoryTable :=
  { t with registers := t.registers.map fun r => if r.id = id then f r else r }

/-- Adds a register; its id is the next one. -/
def insertRegister (t : MemoryTable) (processId : ProcessId) (status : Status) (now : Instant) : MemoryTable :=
  let id := t.lastRegister + 1
  { t with
    lastRegister := id
    registers := t.registers ++ [⟨id, processId, status, now, none, now, none⟩] }

/-- Says how the last run of a register went. -/
def updateResult (t : MemoryTable) (id : RegisterId) (status : Status) (dataTimestamp : Option Instant)
    (now : Instant) : MemoryTable :=
  t.modify id fun r => { r with status, dataTimestamp, lastProcess := now }

/-- Adds a message to a register; its id is the next one. -/
def insertMessage (t : MemoryTable) (id : RegisterId) (type : MessageType) (description : String)
    (now : Instant) : MemoryTable :=
  let messageId := t.lastMessage + 1
  { t with
    lastMessage := messageId
    messages := t.messages ++ [⟨messageId, id, type, description, now⟩] }

/-- The latest of some instants. -/
def latest? : List Instant → Option Instant
  | [] => none
  | a :: rest => some (rest.foldl Instant.latest a)

/-- The registers of a process, oldest first. -/
def ofProcess (t : MemoryTable) (processId : ProcessId) : List Register :=
  t.registers.filter fun r => r.processId = processId

/-- The registers of a process from a place on, newest first. -/
def page (t : MemoryTable) (processId : ProcessId) (offset limit : Nat) : List Register :=
  ((t.ofProcess processId).reverse.drop offset).take limit

/-- The messages of some registers, oldest first. -/
def messagesOf (t : MemoryTable) (ids : List RegisterId) : List LogMessage :=
  t.messages.filter fun m => m.registerId ∈ ids

/-- Gives all registers of some statuses another one. -/
def updateStatus (t : MemoryTable) (old : List Status) (new : Status) : MemoryTable :=
  { t with registers := t.registers.map fun r => if r.status ∈ old then { r with status := new } else r }

end MemoryTable

/-- The tables that were created. -/
structure Memory where
  tables : Keyed LogTable MemoryTable := ∅
deriving DecidableEq

namespace Memory

instance : Inhabited Memory := ⟨{}⟩

/-- An operation on one table, which has to exist; where it fails the table stays as it was. -/
def onTable {α : Type} (table : LogTable) (f : MemoryTable → Except Failure (α × MemoryTable)) : Action Memory α :=
  fun s =>
    match s.tables.get? table with
    | none => (.error (.missingRelation table.process), s)
    | some t =>
      match f t with
      | .ok (x, t) => (.ok x, ⟨s.tables.set table t⟩)
      | .error e => (.error e, s)

/-- A question to one table. -/
def query {α : Type} (table : LogTable) (f : MemoryTable → α) : Action Memory α := fun s =>
  match s.tables.get? table with
  | none => (.error (.missingRelation table.process), s)
  | some t => (.ok (f t), s)

/-- Creates a pair of tables that are not there. -/
def init (table : LogTable) : Action Memory Unit := fun s =>
  match s.tables.get? table with
  | some _ => (.ok (), s)
  | none => (.ok (), ⟨s.tables.set table {}⟩)

/-- A change of an existing register; says whether there is one. -/
def onRegister (table : LogTable) (id : RegisterId) (f : MemoryTable → Register → Except Failure MemoryTable) :
    Action Memory Bool :=
  onTable table fun t =>
    match t.find? id with
    | some r => (f t r).map fun t => (true, t)
    | none => .ok (false, t)

instance : Storage Memory where
  init := init
  insertRegister table processId status now :=
    onTable table fun t => .ok (t.lastRegister + 1, t.insertRegister processId status now)
  updateResult table id status dataTimestamp now :=
    onRegister table id fun t _ => .ok (t.updateResult id status dataTimestamp now)
  insertMessage table id type description now :=
    onTable table fun t =>
      if t.contains id then .ok (some (t.lastMessage + 1), t.insertMessage id type description now)
      else .ok (none, t)
  appendValue table id tag value :=
    onRegister table id fun t r =>
      (Values.append r.data tag value).map fun data => t.modify id fun r => { r with data := some data }
  maxLastProcess table processId :=
    query table fun t => MemoryTable.latest? ((t.ofProcess processId).map (·.lastProcess))
  maxData table processId :=
    query table fun t => MemoryTable.latest? ((t.ofProcess processId).filterMap (·.dataTimestamp))
  registers table processId offset limit := query table fun t => t.page processId offset limit
  messages table ids := query table fun t => t.messagesOf ids
  updateStatus table old new :=
    onTable table fun t => .ok (t.registers.countP fun r => r.status ∈ old, t.updateStatus old new)

end Memory

end ProcessRuns
