import ProcessRuns.Log.Storage

/-! # The process log

Bookkeeping of executions over a storage. A log writes to the tables it has selected, and does nothing before
it has selected any. Selecting tables repairs what an earlier service left in them: an execution that had
started was interrupted, one that was queued was never executed. -/

namespace ProcessRuns

/-- A process log is known by its tables; copies of it go on with the tables they were taken with. -/
structure Logger where
  table : Option LogTable := none
deriving DecidableEq

namespace Logger

variable {σ α : Type} [Storage σ]

/-- The tag of the times at which a run started. -/
def startTag : String := "processing_start_time"

/-- The tag of the times at which a run ended. -/
def endTag : String := "processing_end_time"

/-- Tables were selected. -/
def isValid (l : Logger) : Bool := l.table.isSome

/-- The name of the table that is in use. -/
def tableName (l : Logger) : Option String := l.table.map (·.process)

/-- Text as servers store it, without the character NUL. -/
def withoutNul (text : String) : String := String.ofList (text.toList.filter fun c => c ≠ '\x00')

/-- Does something with the table in use. -/
def onTable (l : Logger) (f : LogTable → Action σ α) : Action σ α :=
  match l.table with
  | some table => f table
  | none => .fail .tableNotSet

/-- A write to a register that has to exist. -/
def expect (table : LogTable) (id : RegisterId) (write : Action σ Bool) : Action σ Unit := do
  if ← write then pure () else .fail (.unknownRegister id table.process)

/-- Opens a register with the status of a start. -/
def start (l : Logger) (processId : ProcessId) (now : Instant) : Action σ RegisterId :=
  l.onTable fun table => Storage.insertRegister table processId .start now

/-- Writes a register's status; without a data timestamp the register has none afterwards. -/
def result (l : Logger) (status : Status) (dataTimestamp : Option Instant) (id : RegisterId) (now : Instant) :
    Action σ Unit :=
  l.onTable fun table => expect table id (Storage.updateResult table id status dataTimestamp now)

/-- Attaches a message to a register. -/
def log (l : Logger) (type : MessageType) (description : String) (id : RegisterId) (now : Instant) :
    Action σ Unit :=
  l.onTable fun table => expect table id do
    return (← Storage.insertMessage table id type (withoutNul description) now).isSome

/-- Puts a value at the end of a register's list under a tag. -/
def addValue (l : Logger) (tag value : String) (id : RegisterId) : Action σ Unit :=
  l.onTable fun table => expect table id (Storage.appendValue table id tag (withoutNul value))

/-- Adds the time at which the run started to the values of its register. -/
def setStart (l : Logger) (time : Instant) (id : RegisterId) : Action σ Unit :=
  l.addValue startTag time.millisText id

/-- Adds the time at which the run ended to the values of its register. -/
def setEnd (l : Logger) (time : Instant) (id : RegisterId) : Action σ Unit :=
  l.addValue endTag time.millisText id

/-- When a result of the process was last written, none if it never ran. -/
def lastProcess (l : Logger) (processId : ProcessId) : Action σ (Option Instant) :=
  l.onTable fun table => Storage.maxLastProcess table processId

/-- The newest data timestamp of the process, none if no run gave one. -/
def lastData (l : Logger) (processId : ProcessId) : Action σ (Option Instant) :=
  l.onTable fun table => Storage.maxData table processId

/-- Gives each register its own messages. -/
def attach : List Register → List LogMessage → List LogEntry
  | [], _ => []
  | r :: rest, messages =>
    let (own, others) := messages.partition fun m => m.registerId = r.id
    ⟨r, own⟩ :: attach rest others

/-- The largest number of rows that is asked for. -/
def limitMax : Nat := 0xFFFFFFFFFFFFFFFF

/-- The registers of a process between two positions, newest first, with their messages; the newest register
has position 0, and the positions may come in either order. -/
def logs (l : Logger) (processId : ProcessId) (a b : Nat) : Action σ (List LogEntry) :=
  l.onTable fun table => do
    -- Both positions belong to the page; a limit that does not fit is cut.
    let registers ← Storage.registers table processId (min a b) (min (max a b - min a b + 1) limitMax)
    let messages ← Storage.messages table (registers.map (·.id))
    return attach registers messages

/-- Gives every register in one of the old statuses the new one; counts them. -/
def updateStatus (l : Logger) (old : List Status) (new : Status) : Action σ Nat :=
  l.onTable fun table => Storage.updateStatus table old new

/-- Closes the registers that an earlier service left open. -/
def repair (l : Logger) : Action σ Unit := do
  let _ ← l.updateStatus [.start] .interrupted
  let _ ← l.updateStatus [.onQueue] .notExecuted
  return ()

/-- Selects the tables of a name: creates them where they are missing, turns the log to them, and repairs
them. A failure of the repair leaves the log with the new tables. -/
def select (name : String) : Action (Logger × σ) Unit := fun (l, s) =>
  match LogTable.ofName name with
  | .error e => (.error e, l, s)
  | .ok table =>
    match Storage.init table s with
    | (.error e, s) => (.error e, l, s)
    | (.ok (), s) =>
      let l : Logger := ⟨some table⟩
      let (r, s) := l.repair s
      (r, l, s)

/-- A log that has selected the tables of a name. -/
def opened (name : String) : Action σ Logger := fun s =>
  match select name ((⟨none⟩ : Logger), s) with
  | (.ok (), l, s) => (.ok l, s)
  | (.error e, _, s) => (.error e, s)

end Logger

end ProcessRuns
