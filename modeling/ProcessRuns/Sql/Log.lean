import ProcessRuns.Sql.LogStatements
import ProcessRuns.Sql.Rows

/-! # Logs on a server

A storage that keeps its rows on a server. Ids are checked before anything is sent. -/

namespace ProcessRuns.Sql

open Session

/-- The id of the row that was inserted. -/
def insertedId (statement : Statement) : Action Session Nat := do
  .ofExcept (readOnlyId (← fetchOne statement))

/-- The latest instant in a column, among the registers of a process. -/
def latestInstant (t : LogTable) (column : String) (processId : ProcessId) : Action Session (Option Instant) := do
  let id ← .ofExcept (toColumn processId)
  let row ← fetchOne ⟨latest t column, [.int id]⟩
  return readInstant? row.head?

/-- Says whether a register exists. -/
def registerExists (t : LogTable) (id : RegisterId) : Action Session Bool := do
  let id ← .ofExcept (toColumn id)
  let count ← .ofExcept (readCount (← fetchOne ⟨countRegister t, [.int id]⟩))
  return 0 < count

instance : Storage Session where
  init t := transaction (createAll t)
  insertRegister t processId status now := do
    let id ← .ofExcept (toColumn processId)
    insertedId ⟨insertRegister t, [.int id, .int status.code, .ofInstant now, .ofInstant now]⟩
  updateResult t id status dataTimestamp now := do
    let id ← .ofExcept (toColumn id)
    let count ← execute ⟨updateResult t, [.int status.code, .ofInstant? dataTimestamp, .ofInstant now, .int id]⟩
    return 0 < count
  insertMessage t id type description now := do
    -- Registers are never deleted, so one that exists will exist when the message is inserted.
    if ← registerExists t id then
      let id ← .ofExcept (toColumn id)
      return some (← insertedId ⟨insertMessage t, [.int id, .int type.code, .text description, .ofInstant now]⟩)
    else return none
  appendValue t id tag value := do
    let id ← .ofExcept (toColumn id)
    let count ← execute ⟨appendValue t, [.text tag, .text value, .int id]⟩
    return 0 < count
  maxLastProcess t processId := latestInstant t "last_process_timestamp" processId
  maxData t processId := latestInstant t "data_timestamp" processId
  registers t processId offset limit := do
    let id ← .ofExcept (toColumn processId)
    let rows ← fetch ⟨page t, [.int id, .int (pageBound limit), .int (pageBound offset)]⟩
    .ofExcept (rows.mapM readRegister)
  messages t ids := do
    if ids.isEmpty then return []
    let columns ← .ofExcept (ids.mapM toColumn)
    let rows ← fetch ⟨messagesOf t columns.length, columns.map .int⟩
    .ofExcept (rows.mapM readMessage)
  updateStatus t old new := do
    if old.isEmpty then return 0
    execute ⟨updateStatus t old.length, .int new.code :: old.map fun s => .int s.code⟩

end ProcessRuns.Sql
