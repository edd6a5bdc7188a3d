import ProcessRuns.Sql.Session

/-! # Rows

Ids as the columns of a server hold them, and the reading of rows. A row is read column by column, and the first
column that is not as it has to be is the one that is reported. -/

namespace ProcessRuns.Sql

/-- The largest id that a column holds. -/
def idMax : Nat := 2147483647

/-- An id as a column of 32 bits holds it. -/
def toColumn (id : Nat) : Except Failure Int := if id ≤ idMax then .ok id else .error (.idTooLarge id)

/-- The id that a column holds; none is below zero. -/
def ofColumn (value : Int) : Except Failure Nat :=
  if value < 0 then .error (.negativeId value) else .ok value.toNat

/-- The largest bound of a page that a server takes. -/
def pageMax : Nat := 9223372036854775807

/-- A bound of a page; one that is too large is cut to the largest. -/
def pageBound (n : Nat) : Int := min n pageMax

/-- A column is known by its name or by its number. -/
def quoted (column : String) : String := "\"" ++ column ++ "\""

/-- A number of a column that has to be there. -/
def readInt (column : String) : Option Cell → Except Failure Int
  | some (.int n) => .ok n
  | _ => .error (.unexpectedNull column)

/-- An id of a column that has to be there. -/
def readId (column : String) (cell : Option Cell) : Except Failure Nat := do
  ofColumn (← readInt column cell)

/-- A text of a column, if it has one. -/
def readText? : Option Cell → Option String
  | some (.text t) => some t
  | _ => none

/-- A date of a column, if it has one. -/
def readInstant? : Option Cell → Option Instant
  | some (.timestamp micros) => instantOf? micros
  | _ => none

/-- A date of a column that has to be there. -/
def readInstant (column : String) (cell : Option Cell) : Except Failure Instant :=
  match readInstant? cell with
  | some a => .ok a
  | none => .error (.unexpectedNull column)

/-- The id in the only column of a row. -/
def readOnlyId (row : List Cell) : Except Failure Nat := readId "0" row.head?

/-- The count in the only column of a row; a count that is missing breaks off. -/
def readCount (row : List Cell) : Except Failure Int :=
  match row.head? with
  | some (.int n) => .ok n
  | _ => .error .abort

/-- A register from its columns. -/
def readRegister (row : List Cell) : Except Failure Register := do
  return {
    id := ← readId (quoted "id") row[0]?
    processId := ← readId (quoted "process_id") row[1]?
    status := ← Status.ofCode (← readInt (quoted "status") row[2]?)
    start := ← readInstant (quoted "start_timestamp") row[3]?
    dataTimestamp := readInstant? row[4]?
    lastProcess := ← readInstant (quoted "last_process_timestamp") row[5]?
    data := readText? row[6]? }

/-- A message without description has an empty one. -/
def readMessage (row : List Cell) : Except Failure LogMessage := do
  return {
    id := ← readId (quoted "id") row[0]?
    registerId := ← readId (quoted "log_id") row[1]?
    type := ← MessageType.ofCode (← readInt (quoted "type") row[2]?)
    description := (readText? row[3]?).getD ""
    timestamp := ← readInstant (quoted "timestamp") row[4]? }

end ProcessRuns.Sql
