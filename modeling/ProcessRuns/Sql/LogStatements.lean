import ProcessRuns.Log.Table
import ProcessRuns.Sql.Statement

/-! # The statements of a process log

Every statement that a process log sends, for its pair of tables. -/

namespace ProcessRuns.Sql

open Piece

/-- The columns of a register, in the order in which they are selected. -/
def registerColumns : List String :=
  ["id", "process_id", "status", "start_timestamp", "data_timestamp", "last_process_timestamp", "data"]

/-- The columns of a message, in the order in which they are selected. -/
def messageColumns : List String := ["id", "log_id", "type", "description", "timestamp"]

/-- The type of a number that has to be there. -/
def required : String := "integer NOT NULL"

/-- The type of a date that has to be there. -/
def moment : String := "timestamp with time zone NOT NULL"

/-- The type of a number that the server gives. -/
def serial : String := "serial NOT NULL PRIMARY KEY"

/-- Creates the table of the registers. -/
def createRegisters (t : LogTable) : Statement where
  pieces := createTable t.process
    [⟨"id", serial⟩, ⟨"process_id", required⟩, ⟨"status", required⟩, ⟨"start_timestamp", moment⟩,
      ⟨"data_timestamp", "timestamp with time zone NULL"⟩, ⟨"last_process_timestamp", moment⟩,
        ⟨"data", "text"⟩] []

/-- Creates the table of the messages, each of which belongs to a register. -/
def createMessages (t : LogTable) : Statement where
  pieces := createTable t.messages
    [⟨"id", serial⟩, ⟨"log_id", required⟩, ⟨"type", required⟩, ⟨"description", "text"⟩,
      ⟨"timestamp", moment⟩]
    [words ", CONSTRAINT ", ident (t.process ++ "_log_fk"), words " FOREIGN KEY (", ident "log_id",
      words ") REFERENCES ", ident t.process, words " (", ident "id", words ")"]

/-- Creates both tables and their indexes. -/
def createAll (t : LogTable) : List Statement :=
  [createRegisters t,
    { pieces := createIndex (t.process ++ "_pid_idx") t.process "process_id" },
    { pieces := createIndex (t.process ++ "_status_idx") t.process "status" },
    createMessages t,
    { pieces := createIndex (t.messages ++ "_log_idx") t.messages "log_id" }]

/-- Adds a register; its id is the answer. -/
def insertRegister (t : LogTable) : List Piece :=
  insertInto t.process ["process_id", "status", "start_timestamp", "last_process_timestamp"]

/-- Says how the last run of a register went. -/
def updateResult (t : LogTable) : List Piece :=
  -- The places before it are those of the columns.
  update t.process ["status", "data_timestamp", "last_process_timestamp"] (equals "id" 4)

/-- Counts the registers of an id. -/
def countRegister (t : LogTable) : List Piece := select (applied "COUNT" "id") t.process (equals "id" 1)

/-- Adds a message; its id is the answer. -/
def insertMessage (t : LogTable) : List Piece :=
  insertInto t.messages ["log_id", "type", "description", "timestamp"]

/-- The values of a register as a JSON value of the server, null where there are none. -/
def storedValues : List Piece := [words "NULLIF(", ident "data", words ", '')::jsonb"]

/-- The list under the tag of the first placeholder. -/
def storedList : List Piece := storedValues ++ [words " -> ", place 1, words "::text"]

/-- Puts a text at the end of the list under a tag in one statement; what is no object counts as an empty one,
and what is no list as an empty one. -/
def appendValue (t : LogTable) : List Piece :=
  [words "UPDATE ", ident t.process, words " SET ", ident "data",
    words " = jsonb_set(\n                CASE WHEN jsonb_typeof("] ++ storedValues ++
  [words ") = 'object' THEN "] ++ storedValues ++
  [words " ELSE '\x7b\x7d'::jsonb END,\n                ARRAY[", place 1,
    words "::text],\n                CASE WHEN jsonb_typeof("] ++ storedList ++
  [words ") = 'array' THEN "] ++ storedList ++
  [words " ELSE '[]'::jsonb END\n                    || to_jsonb(", place 2,
    words "::text)\n            )::text WHERE "] ++ equals "id" 3

/-- The largest value of a column among the registers of a process. -/
def latest (t : LogTable) (column : String) : List Piece :=
  select (applied "MAX" column) t.process (equals "process_id" 1)

/-- A page of the registers of a process, newest first. -/
def page (t : LogTable) : List Piece :=
  select (names registerColumns) t.process (equals "process_id" 1) ++
    [words " ORDER BY ", ident "id", words " DESC LIMIT ", place 2, words " OFFSET ", place 3]

/-- The messages of a number of registers. -/
def messagesOf (t : LogTable) (count : Nat) : List Piece :=
  select (names messageColumns) t.messages (isAmong "log_id" 1 count) ++
    [words " ORDER BY ", ident "id", words " ASC"]

/-- Changes the status of the registers in one of a number of statuses. -/
def updateStatus (t : LogTable) (count : Nat) : List Piece :=
  update t.process ["status"] (isAmong "status" 2 count)

end ProcessRuns.Sql
