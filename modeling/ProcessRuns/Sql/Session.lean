import ProcessRuns.Log.Storage
import ProcessRuns.Sql.Statement

/-! # Sessions with a server

A connection to a server whose replies are known in advance, and what was sent over it. -/

namespace ProcessRuns.Sql

/-- A value in a row of a reply. -/
inductive Cell where
  | int (value : Int)
  | text (value : String)
  /-- Microseconds since 2000-01-01. -/
  | timestamp (micros : Int)
  | null
deriving DecidableEq, Repr

/-- What the server answers to a statement. -/
inductive Reply where
  | rows (rows : List (List Cell))
  | affected (count : Nat)
  | error (text : String)
deriving DecidableEq, Repr

/-- What is sent to the server. -/
inductive Sent where
  | begin
  | commit
  | statement (s : Statement)
deriving DecidableEq, Repr

/-- What was sent to a server, and what it is going to reply. -/
structure Session where
  /-- The replies to the statements to come; once there are none left, no row answers and none is affected. -/
  replies : List Reply
  /-- What was sent, oldest first. -/
  sent : List Sent := []
deriving DecidableEq, Repr

namespace Session

/-- Notes down what is sent. -/
def note (x : Sent) : Action Session Unit := fun s => (.ok (), { s with sent := s.sent ++ [x] })

/-- Sends a statement and takes its reply. -/
def send (statement : Statement) : Action Session Reply := fun s =>
  (.ok (s.replies.head?.getD (.rows [])),
    { replies := s.replies.tail, sent := s.sent ++ [.statement statement] })

/-- The number of rows that a statement affected. -/
def execute (statement : Statement) : Action Session Nat := do
  match ← send statement with
  | .affected count => return count
  | .rows _ => return 0
  | .error text => .fail (.database text)

/-- The rows that a statement selects. -/
def fetch (statement : Statement) : Action Session (List (List Cell)) := do
  match ← send statement with
  | .rows rows => return rows
  | .affected _ => return []
  | .error text => .fail (.database text)

/-- The first row of a statement that has to select one. -/
def fetchOne (statement : Statement) : Action Session (List Cell) := do
  match ← fetch statement with
  | row :: _ => return row
  | [] => .fail .noRow

/-- Sends statements until one of them fails. -/
def executeAll : List Statement → Action Session Unit
  | [] => pure ()
  | statement :: rest => do
    let _ ← execute statement
    executeAll rest

/-- Executes statements in one transaction. -/
def transaction (statements : List Statement) : Action Session Unit := do
  note .begin
  executeAll statements
  note .commit

end Session

end ProcessRuns.Sql
