import ProcessRuns.Time.Instant

/-! # SQL statements

A statement is put together from fixed words, identifiers and placeholders; everything else that it says is
bound to its placeholders as parameters. -/

namespace ProcessRuns.Sql

/-- A piece of the text of a statement. -/
inductive Piece where
  /-- Words and signs of the language. -/
  | words (text : String)
  /-- A quoted identifier. -/
  | ident (name : String)
  /-- The place of the parameter with this number, from one. -/
  | place (number : Nat)
deriving DecidableEq, Repr

namespace Piece

/-- The text of the piece. -/
def text : Piece → String
  | words text => text
  | ident name => "\"" ++ name ++ "\""
  | place number => "$" ++ number.repr

end Piece

/-- A value that is bound to a placeholder. -/
inductive Param where
  | int (value : Int)
  | text (value : String)
  /-- Microseconds since 2000-01-01. -/
  | timestamp (micros : Int)
  | null
deriving DecidableEq, Repr

/-- A statement and the values of its parameters. -/
structure Statement where
  pieces : List Piece
  params : List Param := []
deriving DecidableEq, Repr

namespace Statement

/-- The text of a statement as it is sent. -/
def text (s : Statement) : String := String.join (s.pieces.map Piece.text)

/-- The identifiers of a statement, in their order. -/
def identifiers (s : Statement) : List String :=
  s.pieces.filterMap fun p => match p with
    | .ident name => some name
    | _ => none

/-- The numbers of the placeholders of a statement, in their order. -/
def places (s : Statement) : List Nat :=
  s.pieces.filterMap fun p => match p with
    | .place number => some number
    | _ => none

end Statement

/-- The second at which the timestamps of a server begin, 2000-01-01. -/
def epoch : Int := 946684800

/-- Microseconds since 2000-01-01, cut off towards it. -/
def microsOf (a : Instant) : Int :=
  Int.tdiv ((a.seconds - epoch) * 1000000000 + a.nanos) 1000

/-- The instant of a server's timestamp. -/
def instantOf? (micros : Int) : Option Instant :=
  Instant.of? (epoch + micros / 1000000) ((micros % 1000000).toNat * 1000)

namespace Param

/-- A date as a parameter. -/
def ofInstant (a : Instant) : Param := timestamp (microsOf a)

/-- A date as a parameter, if there is one. -/
def ofInstant? : Option Instant → Param
  | some a => ofInstant a
  | none => null

end Param

/-! ### Building statements -/

open Piece

/-- Groups of pieces with commas between them. -/
def commas (groups : List (List Piece)) : List Piece := (groups.intersperse [words ", "]).flatten

/-- Identifiers with commas between them. -/
def names (idents : List String) : List Piece := commas (idents.map fun i => [ident i])

/-- The placeholders from a number on, with commas between them. -/
def placesFrom (first count : Nat) : List Piece := commas ((List.range' first count).map fun n => [place n])

/-- A column and the placeholder that it is compared with or set to. -/
def equals (column : String) (number : Nat) : List Piece := [ident column, words " = ", place number]

/-- A column and the placeholders of the values that it may have. -/
def isAmong (column : String) (first count : Nat) : List Piece :=
  [ident column, words " IN ("] ++ placesFrom first count ++ [words ")"]

/-- Inserts a row whose columns are the placeholders in turn, and asks for its id. -/
def insertInto (table : String) (columns : List String) : List Piece :=
  [words "INSERT INTO ", ident table, words " ("] ++ names columns ++ [words ") VALUES ("] ++
    placesFrom 1 columns.length ++ [words ") RETURNING ", ident "id"]

/-- Sets columns to the first placeholders in the rows that a condition selects. -/
def update (table : String) (columns : List String) (condition : List Piece) : List Piece :=
  [words "UPDATE ", ident table, words " SET "] ++ commas ((columns.zipIdx 1).map fun c => equals c.1 c.2) ++
    [words " WHERE "] ++ condition

/-- Asks for columns of the rows that a condition selects. -/
def select (what : List Piece) (table : String) (condition : List Piece) : List Piece :=
  [words "SELECT "] ++ what ++ [words " FROM ", ident table, words " WHERE "] ++ condition

/-- A function of a column. -/
def applied (function column : String) : List Piece := [words (function ++ "("), ident column, words ")"]

/-- A column of a table that is created, with its type. -/
structure ColumnType where
  name : String
  type : String

/-- Creates a table that is not there. -/
def createTable (table : String) (columns : List ColumnType) (constraint : List Piece) : List Piece :=
  [words "CREATE TABLE IF NOT EXISTS ", ident table, words " ( "] ++
    commas (columns.map fun c => [ident c.name, words (" " ++ c.type)]) ++ constraint ++ [words " )"]

/-- Creates an index that is not there. -/
def createIndex (index table column : String) : List Piece :=
  [words "CREATE INDEX IF NOT EXISTS ", ident index, words " ON ", ident table, words " (", ident column,
    words ")"]

end ProcessRuns.Sql
