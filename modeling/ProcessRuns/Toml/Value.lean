import ProcessRuns.Decimal.Binary64

/-! # TOML documents as they are written

The pairs and sections of a document in the order of its text. Which tables they make up is decided in
`ProcessRuns.Toml.Tree`. -/

namespace ProcessRuns.Toml

open Decimal (Binary64)

/-- What is written without brackets. -/
inductive Scalar where
  | text (value : String)
  /-- An integer; none where it is written with what are no digits of its base. -/
  | integer (value : Option Int)
  /-- A number with a fraction or an exponent; none where it is beyond the largest double. -/
  | float (value : Option Binary64)
  /-- An infinity, or what is not a number. -/
  | nonfinite
  | bool (value : Bool)
  /-- A date, a time of day, or both; checked and not kept. -/
  | moment
deriving DecidableEq, Repr

/-- A key with dots between its parts. -/
structure Key where
  /-- The parts before the last one. -/
  path : List String
  last : String
deriving DecidableEq, Repr

/-- A value as it is written. -/
inductive Value where
  | scalar (value : Scalar)
  | array (items : List Value)
  /-- Pairs in braces. -/
  | inline (pairs : List (Key × Value))
deriving Repr

/-- What a header opens. -/
inductive Header where
  /-- A table of its own. -/
  | table
  /-- One more table of an array of tables. -/
  | element
deriving DecidableEq, Repr

/-- A header and the pairs below it. -/
structure Section where
  header : Header
  key : Key
  pairs : List (Key × Value)
deriving Repr

/-- The pairs before the first header, and the sections after them. -/
structure Document where
  pairs : List (Key × Value)
  sections : List Section
deriving Repr

end ProcessRuns.Toml
