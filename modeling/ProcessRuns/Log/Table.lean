import ProcessRuns.Failure
import ProcessRuns.Text.Blank
import ProcessRuns.Text.Lower

/-! # Log tables

The pair of tables that hold a process log. Their names are plain identifiers, the only part of a statement
that is not a parameter. -/

namespace ProcessRuns

namespace LogTable

/-- A character that a name may start with. -/
def isStart (c : Char) : Bool := ('a' ≤ c && c ≤ 'z') || c == '_'

/-- A character that a name may go on with. -/
def isPart (c : Char) : Bool := isStart c || ('0' ≤ c && c ≤ '9')

/-- The length of the longest name. With its suffix the name of the messages then has 63 characters, as many as a server
keeps of an identifier; the suffixes of the indexes are longer and need not fit. -/
def maxLength : Nat := 54

/-- A small letter or underscore, then small letters, digits and underscores. -/
def isName : List Char → Bool
  | [] => false
  | c :: cs => isStart c && cs.all isPart && cs.length < maxLength

end LogTable

/-- The tables of a process log, by the name of the one that holds the registers. -/
structure LogTable where
  process : String
  named : LogTable.isName process.toList = true
deriving DecidableEq

namespace LogTable

/-- The name of the table that holds the messages. -/
def messages (t : LogTable) : String := t.process ++ "_messages"

/-- A name without blanks around it and in lower case. -/
def normalName (name : String) : String := String.ofList (Text.lower (Text.trim name.toList))

/-- The tables of a name, if its normal form is an identifier. -/
def ofName (name : String) : Except Failure LogTable :=
  if h : LogTable.isName (normalName name).toList = true then .ok ⟨normalName name, h⟩
  else .error (.invalidTableName (normalName name))

end LogTable

end ProcessRuns
