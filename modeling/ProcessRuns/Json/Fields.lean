import ProcessRuns.Json.Document

/-! # Decoding documents

What a program takes from a document whose shape it knows. A record is written as an object, in which unknown
members are passed over and no known one may stand twice, or as an array of its fields in their order. -/

namespace ProcessRuns.Json

namespace Document

/-- A whole number of 64 bits. -/
def toWord? : Document → Option Nat
  | number l => l.toWord?
  | _ => none

/-- A truth value. -/
def toBool? : Document → Option Bool
  | bool b => some b
  | _ => none

/-- A text that is spelled well. -/
def toText? : Document → Option String
  | text s => s.toText?
  | _ => none

/-- A list of items that are read one by one. -/
def toList? {α : Type} (item : Document → Option α) : Document → Option (List α)
  | array items => items.mapM item
  | _ => none

/-- Null, or a value. -/
def toOption? {α : Type} (value : Document → Option α) : Document → Option (Option α)
  | null => some none
  | d => (value d).map some

/-- One name of a choice, alone or as the key of a null. -/
def toChoice? {α : Type} (choice : String → Option α) : Document → Option α
  | text s => s.toText?.bind choice
  | object [(key, null)] => key.toText?.bind choice
  | _ => none

/-- A dictionary; of the members under one key the last counts. -/
def toDictionary? {α : Type} (value : Document → Option α) : Document → Option (Dictionary α)
  | object members =>
    (members.mapM fun (m : Spelling × Document) => do return (← m.1.toText?, ← value m.2)).map Dictionary.ofEntries
  | _ => none

end Document

/-- The fields of a record that a document gives. -/
structure Fields where
  /-- The document names the fields; otherwise they are known by their places. -/
  named : Bool
  given : List (String × Document)

namespace Fields

/-- Adds a member under a field's name; fails where the name was there before. -/
def add? (names : List String) (given : List (String × Document)) (member : Spelling × Document) :
    Option (List (String × Document)) := do
  let name ← member.1.toText?
  if !names.contains name then return given
  if given.any fun g => g.1 == name then none
  return given ++ [(name, member.2)]

/-- The fields called `names`, in this order, of a record. -/
def of? (names : List String) : Document → Option Fields
  | .object members => (members.foldlM (add? names) []).map fun given => ⟨true, given⟩
  | .array items => if names.length < items.length then none else some ⟨false, names.zip items⟩
  | _ => none

variable {α : Type}

/-- The field of a name, where it is given. -/
def find? (fields : Fields) (name : String) : Option Document :=
  (fields.given.find? fun g => g.1 == name).map Prod.snd

/-- A field that has to be there. -/
def required (fields : Fields) (name : String) (value : Document → Option α) : Option α :=
  (fields.find? name).bind value

/-- A field that takes a value of its own where it is missing. -/
def withDefault (fields : Fields) (name : String) (default : α) (value : Document → Option α) : Option α :=
  match fields.find? name with
  | some d => value d
  | none => some default

/-- A field that may be null, and may be missing among named ones. -/
def optional (fields : Fields) (name : String) (value : Document → Option α) : Option (Option α) :=
  match fields.find? name with
  | some d => d.toOption? value
  | none => if fields.named then some none else none

end Fields

end ProcessRuns.Json
