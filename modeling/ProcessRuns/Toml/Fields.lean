import ProcessRuns.Toml.Tree

/-! # Decoding TOML

What a program takes from a document whose shape it knows. A record is written as a table, in which unknown keys
are passed over, or as an array of its fields in their order. A number is judged when it is taken or passed
over, not where nobody looks at it. -/

namespace ProcessRuns.Toml

open Decimal (Binary64)

namespace Scalar

/-- The least integer of 128 bits with a sign. -/
def integerMin : Int := -0x80000000000000000000000000000000

/-- The largest integer of 128 bits without a sign. -/
def integerMax : Int := 0xFFFFFFFFFFFFFFFFFFFFFFFFFFFFFFFF

/-- The value fits a number that a program knows: an integer of 128 bits, a double. -/
def fits : Scalar → Bool
  | integer n => n.any fun n => integerMin ≤ n && n ≤ integerMax
  | float x => x.isSome
  | _ => true

end Scalar

namespace Node

mutual

/-- A value that may be passed over. -/
def fits : Node → Bool
  | scalar s => s.fits
  | array items | tables items => allFit items
  | table _ entries => entriesFit entries

/-- All of the items fit. -/
def allFit : List Node → Bool
  | [] => true
  | n :: rest => n.fits && allFit rest

/-- The values of all entries fit. -/
def entriesFit : List (String × Node) → Bool
  | [] => true
  | (_, n) :: rest => n.fits && entriesFit rest

end

/-- An integer from zero to a largest one. -/
def toNat? (max : Nat) : Node → Option Nat
  | scalar (.integer (some n)) => if 0 ≤ n ∧ n ≤ max then some n.toNat else none
  | _ => none

/-- A text. -/
def toText? : Node → Option String
  | scalar (.text s) => some s
  | _ => none

/-- A list or a table with nothing in it. -/
def isEmpty : Node → Bool
  | array items | tables items => items.isEmpty
  | table _ entries => entries.isEmpty
  | scalar _ => false

/-- One name of a choice, alone or as the key of an empty table or array. -/
def toChoice? {α : Type} (choice : String → Option α) : Node → Option α
  | scalar (.text s) => choice s
  | table _ [(key, n)] => if n.isEmpty then choice key else none
  | _ => none

end Node

/-- The fields of a record that a node gives. -/
structure Fields where
  /-- The node names the fields; otherwise they are known by their places. -/
  named : Bool
  given : List (String × Node)

namespace Fields

/-- The fields called `names`, in this order, of a record. A date is a record none of whose fields has a name
that another record uses. -/
def of? (names : List String) : Node → Option Fields
  | .table _ entries =>
    let (known, unknown) := entries.partition fun e => names.contains e.1
    if unknown.all (·.2.fits) then some ⟨true, known⟩ else none
  | .array items | .tables items => some ⟨false, names.zip items⟩
  | .scalar .moment => some ⟨true, []⟩
  | .scalar _ => none

variable {α : Type}

/-- The field of a name, where it is given. -/
def find? (fields : Fields) (name : String) : Option Node :=
  (fields.given.find? fun g => g.1 == name).map Prod.snd

/-- A field that has to be there. -/
def required (fields : Fields) (name : String) (value : Node → Option α) : Option α :=
  (fields.find? name).bind value

/-- A field that takes a value of its own where it is missing. -/
def withDefault (fields : Fields) (name : String) (default : α) (value : Node → Option α) : Option α :=
  match fields.find? name with
  | some n => value n
  | none => some default

/-- A field that may be missing among named ones. -/
def optional (fields : Fields) (name : String) (value : Node → Option α) : Option (Option α) :=
  match fields.find? name with
  | some n => (value n).map some
  | none => if fields.named then some none else none

end Fields

end ProcessRuns.Toml
