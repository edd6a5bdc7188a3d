import ProcessRuns.Decimal.Binary64

/-! # JSON values

A value as a program builds and compares it. The members of an object are listed in the order in which they
are written; objects that were read list them in the order of their keys, each key once. -/

namespace ProcessRuns

open Decimal (Binary64)

/-- A value; numbers are whole ones or doubles. -/
inductive Json where
  | null
  | bool (value : Bool)
  | int (value : Int)
  | float (value : Binary64)
  | text (value : String)
  | array (items : List Json)
  | object (members : List (String × Json))
deriving Repr

namespace Json

instance : Inhabited Json := ⟨null⟩
instance : Coe String Json := ⟨text⟩
instance : Coe Bool Json := ⟨bool⟩
instance : Coe Nat Json := ⟨fun n => int n⟩

/-- The value itself where it is there, and null where it is not. -/
def ofOption {α : Type} (f : α → Json) : Option α → Json
  | some a => f a
  | none => null

end Json

end ProcessRuns
