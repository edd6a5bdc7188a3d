import ProcessRuns.Toml.Reader

/-! # The tables of a TOML document

A document defines every value once. A table may be opened by a header or by dotted keys, and may stand on the
path of other headers before that; `Origin` says what was done to it so far, and so what may still be done. -/

namespace ProcessRuns.Toml

/-- How a table came to be. -/
inductive Origin where
  /-- By a header, or as the whole document. -/
  | header
  /-- On the path of a header; a header of its own may follow. -/
  | implied
  /-- On the path of a dotted key; further dotted keys may add to it. -/
  | dotted
  /-- In braces; nothing can be added to it. -/
  | inline
deriving DecidableEq, Repr

/-- A value that was read; tables know how they came about. -/
inductive Node where
  | scalar (value : Scalar)
  | array (items : List Node)
  /-- An array of tables that headers opened. -/
  | tables (items : List Node)
  | table (origin : Origin) (entries : List (String × Node))
deriving Repr

namespace Node

instance : Inhabited Node := ⟨table .header []⟩

/-- Puts what `f` makes of the entry of a key in its place. -/
def alter (key : String) (f : Option Node → Option Node) : List (String × Node) → Option (List (String × Node))
  | [] => do return [(key, ← f none)]
  | e :: rest =>
    if e.1 = key then do return (key, ← f (some e.2)) :: rest else do return e :: (← alter key f rest)

/-- Lets `f` change the table that one step of a path leads to: a new one, one that may still be added to, or
the last one of an array. -/
def enter (dotted : Bool) (f : Node → Option Node) : Option Node → Option Node
  | none => f (table (if dotted then .dotted else .implied) [])
  | some (table origin entries) =>
    if origin = .inline ∨ (dotted ∧ origin = .header) then none else f (table origin entries)
  | some (tables items) => do return tables (items.dropLast ++ [← f (← items.getLast?)])
  | some _ => none

/-- Lets `f` change the table at the end of a path. -/
def descend (dotted : Bool) (f : Node → Option Node) : List String → Node → Option Node
  | [], t => f t
  | key :: path, table origin entries =>
    (alter key (enter dotted (descend dotted f path)) entries).map (table origin)
  | _ :: _, _ => none

/-- Puts a value under a key that a table does not have. -/
def define (key : String) (value : Node) : Node → Option Node
  | table origin entries =>
    (alter key (fun old => if old.isSome then none else some value) entries).map (table origin)
  | _ => none

/-- The table consists of dotted keys alone. -/
def isDotted : Node → Bool
  | table .dotted _ => true
  | _ => false

/-- Adds a pair to a table. -/
def assign (t : Node) (key : Key) (value : Node) : Option Node :=
  if key.path.isEmpty then define key.last value t
  else descend true (fun t => if t.isDotted then define key.last value t else none) key.path t

/-- A table as a value of its own. -/
def sealed : Node → Node
  | table _ entries => table .inline entries
  | n => n

mutual

/-- The node of a value. -/
def ofValue? : Value → Option Node
  | .scalar s => some (scalar s)
  | .array items => (ofValues? items).map array
  | .inline pairs => (addPairs? (table .header []) pairs).map sealed

/-- The nodes of values in a list. -/
def ofValues? : List Value → Option (List Node)
  | [] => some []
  | v :: rest => do return (← ofValue? v) :: (← ofValues? rest)

/-- A table with more pairs. -/
def addPairs? (t : Node) : List (Key × Value) → Option Node
  | [] => some t
  | (key, value) :: rest => do addPairs? (← t.assign key (← ofValue? value)) rest

end

/-- The entry that a header opens, with the pairs below the header. -/
def opened? (header : Header) (pairs : List (Key × Value)) (old : Option Node) : Option Node :=
  match header, old with
  | .table, none => addPairs? (table .header []) pairs
  | .table, some (table .implied entries) => addPairs? (table .header entries) pairs
  | .table, some _ => none
  | .element, none => do return tables [← addPairs? (table .header []) pairs]
  | .element, some (tables items) => do return tables (items ++ [← addPairs? (table .header []) pairs])
  | .element, some _ => none

/-- Adds a section to a document. -/
def addSection? (t : Node) (s : Section) : Option Node :=
  descend false
    (fun
      | table origin entries => (alter s.key.last (opened? s.header s.pairs) entries).map (table origin)
      | _ => none)
    s.key.path t

/-- The table that a document makes up. -/
def ofDocument? (d : Document) : Option Node := do
  d.sections.foldlM addSection? (← addPairs? (table .header []) d.pairs)

/-- The table that a text holds. -/
def read? (text : String) : Option Node := (Document.read? text).bind ofDocument?

end Node

end ProcessRuns.Toml
