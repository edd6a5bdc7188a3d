import ProcessRuns.Json.Document
import ProcessRuns.Text.Hexadecimal

/-! # Reading JSON text

The grammar of JSON without extensions, on lists of characters. Each function takes its part off the front of
the text and gives back the rest. -/

namespace ProcessRuns.Json

/-- A character that may stand between two others. -/
def isSpace (c : Char) : Bool := c == ' ' || c == '\n' || c == '\t' || c == '\r'

/-- Passes over what stands between. -/
def skipSpace (cs : List Char) : List Char := cs.dropWhile isSpace

/-- The digits at the front, and the rest. -/
def takeDigits (cs : List Char) : List Char × List Char :=
  (cs.takeWhile Char.isDigit, cs.dropWhile Char.isDigit)

/-- The character that a one-letter escape stands for. -/
def shortEscape? : Char → Option Char
  | '"' => some '"'
  | '\\' => some '\\'
  | '/' => some '/'
  | 'b' => some '\x08'
  | 'f' => some '\x0c'
  | 'n' => some '\n'
  | 'r' => some '\r'
  | 't' => some '\t'
  | _ => none

/-- A text after its opening quote. -/
def readSpelling : List Char → Option (Spelling × List Char)
  | [] => none
  | '"' :: cs => some ([], cs)
  | '\\' :: 'u' :: a :: b :: c :: d :: cs => do
    let unit ← Text.hexNumber? 0 [a, b, c, d]
    let (rest, cs) ← readSpelling cs
    return (.unit unit :: rest, cs)
  | '\\' :: e :: cs => do
    let char ← shortEscape? e
    let (rest, cs) ← readSpelling cs
    return (.char char :: rest, cs)
  | c :: cs => do
    if c.toNat < 0x20 ∨ c = '\\' then none
    let (rest, cs) ← readSpelling cs
    return (.char c :: rest, cs)

/-- The fraction of a number, where there is one. -/
def readFraction : List Char → Option (Option (List Char) × List Char)
  | '.' :: cs =>
    let (digits, rest) := takeDigits cs
    if digits.isEmpty then none else some (some digits, rest)
  | cs => some (none, cs)

/-- The exponent of a number, where there is one. -/
def readExponent : List Char → Option (Option (Bool × List Char) × List Char)
  | c :: cs =>
    if c = 'e' ∨ c = 'E' then
      let (down, cs) := match cs with
        | '+' :: cs => (false, cs)
        | '-' :: cs => (true, cs)
        | cs => (false, cs)
      let (digits, rest) := takeDigits cs
      if digits.isEmpty then none else some (some (down, digits), rest)
    else some (none, c :: cs)
  | [] => some (none, [])

/-- A number; its whole part has no leading zero. -/
def readLiteral (cs : List Char) : Option (Literal × List Char) := do
  let (negative, cs) := match cs with
    | '-' :: cs => (true, cs)
    | cs => (false, cs)
  let (whole, cs) := takeDigits cs
  if whole.isEmpty ∨ (whole.head? = some '0' ∧ whole.length ≠ 1) then none
  let (fraction, cs) ← readFraction cs
  let (exponent, cs) ← readExponent cs
  return (⟨negative, whole, fraction, exponent⟩, cs)

mutual

/-- A value with the space before it; `fuel` bounds the characters left. -/
def readValue (fuel : Nat) (cs : List Char) : Option (Document × List Char) :=
  match fuel with
  | 0 => none
  | fuel + 1 =>
    match skipSpace cs with
    | 'n' :: 'u' :: 'l' :: 'l' :: cs => some (.null, cs)
    | 't' :: 'r' :: 'u' :: 'e' :: cs => some (.bool true, cs)
    | 'f' :: 'a' :: 'l' :: 's' :: 'e' :: cs => some (.bool false, cs)
    | '"' :: cs => (readSpelling cs).map fun (s, cs) => (.text s, cs)
    | '[' :: cs =>
      match skipSpace cs with
      | ']' :: cs => some (.array [], cs)
      | cs => (readItems fuel cs).map fun (items, cs) => (.array items, cs)
    | '{' :: cs =>
      match skipSpace cs with
      | '}' :: cs => some (.object [], cs)
      | cs => (readMembers fuel cs).map fun (members, cs) => (.object members, cs)
    | cs => (readLiteral cs).map fun (l, cs) => (.number l, cs)

/-- The items of an array, from the first one to the closing bracket. -/
def readItems (fuel : Nat) (cs : List Char) : Option (List Document × List Char) :=
  match fuel with
  | 0 => none
  | fuel + 1 =>
    match readValue fuel cs with
    | none => none
    | some (item, cs) =>
      match skipSpace cs with
      | ']' :: cs => some ([item], cs)
      | ',' :: cs => (readItems fuel cs).map fun (items, cs) => (item :: items, cs)
      | _ => none

/-- The members of an object, from the first key to the closing brace. -/
def readMembers (fuel : Nat) (cs : List Char) : Option (List (Spelling × Document) × List Char) :=
  match fuel with
  | 0 => none
  | fuel + 1 =>
    match skipSpace cs with
    | '"' :: cs =>
      match readSpelling cs with
      | none => none
      | some (key, cs) =>
        match skipSpace cs with
        | ':' :: cs =>
          match readValue fuel cs with
          | none => none
          | some (value, cs) =>
            match skipSpace cs with
            | '}' :: cs => some ([(key, value)], cs)
            | ',' :: cs => (readMembers fuel cs).map fun (members, cs) => ((key, value) :: members, cs)
            | _ => none
        | _ => none
    | _ => none

end

/-- The document that a whole text holds, with nothing but space around it. -/
def Document.read? (text : String) : Option Document :=
  let cs := text.toList
  match readValue (2 * cs.length + 1) cs with
  | some (d, rest) => if (skipSpace rest).isEmpty then some d else none
  | none => none

end ProcessRuns.Json
