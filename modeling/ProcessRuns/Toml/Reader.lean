import ProcessRuns.Toml.Moment
import ProcessRuns.Toml.Number
import ProcessRuns.Toml.Text

/-! # Reading TOML text

The grammar of TOML 1.1 on lists of characters. Each function takes its part off the front of the text and
gives back the rest. -/

namespace ProcessRuns.Toml

/-- Passes over blanks. -/
def skipBlanks (cs : List Char) : List Char := cs.dropWhile isBlank

/-- Passes over blanks, line ends and comments; `comment` says that a comment goes on. -/
def skipGap (comment : Bool) : List Char → Option (List Char)
  | [] => some []
  | c :: cs =>
    if startsNewline (c :: cs) then skipGap false cs
    else if comment then if isPlain c then skipGap true cs else none
    else if isBlank c then skipGap false cs
    else if c == '#' then skipGap true cs
    else some (c :: cs)

/-- Passes over the rest of a line, which holds nothing but a comment, and over the gap behind it. -/
def skipLine (cs : List Char) : Option (List Char) :=
  let cs := skipBlanks cs
  if cs.isEmpty || startsNewline cs || cs.head? == some '#' then skipGap false cs else none

/-! ### Keys -/

/-- A character of a key without quotes. -/
def isBare (c : Char) : Bool := c.isAlphanum || c == '_' || c == '-'

/-- A part of a key: a word, or a text in quotes on one line. -/
def readKeyPart (cs : List Char) : Option (String × List Char) :=
  match cs with
  | [] => none
  | c :: rest =>
    if c == '"' || c == '\x27' then
      (readQuoted c false false rest).map fun (text, cs) => (String.ofList text, cs)
    else if isBare c then some (String.ofList (cs.takeWhile isBare), cs.dropWhile isBare)
    else none

/-- The deepest nesting of brackets and braces, and the largest number of parts of a key. -/
def depthLimit : Nat := 80

/-- A key of `limit` parts at most, behind the parts in `path`. -/
def readKeyAfter (path : List String) (limit : Nat) (cs : List Char) : Option (Key × List Char) :=
  match limit with
  | 0 => none
  | limit + 1 => do
    let (part, cs) ← readKeyPart cs
    match skipBlanks cs with
    | '.' :: cs => readKeyAfter (path ++ [part]) limit (skipBlanks cs)
    | _ => return (⟨path, part⟩, cs)

/-- Reads a key and its dots. -/
def readKey (cs : List Char) : Option (Key × List Char) := readKeyAfter [] depthLimit cs

/-- A key and the sign behind it; `skip` passes over what may stand on either side of the sign. -/
def readAssignment (skip : List Char → Option (List Char)) (cs : List Char) : Option (Key × List Char) := do
  let (key, cs) ← readKey cs
  match ← skip cs with
  | '=' :: cs => return (key, ← skip cs)
  | _ => none

/-! ### Values -/

/-- The characters that end a word. -/
def endsWord (c : Char) : Bool :=
  c == ' ' || c == '\t' || c == '\n' || c == '\r' || c == '#' || c == ',' || c == '=' || c == '[' || c == ']' ||
    c == '\x7b' || c == '\x7d'

/-- A word without quotes; a blank joins the date and the time of one moment. -/
def readWord (cs : List Char) : List Char × List Char :=
  let word := cs.takeWhile (!endsWord ·)
  let rest := cs.dropWhile (!endsWord ·)
  match rest with
  | ' ' :: c :: behind =>
    if hasDateForm word && c.isDigit then
      let time := (c :: behind).takeWhile (!endsWord ·)
      (word ++ ' ' :: time, (c :: behind).dropWhile (!endsWord ·))
    else (word, rest)
  | _ => (word, rest)

/-- The value that a word stands for. -/
def scalar? (word : List Char) : Option Scalar :=
  if word = "true".toList then some (.bool true)
  else if word = "false".toList then some (.bool false)
  else if isMoment word then some .moment
  else ((integer? word).map .integer).or (float? word)

/-- Reads a text or another value that is one word. -/
def readScalar (cs : List Char) : Option (Scalar × List Char) :=
  if cs.head? = some '"' ∨ cs.head? = some '\x27' then (readText cs).map fun (text, cs) => (.text text, cs)
  else
    let (word, rest) := readWord cs
    (scalar? word).map fun s => (s, rest)

mutual

/-- A value; `fuel` bounds the characters left, `depth` the brackets and braces that may open. -/
def readValue (fuel depth : Nat) (cs : List Char) : Option (Value × List Char) :=
  match fuel with
  | 0 => none
  | fuel + 1 =>
    match cs, depth with
    | '[' :: cs, depth + 1 => (readItems fuel depth cs).map fun (items, cs) => (.array items, cs)
    | '\x7b' :: cs, depth + 1 => (readPairs fuel depth cs).map fun (pairs, cs) => (.inline pairs, cs)
    | cs, _ => (readScalar cs).map fun (s, cs) => (.scalar s, cs)

/-- The items of an array up to the closing bracket. -/
def readItems (fuel depth : Nat) (cs : List Char) : Option (List Value × List Char) :=
  match fuel with
  | 0 => none
  | fuel + 1 =>
    match skipGap false cs with
    | none => none
    | some (']' :: cs) => some ([], cs)
    | some cs =>
      match readValue fuel depth cs with
      | none => none
      | some (item, cs) =>
        match skipGap false cs with
        | some (']' :: cs) => some ([item], cs)
        | some (',' :: cs) => (readItems fuel depth cs).map fun (items, cs) => (item :: items, cs)
        | _ => none

/-- The pairs of a table in braces up to the closing one. Lines may end around every sign but the dots of keys. -/
def readPairs (fuel depth : Nat) (cs : List Char) : Option (List (Key × Value) × List Char) :=
  match fuel with
  | 0 => none
  | fuel + 1 =>
    match skipGap false cs with
    | none => none
    | some ('\x7d' :: cs) => some ([], cs)
    | some cs =>
      match readAssignment (skipGap false) cs with
      | none => none
      | some (key, cs) =>
        match readValue fuel depth cs with
        | none => none
        | some (value, cs) =>
          match skipGap false cs with
          | some ('\x7d' :: cs) => some ([(key, value)], cs)
          | some (',' :: cs) => (readPairs fuel depth cs).map fun (pairs, cs) => ((key, value) :: pairs, cs)
          | _ => none

end

/-! ### Lines -/

/-- A pair with the rest of its line. -/
def readPair (cs : List Char) : Option ((Key × Value) × List Char) := do
  let (key, cs) ← readAssignment (fun cs => some (skipBlanks cs)) cs
  let (value, cs) ← readValue (2 * cs.length + 1) depthLimit cs
  return ((key, value), ← skipLine cs)

/-- The pairs up to the next header or the end of the text. -/
def readBody (fuel : Nat) (cs : List Char) : Option (List (Key × Value) × List Char) :=
  match fuel, cs with
  | _, [] => some ([], [])
  | _, '[' :: cs => some ([], '[' :: cs)
  | 0, _ => none
  | fuel + 1, cs => do
    let (pair, cs) ← readPair cs
    let (pairs, cs) ← readBody fuel cs
    return (pair :: pairs, cs)

/-- A header with the rest of its line. -/
def readHeader (cs : List Char) : Option ((Header × Key) × List Char) := do
  match cs with
  | '[' :: '[' :: cs =>
    let (key, cs) ← readKey (skipBlanks cs)
    match skipBlanks cs with
    | ']' :: ']' :: cs => return ((.element, key), ← skipLine cs)
    | _ => none
  | '[' :: cs =>
    let (key, cs) ← readKey (skipBlanks cs)
    match skipBlanks cs with
    | ']' :: cs => return ((.table, key), ← skipLine cs)
    | _ => none
  | _ => none

/-- Reads the headers and what stands below each of them. -/
def readSections (fuel : Nat) (cs : List Char) : Option (List Section) :=
  match fuel, cs with
  | _, [] => some []
  | 0, _ => none
  | fuel + 1, cs => do
    let ((header, key), cs) ← readHeader cs
    let (pairs, cs) ← readBody cs.length cs
    return ⟨header, key, pairs⟩ :: (← readSections fuel cs)

/-- A text may start with a byte order mark. -/
def dropMark : List Char → List Char
  | '\ufeff' :: cs => cs
  | cs => cs

/-- The document that a whole text holds. -/
def Document.read? (text : String) : Option Document := do
  let cs ← skipGap false (dropMark text.toList)
  let (pairs, cs) ← readBody cs.length cs
  return ⟨pairs, ← readSections cs.length cs⟩

end ProcessRuns.Toml
