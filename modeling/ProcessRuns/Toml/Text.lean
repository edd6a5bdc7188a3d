import ProcessRuns.Text.Hexadecimal

/-! # Quoted texts of TOML

A text stands between two quotes on one line, or between two triples of quotes on any number of lines. Double
quotes allow for escapes, single quotes keep every character as it is. -/

namespace ProcessRuns.Toml

/-- A character between two others in a line. -/
def isBlank (c : Char) : Bool := c == ' ' || c == '\t'

/-- A character of a text or a comment: no control character but the tab. -/
def isPlain (c : Char) : Bool := c == '\t' || (0x20 ≤ c.toNat && c.toNat != 0x7F)

/-- A line ends here. -/
def startsNewline : List Char → Bool
  | '\n' :: _ => true
  | '\r' :: '\n' :: _ => true
  | _ => false

/-- The character that a one-letter escape stands for. -/
def shortEscape? : Char → Option Char
  | '"' => some '"'
  | '\\' => some '\\'
  | 'b' => some '\x08'
  | 'e' => some '\x1b'
  | 'f' => some '\x0c'
  | 'n' => some '\n'
  | 'r' => some '\r'
  | 't' => some '\t'
  | _ => none

/-- The character of a code point in hexadecimal digits. -/
def codePoint? (digits : List Char) : Option Char := do
  let n ← Text.hexNumber? 0 digits
  if n.isValidChar then return Char.ofNat n else none

/-- The end of a text of several lines: three quotes, before which up to two more belong to the text. -/
def readClosing (quote : Char) (cs : List Char) : Option (List Char × List Char) :=
  let run := (cs.take 5).takeWhile (· == quote)
  if run.length < 3 then none else some (run.drop 3, cs.drop run.length)

/-- A character in front of the text that is read behind it. -/
def keep (c : Char) (rest : Option (List Char × List Char)) : Option (List Char × List Char) :=
  rest.map fun (text, cs) => (c :: text, cs)

/-- A text after its opening quotes. A backslash at the end of a line starts a gap, in which blanks and line
ends are passed over. -/
def readQuoted (quote : Char) (long gap : Bool) : List Char → Option (List Char × List Char)
  | [] => none
  | c :: cs =>
    if gap && (isBlank c || startsNewline (c :: cs)) then readQuoted quote long true cs
    else if c == quote then
      if long then (readClosing quote (c :: cs)).or (keep c (readQuoted quote long false cs))
      else some ([], cs)
    else if c == '\\' && quote == '"' then
      match cs with
      | 'x' :: d₁ :: d₂ :: cs => do keep (← codePoint? [d₁, d₂]) (readQuoted quote long false cs)
      | 'u' :: d₁ :: d₂ :: d₃ :: d₄ :: cs => do
        keep (← codePoint? [d₁, d₂, d₃, d₄]) (readQuoted quote long false cs)
      | 'U' :: d₁ :: d₂ :: d₃ :: d₄ :: d₅ :: d₆ :: d₇ :: d₈ :: cs => do
        keep (← codePoint? [d₁, d₂, d₃, d₄, d₅, d₆, d₇, d₈]) (readQuoted quote long false cs)
      | e :: cs =>
        match shortEscape? e with
        | some c => keep c (readQuoted quote long false cs)
        | none =>
          if long && startsNewline ((e :: cs).dropWhile isBlank) then readQuoted quote long true (e :: cs)
          else none
      | [] => none
    else if isPlain c || (long && startsNewline (c :: cs)) then keep c (readQuoted quote long false cs)
    else none

/-- The line end right after the opening quotes does not belong to the text. -/
def dropNewline : List Char → List Char
  | '\n' :: cs => cs
  | '\r' :: '\n' :: cs => cs
  | cs => cs

/-- A text of one line or of several, at its opening quotes. -/
def readText : List Char → Option (String × List Char)
  | [] => none
  | quote :: cs => do
    if !(quote == '"' || quote == '\x27') then none
    let long := cs.take 2 == [quote, quote]
    let (text, cs) ← readQuoted quote long false (if long then dropNewline (cs.drop 2) else cs)
    return (String.ofList text, cs)

end ProcessRuns.Toml
