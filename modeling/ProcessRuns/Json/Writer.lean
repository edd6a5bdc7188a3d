import ProcessRuns.Json.Basic

/-! # Compact JSON text

The text of a value without any space. Control characters are escaped, by their short names where they have
one, and everything else but the quote and the backslash stands for itself. -/

namespace ProcessRuns.Json

open Decimal (Binary64)

/-- The characters that stand for one character of a text. -/
def escape (c : Char) : List Char :=
  match c with
  | '"' => ['\\', '"']
  | '\\' => ['\\', '\\']
  | '\x08' => ['\\', 'b']
  | '\x0c' => ['\\', 'f']
  | '\n' => ['\\', 'n']
  | '\r' => ['\\', 'r']
  | '\t' => ['\\', 't']
  | c =>
    if c.toNat < 0x20 then ['\\', 'u', '0', '0', Nat.digitChar (c.toNat / 16), Nat.digitChar (c.toNat % 16)]
    else [c]

/-- A text between quotes. -/
def writeText (s : String) : List Char := '"' :: s.toList.flatMap escape ++ ['"']

/-- A whole number in decimal digits. -/
def writeInt (n : Int) : List Char :=
  if n < 0 then '-' :: Nat.toDigits 10 n.natAbs else Nat.toDigits 10 n.natAbs

/-- A power of ten with its sign. -/
def writeExponent (n : Int) : List Char := if n < 0 then writeInt n else '+' :: writeInt n

/-- Digits below 10 ^ 16 and above 10 ^ -6 are written positionally with at least one decimal, others with an
exponent. -/
def writeFloat (x : Binary64) : List Char :=
  let sign := if x.negative then ['-'] else []
  match x.shortest with
  | none => sign ++ ['0', '.', '0']
  | some (n, e) =>
    let digits := Nat.toDigits 10 n
    let point : Int := (digits.length : Int) + e
    sign ++
      if 0 ≤ e && point ≤ 16 then digits ++ List.replicate e.toNat '0' ++ ['.', '0']
      else if 0 < point && point ≤ 16 then digits.take point.toNat ++ '.' :: digits.drop point.toNat
      else if -5 < point && point ≤ 0 then ['0', '.'] ++ List.replicate (-point).toNat '0' ++ digits
      else
        let exponent := 'e' :: writeExponent (point - 1)
        match digits with
        | first :: rest@(_ :: _) => first :: '.' :: rest ++ exponent
        | _ => digits ++ exponent

mutual

/-- The characters of a value. -/
def write : Json → List Char
  | null => ['n', 'u', 'l', 'l']
  | bool true => ['t', 'r', 'u', 'e']
  | bool false => ['f', 'a', 'l', 's', 'e']
  | int n => writeInt n
  | float x => writeFloat x
  | text s => writeText s
  | array items => '[' :: writeItems items
  | object members => '{' :: writeMembers members

/-- The items of an array and its closing bracket. -/
def writeItems : List Json → List Char
  | [] => [']']
  | [v] => write v ++ [']']
  | v :: rest => write v ++ ',' :: writeItems rest

/-- The members of an object and its closing brace. -/
def writeMembers : List (String × Json) → List Char
  | [] => ['}']
  | [(key, v)] => writeText key ++ ':' :: write v ++ ['}']
  | (key, v) :: rest => writeText key ++ ':' :: write v ++ ',' :: writeMembers rest

end

/-- The text of a value. -/
def toText (v : Json) : String := String.ofList (write v)

end ProcessRuns.Json
