import ProcessRuns.Text.Hexadecimal
import ProcessRuns.Toml.Value

/-! # Numbers of TOML

Integers of any size in four bases, and numbers with a fraction or an exponent. Underscores may stand between
two digits, and one behind a sign. A word may have the form of an integer and yet be none, because it has no
digits behind the mark of a base, or others than decimal ones behind an underscore. -/

namespace ProcessRuns.Toml

open Decimal (Binary64)

/-- The digits of a number without the underscores between them. -/
def ungrouped? (isDigit : Char → Bool) : List Char → Option (List Char)
  | [] => none
  | [c] => if isDigit c then some [c] else none
  | c :: '_' :: cs => if isDigit c then (ungrouped? isDigit cs).map (c :: ·) else none
  | c :: cs => if isDigit c then (ungrouped? isDigit cs).map (c :: ·) else none

/-- Decimal digits that start with a zero only where there is no other. -/
def whole? (cs : List Char) : Option (List Char) := do
  let digits ← ungrouped? Char.isDigit cs
  if digits.head? = some '0' ∧ digits.length ≠ 1 then none else some digits

/-- The number of decimal digits. -/
def decimal (digits : List Char) : Nat := Nat.ofDigitChars 10 digits 0

/-- Whether a sign is a minus, and what it stands before. -/
def splitSign : List Char → Bool × List Char
  | '-' :: cs => (true, cs)
  | '+' :: cs => (false, cs)
  | cs => (false, cs)

/-- The digits behind a sign, if there is one; behind an underscore they may start with any number of zeros. -/
def signed? (cs : List Char) : Option (Bool × List Char) :=
  match cs with
  | '-' :: '_' :: cs => (ungrouped? Char.isDigit cs).map (true, ·)
  | '+' :: '_' :: cs => (ungrouped? Char.isDigit cs).map (false, ·)
  | cs =>
    let (negative, cs) := splitSign cs
    (whole? cs).map (negative, ·)

/-- A sign before a number. -/
def withSign (negative : Bool) (n : Nat) : Int := if negative then -n else n

/-! ### Integers -/

/-- A mark that makes a number one with a fraction or an exponent. -/
def isMark (c : Char) : Bool := c == '.' || c == 'e' || c == 'E'

/-- An integer in a base other than ten, behind the mark of its base. -/
def based? (base : Nat) (cs : List Char) : Option (Option Int) :=
  if cs.isEmpty then some none
  else
    (ungrouped? (fun c => (Text.hexDigit? c).any (· < base)) cs).map fun digits =>
      some (digits.foldl (fun n c => base * n + (Text.hexDigit? c).getD 0) 0 : Nat)

/-- The groups that underscores stand between. -/
def groups : List Char → List (List Char)
  | [] => [[]]
  | '_' :: cs => [] :: groups cs
  | c :: cs =>
    match groups cs with
    | [] => [[c]]
    | g :: rest => (c :: g) :: rest

/-- A group starts, and unless it is the last one ends, with a digit of the largest base. -/
def isGroup (final : Bool) (g : List Char) : Bool :=
  let isDigit (c : Char) : Bool := (Text.hexDigit? c).isSome
  g.head?.any isDigit && (final || g.getLast?.any isDigit)

/-- What has the form of a decimal integer: digits, and groups behind underscores. -/
def hasDecimalForm (cs : List Char) : Bool :=
  let body := (splitSign cs).2
  let first := body.takeWhile Char.isDigit
  match body.dropWhile Char.isDigit with
  | '_' :: behind =>
    let gs := groups behind
    (!first.isEmpty || body.length < cs.length) && first.head? != some '0' && !behind.any isMark &&
      gs.dropLast.all (isGroup false) && gs.getLast?.all (isGroup true)
  | _ => false

/-- A decimal integer. -/
def decimal? (cs : List Char) : Option (Option Int) :=
  match signed? cs with
  | some (negative, digits) => some (some (withSign negative (decimal digits)))
  | none => if hasDecimalForm cs then some none else none

/-- The integer of a word that has the form of one. -/
def integer? (cs : List Char) : Option (Option Int) :=
  match cs with
  | '0' :: 'x' :: cs => based? 16 cs
  | '0' :: 'o' :: cs => based? 8 cs
  | '0' :: 'b' :: cs => based? 2 cs
  | cs => decimal? cs

/-! ### Fractions and exponents -/

/-- No double has its first digit at a power of ten beyond this one, and every number that has it below the
opposite power rounds to zero. -/
def powerMax : Int := 400

/-- The double nearest to the digits times a power of ten. -/
def double? (negative : Bool) (digits : List Char) (power : Int) : Option Binary64 :=
  let digits := digits.dropWhile (· == '0')
  let first := (digits.length : Int) + power
  if digits.isEmpty || first < -powerMax then some (.zero negative)
  else if powerMax < first then none
  else (Binary64.ofDecimal (decimal digits) power).map fun x => { x with negative }

/-- The digits after the point. -/
def fraction? : List Char → Option (List Char)
  | [] => some []
  | '.' :: cs => ungrouped? Char.isDigit cs
  | _ => none

/-- The power of ten after the letter. -/
def exponent? : List Char → Option Int
  | [] => some 0
  | _ :: cs => do
    let (negative, cs) := splitSign cs
    return withSign negative (decimal (← ungrouped? Char.isDigit cs))

/-- A number with a fraction or an exponent, or one that is none. -/
def float? (cs : List Char) : Option Scalar := do
  let body := (splitSign cs).2
  if body = ['i', 'n', 'f'] ∨ body = ['n', 'a', 'n'] then return .nonfinite
  let isLetter (c : Char) : Bool := c == 'e' || c == 'E'
  if !cs.any isMark then none
  let (negative, digits) ← signed? (cs.takeWhile (!isMark ·))
  let rest := cs.dropWhile (!isMark ·)
  let places ← fraction? (rest.takeWhile (!isLetter ·))
  let power ← exponent? (rest.dropWhile (!isLetter ·))
  return .float (double? negative (digits ++ places) (power - places.length))

end ProcessRuns.Toml
