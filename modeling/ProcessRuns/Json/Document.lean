import ProcessRuns.Decimal.Binary64
import ProcessRuns.Json.Basic
import ProcessRuns.Json.Dictionary

/-! # JSON documents

A JSON text as it was written: numbers as their literals, texts by the characters and escapes that spell them,
objects with all their members in the order of the text. What a document means is decided by who decodes it: as
a value, as a number of 64 bits, as a text. -/

namespace ProcessRuns.Json

open Decimal (Binary64)

/-- A number as it was written; every list holds decimal digits. -/
structure Literal where
  negative : Bool
  whole : List Char
  fraction : Option (List Char)
  /-- The sign and the digits of the exponent. -/
  exponent : Option (Bool × List Char)
deriving DecidableEq, Repr

namespace Literal

/-- The largest number of 64 bits. -/
def wordMax : Nat := 0xFFFFFFFFFFFFFFFF

/-- Reads digits into a significand for as long as it fits 64 bits; gives the digits left over too. -/
def absorb : Nat → List Char → Nat × List Char
  | n, [] => (n, [])
  | n, c :: cs =>
    let next := 10 * n + (c.toNat - '0'.toNat)
    if next ≤ wordMax then absorb next cs else (n, c :: cs)

/-- The double `n · 10 ^ e` by one rounded multiplication or division by a power of ten, or several divisions
where the power is not itself a double. -/
def float? (n : Nat) (e : Int) : Option Binary64 := do
  let significand ← Binary64.ofQuotient false n 1
  let ten (k : Nat) := Binary64.ofDecimal 1 k
  if n = 0 then return significand
  if 0 ≤ e then
    if 308 < e then none else significand.mul (← ten e.toNat)
  else
    let places := (-e).toNat
    let whole ← ten 308
    let step (x : Option Binary64) (_ : Nat) : Option Binary64 := do
      let y ← x
      if y.mantissa = 0 then return y else y.div whole
    -- Past three such divisions nothing is left.
    let reduced ← (List.range (min ((places - 1) / 308) 4)).foldl step (some significand)
    if reduced.mantissa = 0 then return reduced
    reduced.div (← ten (places - (places - 1) / 308 * 308))

/-- The largest exponent, which fits 32 bits. -/
def exponentMax : Nat := 0x7FFFFFFF

/-- The largest magnitude of a negative integer, which fits 64 bits. -/
def negativeMax : Nat := 0x8000000000000000

/-- The literal as a number of 64 bits without sign: digits alone. -/
def toWord? (l : Literal) : Option Nat :=
  match l.negative, l.fraction, l.exponent with
  | false, none, none =>
    let n := Nat.ofDigitChars 10 l.whole 0
    if n ≤ wordMax then some n else none
  | _, _, _ => none

/-- The literal as a value: an integer where 64 bits hold it, and otherwise a double in its range. -/
def toJson? (l : Literal) : Option Json := do
  let (n, left) := absorb 0 l.whole
  let signed (x : Binary64) : Json := float { x with negative := l.negative }
  if left.isEmpty && l.fraction.isNone && l.exponent.isNone then
    if !l.negative then return int n
    if n ≠ 0 ∧ n ≤ negativeMax then return int (-n)
    return signed (← float? n 0)
  let digits := l.fraction.getD []
  let (n, ignored) := absorb n digits
  let start : Int := (left.length : Int) - (digits.length - ignored.length : Nat)
  match l.exponent with
  | none => return signed (← float? n start)
  | some (down, power) =>
    let p := Nat.ofDigitChars 10 power 0
    if exponentMax < p then
      if n ≠ 0 ∧ !down then none else return signed (Binary64.zero false)
    else return signed (← float? n (if down then start - p else start + p))

end Literal

/-- A character of a quoted text, or the number that an escape `\u` gives. -/
inductive Spelled where
  | char (c : Char)
  | unit (n : Nat)
deriving DecidableEq, Repr

namespace Spelled

/-- The first half of a pair of surrogates. -/
def isHigh (n : Nat) : Bool := 0xD800 ≤ n && n ≤ 0xDBFF

/-- The second half of a pair of surrogates. -/
def isLow (n : Nat) : Bool := 0xDC00 ≤ n && n ≤ 0xDFFF

/-- The characters that are spelled: two surrogates in a row make one, a surrogate alone makes none. -/
def assemble : List Spelled → Option (List Char)
  | [] => some []
  | char c :: rest => (assemble rest).map (c :: ·)
  | unit h :: rest =>
    if isHigh h then
      match rest with
      | unit l :: rest =>
        if isLow l then
          (assemble rest).map (Char.ofNat (0x10000 + (h - 0xD800) * 0x400 + (l - 0xDC00)) :: ·)
        else none
      | _ => none
    else if isLow h then none
    else (assemble rest).map (Char.ofNat h :: ·)

end Spelled

/-- The spelling of a quoted text. -/
abbrev Spelling := List Spelled

/-- The text that is spelled. -/
def Spelling.toText? (s : Spelling) : Option String := (Spelled.assemble s).map String.ofList

/-- A value as it is written: numbers and texts are kept as they are spelled. -/
inductive Document where
  | null
  | bool (value : Bool)
  | number (literal : Literal)
  | text (spelling : Spelling)
  | array (items : List Document)
  | object (members : List (Spelling × Document))
deriving Repr

namespace Document

instance : Inhabited Document := ⟨null⟩

/-- The deepest nesting of arrays and objects in a value. -/
def depthLimit : Nat := 127

mutual

/-- The value of a document whose arrays and objects are nested at most `depth` deep. -/
def toJsonWithin? (depth : Nat) : Document → Option Json
  | null => some .null
  | bool b => some (.bool b)
  | number l => l.toJson?
  | text s => s.toText?.map .text
  | array items => if depth = 0 then none else (itemsWithin? (depth - 1) items).map .array
  | object members =>
    if depth = 0 then none
    else (membersWithin? (depth - 1) members).map fun entries => .object (Dictionary.ofEntries entries)

/-- The values of the items of a list. -/
def itemsWithin? (depth : Nat) : List Document → Option (List Json)
  | [] => some []
  | d :: rest => do return (← toJsonWithin? depth d) :: (← itemsWithin? depth rest)

/-- The values of the members of an object. -/
def membersWithin? (depth : Nat) : List (Spelling × Document) → Option (List (String × Json))
  | [] => some []
  | (key, d) :: rest => do
    return (← key.toText?, ← toJsonWithin? depth d) :: (← membersWithin? depth rest)

end

/-- The value of a document; of the members under one key the last counts. -/
def toJson? (d : Document) : Option Json := d.toJsonWithin? depthLimit

end Document

end ProcessRuns.Json
