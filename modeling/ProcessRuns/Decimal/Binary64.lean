/-! # Double precision numbers

A finite binary number of 53 bits as an integer pair, rounding of a quotient to the nearest such number, and
the fewest decimal digits that round back to it. Everything is exact arithmetic on natural numbers. -/

namespace ProcessRuns.Decimal

/-- The number `± mantissa · 2 ^ exponent`, with `mantissa < 2 ^ 53` and `-1074 ≤ exponent ≤ 971`. -/
structure Binary64 where
  negative : Bool
  mantissa : Nat
  exponent : Int
deriving DecidableEq, Repr

/-- The integer nearest to `num / den`, the even one of two. -/
def roundQuotient (num den : Nat) : Nat :=
  let q := num / den
  let twice := 2 * (num % den)
  if den < twice || (twice == den && q % 2 == 1) then q + 1 else q

/-- `n · base ^ e` as a quotient of natural numbers. -/
def scaled (base n : Nat) (e : Int) : Nat × Nat :=
  if 0 ≤ e then (n * base.pow e.toNat, 1) else (n, base.pow (-e).toNat)

namespace Binary64

/-- The least mantissa of a number with all 53 bits, `2 ^ 52`. -/
def mantissaMin : Nat := 0x10000000000000

/-- The first number that needs one more bit, `2 ^ 53`. -/
def mantissaEnd : Nat := 0x20000000000000

/-- The zero of a sign. -/
def zero (negative : Bool) : Binary64 := ⟨negative, 0, -1074⟩

/-- The double nearest to `± num / den`, none where that is beyond the largest double. -/
def ofQuotient (negative : Bool) (num den : Nat) : Option Binary64 :=
  if num == 0 then some (zero negative)
  else
    let estimate : Int := max ((num.log2 : Int) - (den.log2 : Int) - 52) (-1074)
    let (n, d) := scaled 2 num (-estimate)
    -- The estimate may be one too large.
    let exponent := if n < d * den * mantissaMin then max (estimate - 1) (-1074) else estimate
    let (n, d) := scaled 2 num (-exponent)
    let mantissa := roundQuotient n (d * den)
    let (mantissa, exponent) :=
      if mantissa == mantissaEnd then (mantissaMin, exponent + 1) else (mantissa, exponent)
    if 971 < exponent then none else some ⟨negative, mantissa, exponent⟩

/-- The double nearest to `n · 10 ^ e`. -/
def ofDecimal (n : Nat) (e : Int) : Option Binary64 :=
  let (num, den) := scaled 10 n e
  ofQuotient false num den

/-- The magnitude as a quotient. -/
def quotient (x : Binary64) : Nat × Nat := scaled 2 x.mantissa x.exponent

/-- The rounded product. -/
def mul (x y : Binary64) : Option Binary64 :=
  let (xn, xd) := x.quotient
  let (yn, yd) := y.quotient
  ofQuotient (x.negative != y.negative) (xn * yn) (xd * yd)

/-- The rounded quotient, for `y` not zero. -/
def div (x y : Binary64) : Option Binary64 :=
  let (xn, xd) := x.quotient
  let (yn, yd) := y.quotient
  ofQuotient (x.negative != y.negative) (xn * yd) (xd * yn)

/-- `|a/b - c/d|` as a quotient. -/
def distance (a b c d : Nat) : Nat × Nat :=
  ((a * d - c * b) + (c * b - a * d), b * d)

/-- A decimal `n · 10 ^ e` that rounds to the magnitude of `x`. -/
def readsBack (x : Binary64) (n : Nat) (e : Int) : Bool :=
  match ofDecimal n e with
  | some y => y.mantissa == x.mantissa && y.exponent == x.exponent
  | none => false

/-- Of the two neighbours of `x` on the grid of multiples of `10 ^ e`, the nearer one that reads back. -/
def onGrid (x : Binary64) (e : Int) : Option Nat :=
  let (num, den) := x.quotient
  let (p, q) := scaled 10 1 e
  let below := num * q / (den * p)
  let candidates := [below, below + 1].filter fun n => 0 < n && x.readsBack n e
  match candidates with
  | [a, b] =>
    let (an, ad) := scaled 10 a e
    let (bn, bd) := scaled 10 b e
    let (dn, dd) := distance num den an ad
    let (en, ed) := distance num den bn bd
    some (if dn * ed < en * dd then a else if en * dd < dn * ed then b else if a % 2 == 0 then a else b)
  | [a] => some a
  | _ => none

/-- The decimal exponent `k` with `10 ^ (k - 1) ≤ |x| < 10 ^ k`, for `x` not zero. -/
def magnitude (x : Binary64) : Int :=
  let (num, den) := x.quotient
  let guess : Int := (((num.log2 : Int) - (den.log2 : Int)) * 30103) / 100000
  let least := (List.range 5).find? fun (i : Nat) =>
    let (p, q) := scaled 10 1 (guess - 1 + i)
    num * q < p * den
  guess - 1 + (least.getD 0 : Nat)

/-- The fewest digits `n`, with a power of ten `e`, such that `n · 10 ^ e` reads back as `x`; none for zero. -/
def shortest (x : Binary64) : Option (Nat × Int) :=
  if x.mantissa == 0 then none
  else
    let k := x.magnitude
    (List.range 18).findSome? fun (i : Nat) => (x.onGrid (k - i)).map fun n => (n, k - i)

end Binary64

end ProcessRuns.Decimal
