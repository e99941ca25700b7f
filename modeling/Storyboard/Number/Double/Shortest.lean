import Storyboard.Number.Double

/-!
# Storyboard.Number.Double.Shortest

The fewest decimal digits that read back as a given floating-point number, and of all
texts with that many digits the nearest to it.  For one digit, two digits, and so on up
to seventeen, the two neighbours of the number on the grid of that many digits are read
back; the first grid on which one of them succeeds gives the digits.  Of two that
succeed the nearer is taken, and the even one if both are equally near.
-/

namespace Storyboard

namespace Double

open Number

/-- The exponent of ten of the first digit of `n / d`, a positive number of the
format. -/
def firstPlace (n d : Nat) : Int := (digitCount (n * tens 340 / d) : Int) - 341

/-- `n / d` over the unit `10 ^ e`, as a fraction. -/
def inTens (n d : Nat) (e : Int) : Nat × Nat :=
  if 0 ≤ e then (n, d * tens e.toNat) else (n * tens (-e).toNat, d)

/-- The neighbour of `x = n / d` on the grid of `10 ^ e` that reads back as `x`. -/
def onGrid? (x : Double) (n d : Nat) (e : Int) : Option Nat :=
  let (a, b) := inTens n d e
  let low := a / b
  let rest := a % b
  let lowHits := decide (ofDigits false low e = x)
  let highHits := decide (ofDigits false (low + 1) e = x)
  if lowHits && highHits then
    some (if 2 * rest < b then low
      else if b < 2 * rest then low + 1
      else if low % 2 = 0 then low else low + 1)
  else if lowHits then some low
  else if highHits then some (low + 1)
  else none

/-- The first of `count` grids, the next ones each ten times finer, that has a
neighbour reading back. -/
def search (x : Double) (n d : Nat) (e : Int) : Nat → Nat × Int
  | 0 => (0, 0)
  | count + 1 =>
    match onGrid? x n d e with
    | some c => (c, e)
    | none => search x n d (e - 1) count

/-- A coefficient without zeros at its end; `fuel` bounds how many are taken off. -/
def dropZeros : Nat → Nat → Int → Nat × Int
  | 0, c, e => (c, e)
  | fuel + 1, c, e => if c % 10 = 0 then dropZeros fuel (c / 10) (e + 1) else (c, e)

/-- Coefficient and exponent of the shortest decimal for a positive number of the
format, given by its parts. -/
def shortest (significand : Nat) (exponent : Int) : Nat × Int :=
  let (n, d) := magnitude significand exponent
  let x := ofParts false significand exponent
  let (c, e) := search x n d (firstPlace n d) 17
  if c = 0 then (c, e) else dropZeros 18 c e

/-! ## how the digits are set -/

/-- How a floating-point number is laid out. -/
structure Layout where
  /-- The least exponent of the first digit that is written without an exponent. -/
  positionalFrom : Int
  /-- The first exponent above that is written with one. -/
  positionalBelow : Int
  /-- The least number of digits of a written exponent. -/
  exponentDigits : Nat
  /-- The text of infinity, before its sign. -/
  infinity : String
  /-- The text of a NaN. -/
  nan : String

/-- Numbers are written without an exponent from `0.0001` up to below `10 ^ 16`, whole
ones with a zero after the point. -/
def plainLayout : Layout := ⟨-4, 16, 2, "inf", "nan"⟩

/-- The same in a JSON document, but for the spelling of what is not finite. -/
def jsonLayout : Layout := { plainLayout with infinity := "Infinity", nan := "NaN" }

/-- A positive number of digits `ds` over the exponent `e`. -/
def digitsText (layout : Layout) (ds : List Char) (e : Int) : String :=
  let first := e + ds.length - 1
  if layout.positionalFrom ≤ first ∧ first < layout.positionalBelow then
    if 0 ≤ e then String.ofList (ds ++ List.replicate e.toNat '0') ++ ".0"
    else if 0 ≤ first then
      String.ofList (ds.take (first + 1).toNat ++ '.' :: ds.drop (first + 1).toNat)
    else String.ofList ('0' :: '.' :: (List.replicate (-(first + 1)).toNat '0' ++ ds))
  else
    let mantissa :=
      match ds with
      | c :: c' :: rest => String.ofList (c :: '.' :: c' :: rest)
      | ds => String.ofList ds
    let exponent := first.natAbs.repr.toList
    mantissa ++ "e" ++ (if first < 0 then "-" else "+")
      ++ String.ofList (List.replicate (layout.exponentDigits - exponent.length) '0' ++ exponent)

/-- A floating-point number in the fewest digits. -/
def textIn (layout : Layout) : Double → String
  | .finite negative m e _ =>
    (if negative then "-" else "") ++
      if m = 0 then "0.0"
      else
        let (c, e) := shortest m e
        digitsText layout c.repr.toList e
  | .infinite negative => (if negative then "-" else "") ++ layout.infinity
  | .nan => layout.nan

/-- A floating-point number as plain text. -/
def text (x : Double) : String := textIn plainLayout x

/-- The decimal that the plain text of a number denotes, with the zero after the point
of a whole number. -/
def toDecimal : Double → Decimal
  | .finite negative m e _ =>
    if m = 0 then .finite negative 0 (-1)
    else
      let (c, e) := shortest m e
      if 0 ≤ e ∧ e + digitCount c - 1 < plainLayout.positionalBelow then
        .finite negative (c * tens (e + 1).toNat) (-1)
      else .finite negative c e
  | .infinite negative => .infinite negative
  | .nan => .nan false false 0

end Double

end Storyboard
