import Storyboard.Number.Decimal

/-!
# Storyboard.Number.Double

Binary floating-point numbers of 64 bits, as exact values: a finite one is
`± significand · 2 ^ exponent` in the one canonical form, so that equal numbers are
equal terms and every question about them is one about integers.  The library computes
nothing in floating point; it reads such numbers, compares them, and writes them.

`ofRatio` is the rounding on which all reading rests: the nearest number of the format,
half to even, infinity beyond the largest.
-/

namespace Storyboard

open Number

namespace Double

/-- The exponent of the smallest numbers. -/
def minExponent : Int := -1074

/-- The exponent of the largest numbers. -/
def maxExponent : Int := 971

/-- The one form of a finite number: 53 binary digits with the first of them set,
except at the smallest exponent. -/
def Canonical (significand : Nat) (exponent : Int) : Prop :=
  significand < twos 53 ∧ minExponent ≤ exponent ∧ exponent ≤ maxExponent ∧
    (twos 52 ≤ significand ∨ exponent = minExponent)

instance (significand : Nat) (exponent : Int) : Decidable (Canonical significand exponent) := by
  unfold Canonical; infer_instance

end Double

/-- A floating-point number of 64 bits. -/
inductive Double
  | finite (negative : Bool) (significand : Nat) (exponent : Int)
    (canonical : Double.Canonical significand exponent)
  | infinite (negative : Bool)
  | nan
  deriving DecidableEq

namespace Double

/-- Zero. -/
def zero (negative : Bool) : Double := .finite negative 0 minExponent (by decide)

instance : Inhabited Double := ⟨zero false⟩

/-- The finite number of these parts; parts beyond the largest number give infinity. -/
def ofParts (negative : Bool) (significand : Nat) (exponent : Int) : Double :=
  if h : Canonical significand exponent then .finite negative significand exponent h
  else .infinite negative

/-- `n / d` in units of `2 ^ e`, as a fraction. -/
def inUnits (n d : Nat) (e : Int) : Nat × Nat :=
  if 0 ≤ e then (n, d * twos e.toNat) else (n * twos (-e).toNat, d)

/-- The exponent at which `n / d` has 53 binary digits, or the smallest one. -/
def exponentFor (n d : Nat) : Int :=
  let guess : Int := (n.log2 : Int) - d.log2 - 52
  let (a, b) := inUnits n d guess
  max minExponent (if a < twos 52 * b then guess - 1 else guess)

/-- The number nearest to `± n / d`. -/
def ofRatio (negative : Bool) (n d : Nat) : Double :=
  if n = 0 then zero negative
  else
    let e := exponentFor n d
    let (a, b) := inUnits n d e
    let m := roundHalfEven a b
    if m = twos 53 then ofParts negative (twos 52) (e + 1) else ofParts negative m e

/-- The number nearest to `± c · 10 ^ e`.  Exponents out of all reach are not worked
out. -/
def ofDigits (negative : Bool) (c : Nat) (e : Int) : Double :=
  if c = 0 then zero negative
  else
    let first := e + digitCount c
    if 400 < first then .infinite negative
    else if first < -400 then zero negative
    else if 0 ≤ e then ofRatio negative (c * tens e.toNat) 1
    else ofRatio negative c (tens (-e).toNat)

instance : OfScientific Double where
  ofScientific c below e := ofDigits false c (if below then -(e : Int) else e)

/-- The number nearest to an integer. -/
def ofInt (i : Int) : Double := ofRatio (decide (i < 0)) i.natAbs 1

/-- The number nearest to a decimal; a NaN stays one. -/
def ofDecimal : Decimal → Double
  | .finite negative c e => ofDigits negative c e
  | .infinite negative => .infinite negative
  | .nan _ _ _ => .nan

/-- The opposite number. -/
def neg : Double → Double
  | .finite negative m e h => .finite (!negative) m e h
  | .infinite negative => .infinite (!negative)
  | .nan => .nan

/-- The magnitude of a finite number, as a fraction. -/
def magnitude (significand : Nat) (exponent : Int) : Nat × Nat :=
  if 0 ≤ exponent then (significand * twos exponent.toNat, 1)
  else (significand, twos (-exponent).toNat)

/-- The rational number that a finite number denotes. -/
def toRat? : Double → Option Rat
  | .finite negative m e _ =>
    let (n, d) := magnitude m e
    some (mkRat (Decimal.withSign negative n) d)
  | _ => none

/-- Whether a number is finite. -/
def isFinite : Double → Bool
  | .finite _ _ _ _ => true
  | _ => false

/-- Whether a number is zero, of either sign. -/
def isZero : Double → Bool
  | .finite _ m _ _ => m == 0
  | _ => false

/-- The number without its fraction, as an integer. -/
def toInt : Double → Except Fault Int
  | .finite negative m e _ =>
    let (n, d) := magnitude m e
    .ok (Decimal.withSign negative (n / d))
  | .infinite _ => .error .integerTooLarge
  | .nan => .error .valueUnsuited

/-- The sum, rounded. -/
def add (x y : Double) : Double :=
  match x.toRat?, y.toRat? with
  | some p, some q =>
    let s := p + q
    ofRatio (decide (s < 0)) s.num.natAbs s.den
  | none, some _ => x
  | some _, none => y
  | none, none => if x = y then x else .nan

/-- The product with a natural number; the number and then the product are rounded. -/
def scale (x : Double) (k : Nat) : Double :=
  match x, ofInt k with
  | .finite negative m e _, .finite _ m' e' _ =>
    let (n, d) := magnitude m e
    let (n', d') := magnitude m' e'
    ofRatio negative (n * n') (d * d')
  | x, _ => x

end Double

end Storyboard
