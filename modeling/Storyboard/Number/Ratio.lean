import Storyboard.Number.Decimal
import Storyboard.Number.Integer

/-!
# Storyboard.Number.Ratio

Exact quotients: frame rates such as `30000/1001`, and numbers of seconds that are to be
rounded to whole units.  `roundHalfUp` rounds a half upwards, also below zero.
-/

namespace Storyboard.Number

open Text

/-- A quotient as text; the denominator one is left out. -/
def ratioText (q : Rat) : Except Fault String := do
  let whole ← integerText q.num
  if q.den = 1 then return whole else return whole ++ "/" ++ (← integerText q.den)

/-- The nearest whole number, a half going upwards. -/
def roundHalfUp (q : Rat) : Int :=
  let whole := q.num / q.den
  let rest := q.num - whole * q.den
  if (q.den : Int) ≤ rest * 2 then whole + 1 else whole

/-- `n · 10 ^ e`. -/
def tensRatio (n : Int) (e : Int) : Rat :=
  if 0 ≤ e then ((n * tens e.toNat : Int) : Rat) else mkRat n (tens (-e).toNat)

/-- A run of digits, or nothing, and what it denotes together with its length. -/
def optionalRun? (cs : List Char) : Option (Nat × Nat) :=
  if cs.isEmpty then some (0, 0)
  else
    (digitRun? cs).bind fun ds =>
      if digitLimit < ds.length then none else some (ofDigits 10 ds, ds.length)

/-- Whether a character can stand in a run of digits. -/
def inRun (c : Char) : Bool := c == '_' || (decimalValue? c).isSome

/-- Whether an unsigned number begins here: a digit, or a point before a digit. -/
def startsNumber : List Char → Bool
  | '.' :: c :: _ => (decimalValue? c).isSome
  | c :: _ => (decimalValue? c).isSome
  | [] => false

/-- The exponent that ends a number: nothing, or `e` and an integer. -/
def exponentOf? : List Char → Option Int
  | [] => some 0
  | c :: cs =>
    if c = 'e' ∨ c = 'E' then
      let (negative, ds) := signOf cs
      (readNatural? ds).map (Decimal.withSign negative)
    else none

/-- The quotient that a decimal text denotes: blanks at the ends, a sign, digits with a
point and an exponent. -/
def readRatio? (cs : List Char) : Option Rat :=
  let (negative, cs) := signOf (trim cs)
  if startsNumber cs then
    let whole := cs.takeWhile inRun
    let rest := cs.dropWhile inRun
    let (fraction, rest) :=
      match rest with
      | '.' :: rest => (rest.takeWhile inRun, rest.dropWhile inRun)
      | rest => ([], rest)
    match optionalRun? whole, optionalRun? fraction, exponentOf? rest with
    | some (w, _), some (f, places), some e =>
      some (tensRatio (Decimal.withSign negative (w * tens places + f)) (e - places))
    | _, _, _ => none
  else none

/-- The quotient that a finite decimal is; the others are none. -/
def ratioOfDecimal (d : Decimal) : Except Fault Rat :=
  match d with
  | .finite negative c e => .ok (tensRatio (Decimal.withSign negative c) e)
  | _ => .error .valueUnsuited

end Storyboard.Number
