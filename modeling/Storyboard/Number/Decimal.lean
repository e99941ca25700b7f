import Storyboard.Fault
import Storyboard.Number.Power
import Storyboard.Number.Rounding

/-!
# Storyboard.Number.Decimal

Decimal numbers, in which all times of a specification are reckoned.  A finite decimal
is `± coefficient · 10 ^ exponent` and keeps its trailing zeros; besides there are the
two infinities and the NaNs, quiet or signaling, with a payload.

Reading a decimal is exact.  Sums and differences are exact too and then *fitted*: at
most `precision` digits are kept, rounded half to even (`fit`), and an exponent above
`maxExponent` overflows.  Operations without a result (`∞ - ∞`, a remainder of `∞`, an
order that involves a NaN) are faults.
-/

namespace Storyboard

/-- A decimal number. -/
inductive Decimal
  | finite (negative : Bool) (coefficient : Nat) (exponent : Int)
  | infinite (negative : Bool)
  | nan (negative signaling : Bool) (payload : Nat)
  deriving DecidableEq, Repr

namespace Decimal

open Number

/-- The integer `i`, with exponent zero. -/
def ofInt (i : Int) : Decimal := .finite (decide (i < 0)) i.natAbs 0

/-- Zero. -/
def zero : Decimal := .finite false 0 0

instance : Inhabited Decimal := ⟨zero⟩

/-- The digits a computed result keeps. -/
def precision : Nat := 28

/-- The largest exponent of a computed result's first digit. -/
def maxExponent : Int := 999999

/-- The exponent of the last digit below which a computed result keeps none. -/
def minLastExponent : Int := -999999 - 27

/-- `true` gives the negative of the number. -/
def withSign (negative : Bool) (n : Nat) : Int := if negative then -(n : Int) else (n : Int)

/-- The coefficient over a smaller exponent. -/
def aligned (coefficient : Nat) (exponent low : Int) : Nat :=
  coefficient * tens (exponent - low).toNat

/-- The rational number that a finite decimal denotes. -/
def toRat? : Decimal → Option Rat
  | .finite negative c e =>
    some (if 0 ≤ e then (withSign negative (c * tens e.toNat) : Rat)
      else mkRat (withSign negative c) (tens (-e).toNat))
  | _ => none

/-- Whether a decimal is a NaN. -/
def isNan : Decimal → Bool
  | .nan _ _ _ => true
  | _ => false

/-- Whether a decimal is finite. -/
def isFinite : Decimal → Bool
  | .finite _ _ _ => true
  | _ => false

/-! ## fitting a result -/

/-- The exact result `± c · 10 ^ e` with the digits it may keep. -/
def fit (negative : Bool) (c : Nat) (e : Int) : Except Fault Decimal :=
  if c = 0 then .ok (.finite negative 0 (max minLastExponent (min maxExponent e)))
  else
    let drop := (max ((digitCount c : Int) - precision) (minLastExponent - e)).toNat
    let kept := roundHalfEven c (tens drop)
    let low := e + drop
    let (kept, low) := if tens precision ≤ kept then (kept / 10, low + 1) else (kept, low)
    if maxExponent < low + digitCount kept - 1 then .error .decimalOverflow
    else .ok (.finite negative kept low)

/-! ## sums and differences -/

/-- The NaN that an operation on `x` and `y` gives, if either is one: a signaling NaN
stops the operation, a quiet one is handed on, the left before the right. -/
def nanOf? (x y : Decimal) : Option (Except Fault Decimal) :=
  match x, y with
  | .nan _ true _, _ => some (.error .decimalUndefined)
  | _, .nan _ true _ => some (.error .decimalUndefined)
  | .nan n false p, _ => some (.ok (.nan n false p))
  | _, .nan n false p => some (.ok (.nan n false p))
  | _, _ => none

/-- The opposite; a NaN stays as it is. -/
def neg : Decimal → Decimal
  | .finite negative c e => .finite (!negative) c e
  | .infinite negative => .infinite (!negative)
  | x => x

/-- The sum of two decimals of which neither is a NaN. -/
def addNumbers : Decimal → Decimal → Except Fault Decimal
  | .finite n c e, .finite n' c' e' =>
    let low := min e e'
    let sum := withSign n (aligned c e low) + withSign n' (aligned c' e' low)
    fit (if sum = 0 then n && n' else decide (sum < 0)) sum.natAbs low
  | .infinite n, .infinite n' =>
    if n = n' then .ok (.infinite n) else .error .decimalUndefined
  | .infinite n, _ => .ok (.infinite n)
  | _, .infinite n => .ok (.infinite n)
  | x, _ => .ok x

/-- The sum. -/
def add (x y : Decimal) : Except Fault Decimal := (nanOf? x y).getD (addNumbers x y)

/-- The difference. -/
def sub (x y : Decimal) : Except Fault Decimal := (nanOf? x y).getD (addNumbers x y.neg)

/-! ## order -/

/-- The order of two decimals; a NaN has none. -/
def cmp : Decimal → Decimal → Option Ordering
  | .nan _ _ _, _ => none
  | _, .nan _ _ _ => none
  | .infinite n, .infinite n' => some (compare (!n) (!n'))
  | .infinite n, .finite _ _ _ => some (if n then .lt else .gt)
  | .finite _ _ _, .infinite n => some (if n then .gt else .lt)
  | .finite n c e, .finite n' c' e' =>
    let low := min e e'
    some (compare (withSign n (aligned c e low)) (withSign n' (aligned c' e' low)))

/-- Whether `x < y`; to ask it of a NaN is a fault. -/
def less (x y : Decimal) : Except Fault Bool :=
  match x.cmp y with
  | some o => .ok (o == .lt)
  | none => .error .decimalUndefined

/-- Whether two decimals are equal; a quiet NaN equals nothing, a signaling one stops
the question. -/
def same (x y : Decimal) : Except Fault Bool :=
  match x, y with
  | .nan _ true _, _ => .error .decimalUndefined
  | _, .nan _ true _ => .error .decimalUndefined
  | x, y => .ok (x.cmp y == some .eq)

/-- Whether `0 < x`. -/
def isPositive (x : Decimal) : Except Fault Bool := zero.less x

/-- The greater of two decimals, the first if they are equal. -/
def greater (x y : Decimal) : Except Fault Decimal := do
  if ← x.less y then return y else return x

/-! ## whole numbers -/

/-- Whether a decimal has no fraction; infinity counts, a NaN does not. -/
def isWhole : Decimal → Except Fault Bool
  | .finite _ c e => .ok (decide (0 ≤ e) || c % tens (-e).toNat == 0)
  | .infinite _ => .ok true
  | .nan _ signaling _ => if signaling then .error .decimalUndefined else .ok false

/-- The decimal without its fraction, as an integer. -/
def toInt : Decimal → Except Fault Int
  | .finite n c e =>
    .ok (withSign n (if 0 ≤ e then c * tens e.toNat else c / tens (-e).toNat))
  | .infinite _ => .error .integerTooLarge
  | .nan _ _ _ => .error .valueUnsuited

/-- Quotient, cut to a whole number, and remainder of a magnitude by `d`; the remainder
is a coefficient over the second exponent. -/
def quotRem (c : Nat) (e : Int) (d : Nat) : Nat × Nat × Int :=
  if 0 ≤ e then
    let n := c * tens e.toNat
    (n / d, n % d, 0)
  else
    let unit := d * tens (-e).toNat
    (c / unit, c % unit, e)

/-- How often `d` goes into a decimal; a quotient of more than `precision` digits has no
result. -/
def quot (x : Decimal) (d : Nat) : Except Fault Decimal :=
  match x with
  | .finite n c e =>
    let (q, _, _) := quotRem c e d
    if tens precision ≤ q then .error .decimalUndefined else .ok (.finite n q 0)
  | .infinite n => .ok (.infinite n)
  | .nan n signaling p => if signaling then .error .decimalUndefined else .ok (.nan n false p)

/-- What remains of a decimal after that, with the sign of the decimal. -/
def rem (x : Decimal) (d : Nat) : Except Fault Decimal :=
  match x with
  | .finite n c e =>
    let (q, r, low) := quotRem c e d
    if tens precision ≤ q then .error .decimalUndefined else fit n r low
  | .infinite _ => .error .decimalUndefined
  | .nan n signaling p => if signaling then .error .decimalUndefined else .ok (.nan n false p)

end Decimal

end Storyboard
