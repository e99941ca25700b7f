import Storyboard.Number.Decimal.Places
import Storyboard.Number.Double.Read
import Storyboard.Value.Text

/-!
# Storyboard.Value.Time

Values as times, rates and filter options.  A time is an integer, a floating-point
number, a decimal or a text that denotes one; truth values are no times although they
count as numbers elsewhere.  A floating-point number enters as the decimal of its
shortest text, so that `0.1` is one tenth exactly.
-/

namespace Storyboard

open Number

/-- A number of seconds in whole milliseconds, a half going upwards. -/
def Decimal.milliseconds (d : Decimal) : Except Fault Int := do
  return roundHalfUp ((← ratioOfDecimal d) * 1000)

namespace Value

/-- A value as a time in seconds. -/
def toDecimal : Value → Except Fault Decimal
  | .null => .error (.refused .timeMissing)
  | .decimal d => .ok d
  | .int i => .ok (.ofInt i)
  | .float x => .ok x.toDecimal
  | .text s => Decimal.read s
  | _ => .error (.refused .timeNotNumeric)

/-- The decimal that a value's text denotes, which is how durations are summed. -/
def toDecimalByText (v : Value) : Except Fault Decimal := do
  Decimal.read (← v.plainText)

/-- A time as filter text. -/
def numberText (v : Value) : Except Fault String := do
  return (← (← v.toDecimal).written).shortText

/-- A frame rate: whole, or an exact quotient written with a slash. -/
def rateText (v : Value) : Except Fault String :=
  match v with
  | .ratio q => ratioText q
  | v => v.numberText

/-- A value as a filter option: truth values as `1` and `0`, numbers in their short
form, everything else as its own text. -/
def optionText (v : Value) : Except Fault String :=
  match v with
  | .bool b => .ok (if b then "1" else "0")
  | .ratio q => ratioText q
  | .int i => (Value.int i).numberText
  | .float x => (Value.float x).numberText
  | .decimal d => (Value.decimal d).numberText
  | v => v.plainText

/-- A time in whole milliseconds. -/
def milliseconds (v : Value) : Except Fault Int := do
  (← v.toDecimal).milliseconds

/-- A time as a number of a record: an integer where it is whole, else the nearest
floating-point number. -/
def recordNumber (v : Value) : Except Fault Value := do
  let d ← v.toDecimal
  if ← d.isWhole then return .int (← d.toInt) else return .float (.ofDecimal d)

/-! ## frame rates -/

/-- The rate that a text denotes: two integers with a slash between them, of which what
follows a second slash is not read, or a decimal text. -/
def readRate? (s : String) : Option Rat :=
  let cs := s.toList
  match cs.splitOn '/' with
  | n :: d :: _ =>
    match readInteger? n, readInteger? d with
    | some n, some d => if d = 0 then none else some ((n : Rat) / (d : Rat))
    | _, _ => none
  | _ => readRatio? cs

/-- A value as an exact frame rate. -/
def toRate : Value → Except Fault Rat
  | .null => .error (.refused .rateMissing)
  | .int i => .ok i
  | .float x => ratioOfDecimal x.toDecimal
  | .text s => (readRate? s).elim (.error (.refused (.rateUnreadable s))) .ok
  | _ => .error (.refused .rateNotNumeric)

end Value

end Storyboard
