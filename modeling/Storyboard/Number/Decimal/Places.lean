import Storyboard.Number.Decimal.Text

/-!
# Storyboard.Number.Decimal.Places

Numbers as they stand in filter text: rounded to a millionth, half to even, without
trailing zeros, without a point before nothing and without the sign of a zero.  The zeros
that an exponent stands for are written out, of which there may be too many.

* `written_eq_ok` — only a decimal that can be written is.
-/

namespace Storyboard

namespace Decimal

open Number

/-- How many places after the point a number keeps. -/
def places : Nat := 6

/-- The magnitude `c · 10 ^ e` in millionths, rounded.  Of a magnitude below a tenth of a
millionth, and of zero, the power of ten is not worked out. -/
def millionths (c : Nat) (e : Int) : Nat :=
  if c = 0 ∨ digitCount c + e + places < 0 then 0
  else if -(places : Int) ≤ e then c * tens (e + places).toNat
  else roundHalfEven c (tens (-(e + places)).toNat)

/-- The digits after the point, for so many millionths, zeros at the end left off. -/
def fractionDigits (millionths : Nat) : List Char :=
  let ds := millionths.repr.toList
  let all := List.replicate (places - ds.length) '0' ++ ds
  (all.reverse.dropWhile (· = '0')).reverse

/-- So many millionths as a number. -/
def millionthsText (negative : Bool) (m : Nat) : String :=
  let whole := (m / tens places).repr
  let fraction := fractionDigits (m % tens places)
  signText (negative && m != 0) ++ whole ++
    if fraction.isEmpty then "" else "." ++ String.ofList fraction

/-- A decimal as filter text. -/
def shortText : Decimal → String
  | .finite negative c e => millionthsText negative (millionths c e)
  | x => x.text

/-- Whether a decimal can be written so: no zeros follow its digits, or these and the
places are no more digits than a decimal can have. -/
def isWritable : Decimal → Bool
  | .finite _ c e =>
    decide (e ≤ 0) || c == 0 || decide (digitCount c + e + places ≤ farExponent + 1)
  | _ => true

/-- A decimal that is to be written. -/
def written (d : Decimal) : Except Fault Decimal :=
  if d.isWritable then .ok d else .error .valueUnsuited

theorem written_eq_ok {d x : Decimal} : d.written = .ok x ↔ d.isWritable = true ∧ x = d := by
  unfold written
  split
  · next h => simp [h, eq_comm]
  · next h => simp [h]

end Decimal

end Storyboard
