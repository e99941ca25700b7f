import Storyboard.Number.Decimal.Text
import Storyboard.Number.Double

/-!
# Storyboard.Number.Double.Read

Floating-point numbers from text: spaces at the ends, a sign, digits of any script with
single underscores between them, a point, an exponent; or the words `inf`, `infinity`
and `nan` in any case.  The value is the number nearest to what the digits say.
-/

namespace Storyboard

namespace Double

open Text Decimal

/-- Whether underscores stand between two digits only. -/
def underscoresInside : List Char → Bool
  | [] => true
  | c :: cs => go c cs && c != '_'
where
  /-- The same for what follows the character `before`. -/
  go (before : Char) : List Char → Bool
    | [] => before != '_'
    | c :: cs => (c != '_' || before.isDigit) && (before != '_' || c.isDigit) && go c cs

/-- The number that a text denotes. -/
def read? (cs : List Char) : Option Double :=
  let cs := (trimSpaces cs).map asciiDigit
  if underscoresInside cs then
    match readPlain? (cs.filter (· != '_')) with
    | some (.finite negative c e) => some (ofDigits negative c e)
    | some (.infinite negative) => some (.infinite negative)
    | some (.nan _ false 0) =>
      if (cs.filter fun c => c != '+' && c != '-').length = 3 then some .nan else none
    | _ => none
  else none

end Double

end Storyboard
