import Storyboard.Color.Names
import Storyboard.Text.Case
import Storyboard.Text.Digit

/-!
# Storyboard.Color

Colors as texts.  A specification may use a color name in any case, or six or eight
digits of base sixteen after `#` or `0x`; the last two of eight are an opacity.  A color
card is drawn from the same names and digits, and besides from three or four digits, each
of which counts twice; it has no opacity.  Either way a line end after the digits is not
looked at.
-/

namespace Storyboard.Color

open Text

/-- The value of a name, in any case. -/
def named? (s : String) : Option Nat := names.lookup (lower s)

/-- A text without one line end after it. -/
def dropLineEnd (cs : List Char) : List Char :=
  if cs.getLast? = some '\n' then cs.dropLast else cs

/-- Whether a text is six or eight digits of base sixteen after `#` or `0x`. -/
def isHex (s : String) : Bool :=
  let digits? :=
    match dropLineEnd s.toList with
    | '#' :: ds => some ds
    | '0' :: 'x' :: ds => some ds
    | _ => none
  digits?.elim false fun ds => (ds.length == 6 || ds.length == 8) && ds.all isHexDigit

/-- Whether a specification may use a text as a color. -/
def isColor (s : String) : Bool := isHex s || (named? s).isSome

/-- Red, green and blue. -/
structure RGB where
  red : Nat
  green : Nat
  blue : Nat
  deriving DecidableEq, Repr

/-- Red, green and blue that are given as one number. -/
def RGB.ofNat (n : Nat) : RGB := ⟨n / 0x10000 % 0x100, n / 0x100 % 0x100, n % 0x100⟩

/-- The color of so many digits of base sixteen, the opacity left out. -/
def ofHexDigits? (ds : List Nat) : Option RGB :=
  match ds with
  | [r, g, b] => some ⟨r * 17, g * 17, b * 17⟩
  | [r, g, b, _] => some ⟨r * 17, g * 17, b * 17⟩
  | [r, r', g, g', b, b'] => some ⟨r * 16 + r', g * 16 + g', b * 16 + b'⟩
  | [r, r', g, g', b, b', _, _] => some ⟨r * 16 + r', g * 16 + g', b * 16 + b'⟩
  | _ => none

/-- The color that a card is drawn in. -/
def rgb? (s : String) : Option RGB :=
  match named? s with
  | some n => some (.ofNat n)
  | none =>
    match dropLineEnd s.toList with
    | '#' :: ds => (ds.mapM hexValue?).bind ofHexDigits?
    | _ => none

/-- A color with `#` where it had `0x`, as it is drawn on a card. -/
def forCard (s : String) : String :=
  match s.toList with
  | '0' :: 'x' :: ds => String.ofList ('#' :: ds)
  | _ => s

end Storyboard.Color
