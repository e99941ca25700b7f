/-!
# Storyboard.Text.Case

Lower case, as far as a comparison with an ASCII word can see it.  Besides the capital
ASCII letters exactly one character has a lower-case form that is a single ASCII
letter: the Kelvin sign, whose lower case is `k`.  Every other character keeps a form
outside ASCII, so leaving it alone changes no such comparison.
-/

namespace Storyboard.Text

/-- The sign of the unit kelvin, a character of its own. -/
def kelvinSign : Char := Char.ofNat 0x212A

/-- Lower case of the characters whose lower case is an ASCII letter. -/
def lowerChar (c : Char) : Char :=
  if 'A' ≤ c ∧ c ≤ 'Z' then Char.ofNat (c.toNat + 32) else if c = kelvinSign then 'k' else c

/-- A text in lower case, for comparison with an ASCII word. -/
def lower (s : String) : String := String.ofList (s.toList.map lowerChar)

/-- Whether a text ends with another. -/
def endsWith (s suffix : String) : Bool := suffix.toList.isSuffixOf s.toList

/-- Whether a text starts with another. -/
def startsWith (s start : String) : Bool := start.toList.isPrefixOf s.toList

end Storyboard.Text
