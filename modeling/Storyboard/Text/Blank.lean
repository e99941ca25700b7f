import Storyboard.Text.Ranges

/-!
# Storyboard.Text.Blank

Blank characters, of every script, and the text between them.  Decimals and quotients may
stand between blanks; `trim` takes the blanks at both ends away and touches nothing
inside.  Integers and floating-point numbers may stand between fewer characters, the
*spaces*: the information separators are blank but are no spaces.
-/

namespace Storyboard.Text

/-- The blank characters: the ASCII layout characters, the four information
separators, and the space separators and line ends of Unicode. -/
def blankRanges : Ranges :=
  [(0x09, 0x0D), (0x1C, 0x20), (0x85, 0x85), (0xA0, 0xA0), (0x1680, 0x1680), (0x2000, 0x200A),
   (0x2028, 0x2029), (0x202F, 0x202F), (0x205F, 0x205F), (0x3000, 0x3000)]

/-- Whether a character is blank. -/
def isBlank (c : Char) : Bool := blankRanges.contains c

/-- The four information separators. -/
def separatorRanges : Ranges := [(0x1C, 0x1F)]

/-- Whether a character is a space: a blank that is no information separator. -/
def isSpace (c : Char) : Bool := isBlank c && !separatorRanges.contains c

/-- The text without the characters of a class at its two ends. -/
def trimOf (inClass : Char → Bool) (cs : List Char) : List Char :=
  ((cs.dropWhile inClass).reverse.dropWhile inClass).reverse

/-- The text without the blanks at its two ends. -/
def trim (cs : List Char) : List Char := trimOf isBlank cs

/-- The text without the spaces at its two ends. -/
def trimSpaces (cs : List Char) : List Char := trimOf isSpace cs

theorem isBlank_of_isSpace {c : Char} (h : isSpace c = true) : isBlank c = true := by
  rw [isSpace, Bool.and_eq_true] at h
  exact h.1

/-- A text without characters of a class has none at its ends. -/
theorem trimOf_eq_self {inClass : Char → Bool} {cs : List Char}
    (h : ∀ c ∈ cs, inClass c = false) : trimOf inClass cs = cs := by
  have hdrop {ds : List Char} (hds : ∀ c ∈ ds, inClass c = false) : ds.dropWhile inClass = ds := by
    cases ds with
    | nil => rfl
    | cons d ds => exact List.dropWhile_cons_of_neg (by simp [hds d (by simp)])
  rw [trimOf, hdrop h, hdrop (by simpa using h), List.reverse_reverse]

end Storyboard.Text
