import Storyboard.Fault
import Storyboard.Number.Power
import Storyboard.Text.Blank
import Storyboard.Text.Digit

/-!
# Storyboard.Number.Integer

Integers as text.  Reading takes spaces at the ends, a sign, digits of any script and
single underscores between digits.  Between text and integers there is a limit of
`digitLimit` decimal digits in both directions, so that a hostile document cannot make
the conversion slow.
-/

namespace Storyboard.Number

open Text

/-- The most decimal digits an integer is read from or written with. -/
def digitLimit : Nat := 4300

/-- The values of one or more digits. -/
def digitGroup? (cs : List Char) : Option (List Nat) :=
  if cs.isEmpty then none else cs.mapM decimalValue?

/-- The values of the digits of a run, in which single underscores may stand between
digits. -/
def digitRun? (cs : List Char) : Option (List Nat) :=
  ((cs.splitOn '_').mapM digitGroup?).map List.flatten

/-- The number that a run of digits denotes. -/
def readNatural? (cs : List Char) : Option Nat :=
  (digitRun? cs).bind fun ds => if digitLimit < ds.length then none else some (ofDigits 10 ds)

/-- A sign and what follows it; no sign counts as plus. -/
def signOf : List Char → Bool × List Char
  | '-' :: cs => (true, cs)
  | '+' :: cs => (false, cs)
  | cs => (false, cs)

/-- The integer that a text denotes. -/
def readInteger? (cs : List Char) : Option Int :=
  let (negative, ds) := signOf (trimSpaces cs)
  (readNatural? ds).map fun n => if negative then -(n : Int) else (n : Int)

/-- An integer in decimal digits. -/
def integerText (i : Int) : Except Fault String :=
  if i.natAbs < tens digitLimit then .ok i.repr else .error .valueUnsuited

theorem integerText_of_short {i : Int} (h : i.natAbs < tens digitLimit) :
    integerText i = .ok i.repr := by
  simp [integerText, h]

end Storyboard.Number
