import Storyboard.Text.Digit
import Storyboard.Text.Surrogate
import Storyboard.Yaml.Kind
import Storyboard.Yaml.Lexer

/-!
# Storyboard.Yaml.Scalar.Writer

A text as a scalar.  It is written without quotes where it would be read back as this
text, between single quotes where all its characters print, and else between double quotes
with escapes.  Behind column 80 a line ends at the next single space, and goes on with an
indentation of two; between double quotes a backslash ends it.
-/

namespace Storyboard.Yaml.Scalar

open Text

/-- The column behind which lines are ended. -/
def width : Nat := 80

/-- The indentation of further lines. -/
def indentation : Nat := 2

/-- The end of a line, and the indentation of the next. -/
def newLine : List Char := '\n' :: List.replicate indentation ' '

/-! ## the choice of quotes -/

/-- Whether a character prints and is ASCII. -/
def isPlainAscii (c : Char) : Bool := decide (' ' ≤ c ∧ c ≤ '~')

/-- Whether nothing or a gap follows. -/
def isAlone (rest : List Char) : Bool := endsBefore isGap rest

/-- The characters that mean something at the start of a scalar, whatever follows. -/
def leadingMarks : List Char := "#,[]\x7b\x7d&*!|>'\"%@`".toList

/-- Whether a text starts like something else than a scalar. -/
def startsMarked : List Char → Bool
  | '-' :: '-' :: '-' :: _ => true
  | '.' :: '.' :: '.' :: _ => true
  | c :: rest =>
    leadingMarks.contains c || ((c == '?' || c == ':' || c == '-') && isAlone rest)
  | [] => false

/-- Whether a colon before a gap, or a number sign after one, stands in a text after the
character `before`. -/
def holdsMark (before : Char) : List Char → Bool
  | [] => false
  | c :: rest =>
    (c == ':' && isAlone rest) || (c == '#' && isGap before) || holdsMark c rest

/-- Whether a text can be written without quotes. -/
def isPlain (cs : List Char) : Bool :=
  match cs with
  | [] => false
  | c :: rest =>
    cs.all isPlainAscii && c != ' ' && cs.getLast? != some ' ' && !startsMarked cs
      && !holdsMark c rest && Kind.ofText cs == .text

/-- Whether a space and a line end stand side by side. -/
def hasFrayedLine : List Char → Bool
  | c :: c' :: rest =>
    (c == ' ' && c' == '\n') || (c == '\n' && c' == ' ') || hasFrayedLine (c' :: rest)
  | _ => false

/-- Whether a text can be written between single quotes. -/
def isSingle (cs : List Char) : Bool :=
  cs.all (fun c => c == '\n' || isPlainAscii c) && !hasFrayedLine cs

/-! ## the forms -/

/-- Runs of spaces, of line ends and of other characters. -/
def runs (cs : List Char) : List (List Char) :=
  cs.splitBy fun a b => (a == ' ') == (b == ' ') && (a == '\n') == (b == '\n')

/-- Runs without quotes, from a column on. -/
def plainRuns (column : Nat) : List (List Char) → List Char
  | [] => []
  | run :: rest =>
    if run = [' '] ∧ width < column then newLine ++ plainRuns indentation rest
    else run ++ plainRuns (column + run.length) rest

/-- A character between single quotes. -/
def singleChar (c : Char) : List Char := if c = '\'' then ['\'', '\''] else [c]

/-- Runs between single quotes, from a column on.  No line ends at the first or the last
run; a line end that is meant is written once more. -/
def singleRuns (first : Bool) (column : Nat) : List (List Char) → List Char
  | [] => []
  | run :: rest =>
    if run.head? = some '\n' then
      '\n' :: run ++ List.replicate indentation ' ' ++ singleRuns false indentation rest
    else if run = [' '] ∧ width < column ∧ !first ∧ !rest.isEmpty then
      newLine ++ singleRuns false indentation rest
    else
      let written := run.flatMap singleChar
      written ++ singleRuns false (column + written.length) rest

/-- The letters of escapes. -/
def escapeLetters : List (Char × Char) :=
  [(Char.ofNat 0, '0'), (Char.ofNat 7, 'a'), (Char.ofNat 8, 'b'), ('\t', 't'), ('\n', 'n'),
   (Char.ofNat 11, 'v'), (Char.ofNat 12, 'f'), ('\r', 'r'), (Char.ofNat 27, 'e'), ('"', '"'),
   ('\\', '\\'), (nextLine, 'N'), (Char.ofNat 0xA0, '_'), (lineSeparator, 'L'),
   (paragraphSeparator, 'P')]

/-- The escape of a code. -/
def escape (n : Nat) : List Char :=
  match escapeLetters.lookup (Char.ofNat n), isHalfCode n with
  | some letter, false => ['\\', letter]
  | _, _ =>
    if n ≤ 0xFF then '\\' :: 'x' :: hexText 2 n
    else if n ≤ 0xFFFF then '\\' :: 'u' :: hexText 4 n
    else '\\' :: 'U' :: hexText 8 n

/-- Whether a code is escaped between double quotes. -/
def isEscaped (n : Nat) : Bool :=
  let c := Char.ofNat n
  c == '"' || c == '\\' || !isPlainAscii c

/-- The end of a line between double quotes.  A space at the start of the next line is
marked by a backslash, which takes a column. -/
def doubleBreak (next : Option Nat) : List Char :=
  '\\' :: newLine ++ if next = some ' '.toNat then ['\\'] else []

/-- The column after such a line end. -/
def doubleColumn (next : Option Nat) : Nat :=
  indentation + if next = some ' '.toNat then 1 else 0

/-- Codes between double quotes, where `pending` are the characters in front of them that
are not written yet, the last first, and `column` is where those start.  A line may end
before a space and next to an escape, but not at the first or the last code. -/
def doubleChars (first : Bool) (column : Nat) (pending : List Char) : List Nat → List Char
  | [] => pending.reverse
  | n :: rest =>
    let c := Char.ofNat n
    let inside := !first && !rest.isEmpty
    if isEscaped n then
      let written := pending.reverse ++ escape n
      let column := column + written.length
      if inside && decide (width + 1 < column) then
        written ++ doubleBreak rest.head? ++ doubleChars false (doubleColumn rest.head?) [] rest
      else written ++ doubleChars false column [] rest
    else if inside && (c == ' ' || pending.isEmpty) && decide (width < column + pending.length) then
      pending.reverse ++ doubleBreak (some n) ++ doubleChars false (doubleColumn (some n)) [c] rest
    else doubleChars false column (c :: pending) rest

/-- A text as a scalar that starts at a column. -/
def write (column : Nat) (cs : List Char) : List Char :=
  if isPlain cs then plainRuns column (runs cs)
  else if isSingle cs then '\'' :: singleRuns true (column + 1) (runs cs) ++ ['\'']
  else '"' :: doubleChars true (column + 1) [] (codes cs) ++ ['"']

end Storyboard.Yaml.Scalar
