import Storyboard.Fault
import Storyboard.Text.Digit
import Storyboard.Text.Surrogate
import Storyboard.Yaml.Scalar.Plain

/-!
# Storyboard.Yaml.Scalar.Quoted

Quoted scalars.  Between single quotes every character stands for itself and a quote is
written twice; between double quotes a backslash starts an escape.  Line ends are folded
as in a plain scalar, unless a backslash stands before them.

An escape may name half of a surrogate pair.  Two halves do not make a character, even
side by side.
-/

namespace Storyboard.Yaml.Quoted

open Text

/-- What escapes of one character stand for. -/
def escapes : List (Char × Char) :=
  [('0', Char.ofNat 0), ('a', Char.ofNat 7), ('b', Char.ofNat 8), ('t', '\t'), ('\t', '\t'),
   ('n', '\n'), ('v', Char.ofNat 11), ('f', Char.ofNat 12), ('r', '\r'), ('e', Char.ofNat 27),
   (' ', ' '), ('"', '"'), ('\\', '\\'), ('/', '/'), ('N', nextLine), ('_', Char.ofNat 0xA0),
   ('L', lineSeparator), ('P', paragraphSeparator)]

/-- The number of hexadecimal digits after the letters that start a code. -/
def codeLengths : List (Char × Nat) := [('x', 2), ('u', 4), ('U', 8)]

/-- What a code stands for. -/
def meant (n : Nat) : Except Fault (List Char) :=
  if 0x80000000 ≤ n then .error .integerTooLarge
  else if 0x110000 ≤ n then .error .valueUnsuited
  else .ok (ofCode n)

/-- The line ends of empty lines; a step for each. -/
def emptyLines : Nat → Cursor → Except Fault (List Char × Cursor)
  | 0, c => .ok ([], c)
  | n + 1, c =>
    if c.atBoundary then .error .yamlMalformed
    else
      let c := c.skipWhile isSpacing
      match c.lineBreak? with
      | none => .ok ([], c)
      | some (b, c) => do
        let (bs, c) ← emptyLines n c
        return (b :: bs, c)

/-- What an escape stands for; the place is that after the backslash. -/
def readEscape (c : Cursor) : Except Fault (List Char × Cursor) :=
  match c.rest with
  | [] => .error .yamlMalformed
  | ch :: digits =>
    match escapes.lookup ch, codeLengths.lookup ch, c.lineBreak? with
    | some ch, _, _ => .ok ([ch], c.next)
    | none, some n, _ =>
      match (digits.take n).mapM hexValue? with
      | some ds =>
        if ds.length = n then do return (← meant (ofDigits 16 ds), c.skip (n + 1))
        else .error .yamlMalformed
      | none => .error .yamlMalformed
    | none, none, some (_, after) => emptyLines after.steps after
    | none, none, none => .error .yamlMalformed

/-- What a gap stands for. -/
def gap (c : Cursor) : Except Fault (List Char × Cursor) :=
  let (spaces, c) := c.span isSpacing
  match c.lineBreak? with
  | none => .ok (spaces, c)
  | some (b, after) => do
    let (bs, c) ← emptyLines after.steps after
    return (Plain.fold b bs, c)

/-- The text up to the closing quote, and the place after it; a step for each
character. -/
def body (double : Bool) : Nat → Cursor → Except Fault (List Char × Cursor)
  | 0, _ => .error .yamlMalformed
  | n + 1, c =>
    match c.rest with
    | [] => .error .yamlMalformed
    | '\'' :: '\'' :: _ =>
      if double then do
        let (cs, c) ← body double n c.next
        return ('\'' :: cs, c)
      else do
        let (cs, c) ← body double n (c.skip 2)
        return ('\'' :: cs, c)
    | ch :: _ =>
      if ch = (if double then '"' else '\'') then .ok ([], c.next)
      else if double && ch == '\\' then do
        let (cs, c) ← readEscape c.next
        let (more, c) ← body double n c
        return (cs ++ more, c)
      else if isGap ch then do
        let (cs, c) ← gap c
        let (more, c) ← body double n c
        return (cs ++ more, c)
      else do
        let (cs, c) ← body double n c.next
        return (ch :: cs, c)

/-- The quoted scalar that starts here, with its opening quote. -/
def read (double : Bool) (c : Cursor) : Except Fault (List Char × Cursor) :=
  body double c.steps c.next

end Storyboard.Yaml.Quoted
