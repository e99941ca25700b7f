import Storyboard.Fault
import Storyboard.Text.Digit
import Storyboard.Yaml.Cursor

/-!
# Storyboard.Yaml.Scalar.Block

Block scalars: lines of their own, kept as they are or folded.  The header may give the
indentation, which else is that of the first line with text, and may say what becomes of
the line ends after the last line: all but one are dropped, or every one, or none.
-/

namespace Storyboard.Yaml.Block

open Text

/-- What becomes of the line ends after the last line. -/
inductive Tail
  | clip
  | strip
  | keep
  deriving DecidableEq, Repr

/-- What a header says. -/
structure Header where
  tail : Tail := .clip
  /-- The indentation, beyond that of the block around. -/
  indent? : Option Nat := none
  deriving DecidableEq, Repr

/-- The sign that says what becomes of the tail. -/
def tail? (c : Char) : Option Tail :=
  if c = '+' then some .keep else if c = '-' then some .strip else none

/-- The digit that gives an indentation. -/
def indentOf? (c : Char) : Option Nat :=
  if '0' ≤ c ∧ c ≤ '9' then some (c.toNat - 48) else none

/-- The header and the number of its characters. -/
def header (cs : List Char) : Header × Nat :=
  match cs with
  | [] => ({}, 0)
  | c₁ :: rest =>
    match tail? c₁, indentOf? c₁, rest.head?.bind tail?, rest.head?.bind indentOf? with
    | some t, _, _, some n => (⟨t, some n⟩, 2)
    | some t, _, _, none => (⟨t, none⟩, 1)
    | none, some n, some t, _ => (⟨t, some n⟩, 2)
    | none, some n, none, _ => (⟨.clip, some n⟩, 1)
    | none, none, _, _ => ({}, 0)

/-- The line ends of empty lines at the start, and the widest indentation among them and
the first line with text; a step for each character. -/
def leading : Nat → Cursor → List Char × Nat × Cursor
  | 0, c => ([], 0, c)
  | n + 1, c =>
    if c.sees ' ' then
      let c := c.next
      let (bs, widest, after) := leading n c
      (bs, max c.column widest, after)
    else
      match c.lineBreak? with
      | none => ([], 0, c)
      | some (b, c) =>
        let (bs, widest, after) := leading n c
        (b :: bs, widest, after)

/-- The place after the spaces of an indentation. -/
def dedent (indent : Nat) (c : Cursor) : Cursor :=
  c.skip ((c.rest.take (indent - c.column)).takeWhile (· == ' ')).length

/-- The line ends of empty lines between lines that are indented; a step for each. -/
def emptyLines (indent : Nat) : Nat → Cursor → List Char × Cursor
  | 0, c => ([], c)
  | n + 1, c =>
    let c := dedent indent c
    match c.lineBreak? with
    | none => ([], c)
    | some (b, c) =>
      let (bs, c) := emptyLines indent n c
      (b :: bs, c)

/-- Whether a line starts with something else than a space. -/
def isFlush (c : Cursor) : Bool := !(c.sees ' ' || c.sees '\t')

/-- The line end between two lines: a folded one is a space, or nothing where empty lines
follow, unless either line starts with a space. -/
def joint (folded : Bool) (lineEnd : List Char) (before after : Bool) (breaks : List Char) :
    List Char :=
  if folded && lineEnd == ['\n'] && before && after then
    if breaks.isEmpty then [' '] else []
  else lineEnd

/-- The lines from here on, each after its empty lines, the last line end and the empty
lines after it; a step for each line. -/
def lines (folded : Bool) (indent : Nat) :
    Nat → List Char → Cursor → List Char × List Char × List Char × Cursor
  | 0, breaks, c => ([], [], breaks, c)
  | n + 1, breaks, c =>
    if c.column = indent ∧ c.rest ≠ [] then
      let flush := isFlush c
      let (text, c) := c.span (fun ch => !isBreak ch)
      let (lineEnd, c) := c.lineBreak?.elim ([], c) fun (b, c) => ([b], c)
      let (breaks', c) := emptyLines indent c.steps c
      if c.column = indent ∧ c.rest ≠ [] then
        let between := joint folded lineEnd flush (isFlush c) breaks'
        let (rest, lastEnd, last, c) := lines folded indent n breaks' c
        (breaks ++ text ++ between ++ rest, lastEnd, last, c)
      else (breaks ++ text, lineEnd, breaks', c)
    else ([], [], breaks, c)

/-- The block scalar that starts here, with its indicator, in a block whose lines start at
column `level` or later. -/
def read (folded : Bool) (level : Nat) (c : Cursor) : Except Fault (List Char × Cursor) :=
  let c := c.next
  let (header, length) := header c.rest
  let c := c.skip length
  if header.indent? = some 0 ∨ !endsBefore (fun ch => ch == ' ' || isBreak ch) c.rest then
    .error .yamlMalformed
  else
    match c.endLine? with
    | none => .error .yamlMalformed
    | some c =>
      let least := max level 1
      let (breaks, indent, c) :=
        match header.indent? with
        | some n =>
          let indent := least + n - 1
          let (breaks, c) := emptyLines indent c.steps c
          (breaks, indent, c)
        | none =>
          let (breaks, widest, c) := leading c.steps c
          (breaks, max least widest, c)
      let (text, lineEnd, last, c) := lines folded indent c.steps breaks c
      match header.tail with
      | .strip => .ok (text, c)
      | .clip => .ok (text ++ lineEnd, c)
      | .keep => .ok (text ++ lineEnd ++ last, c)

end Storyboard.Yaml.Block
