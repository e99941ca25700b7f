import Storyboard.Yaml.Cursor

/-!
# Storyboard.Yaml.Scalar.Plain

Plain scalars: text without quotes.  One ends before a comment, before a colon that is
followed by a gap, in a flow collection also before the characters that build it, and at
a line that belongs to an outer block or to another document.  Line ends inside it are
folded: one becomes a space, of several the first is dropped.
-/

namespace Storyboard.Yaml.Plain

/-- The characters that build flow collections, as far as a plain scalar ends before
them. -/
def isFlowMark (c : Char) : Bool :=
  c == ',' || c == '?' || c == '[' || c == ']' || c == '{' || c == '}'

/-- What ends a key in a flow collection. -/
def isFlowEnd (c : Char) : Bool := c == ',' || c == '[' || c == ']' || c == '{' || c == '}'

/-- Whether a colon with this behind it ends a plain scalar. -/
def endsKey (flow : Bool) (rest : List Char) : Bool :=
  endsBefore (fun c => isGap c || (flow && isFlowEnd c)) rest

/-- The characters up to the next gap or end of the scalar. -/
def run (flow : Bool) : List Char → List Char
  | [] => []
  | c :: rest =>
    if isGap c || (c == ':' && endsKey flow rest) || (flow && isFlowMark c) then []
    else c :: run flow rest

/-- The line ends of empty lines, and whether a document boundary stopped them; a step
for each line. -/
def emptyLines : Nat → Cursor → List Char × Bool × Cursor
  | 0, c => ([], false, c)
  | n + 1, c =>
    let c := c.skipWhile (· == ' ')
    match c.lineBreak? with
    | none => ([], false, c)
    | some (b, c) =>
      if c.atBoundary then ([], true, c)
      else
        let (bs, stopped, c) := emptyLines n c
        (b :: bs, stopped, c)

/-- Line ends as they are read: the first, then those of the empty lines after it. -/
def fold (first : Char) (others : List Char) : List Char :=
  if first ≠ '\n' then first :: others else if others.isEmpty then [' '] else others

/-- What a gap after a run stands for, nothing if the scalar ends with it, and whether it
went over the end of a line. -/
def gap (c : Cursor) : List Char × Bool × Cursor :=
  let (spaces, c) := c.span (· == ' ')
  match c.lineBreak? with
  | none => (spaces, false, c)
  | some (b, c) =>
    if c.atBoundary then ([], true, c)
    else
      match emptyLines c.steps c with
      | (_, true, c) => ([], true, c)
      | (bs, false, c) => (fold b bs, true, c)

/-- What follows a gap, in a block whose lines start at column `level` or later; a step
for each run. -/
def more (flow : Bool) (level : Nat) (spaces : List Char) (crossed : Bool) :
    Nat → Cursor → List Char × Bool × Cursor
  | 0, c => ([], crossed, c)
  | n + 1, c =>
    let word := run flow c.rest
    if spaces.isEmpty || c.sees '#' || (!flow && c.column < level) || word.isEmpty then
      ([], crossed, c)
    else
      let (spaces', crossed', c) := gap (c.skip word.length)
      let (rest, crossed', c) := more flow level spaces' crossed' n c
      (spaces ++ word ++ rest, crossed', c)

/-- The plain scalar that starts here, and whether the end of its line was passed. -/
def read (flow : Bool) (level : Nat) (c : Cursor) : List Char × Bool × Cursor :=
  let word := run flow c.rest
  let (spaces, crossed, c) := gap (c.skip word.length)
  let (rest, crossed, c) := more flow level spaces crossed c.steps c
  (word ++ rest, crossed, c)

end Storyboard.Yaml.Plain
