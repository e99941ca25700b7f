import Storyboard.Text.Surrogate

/-!
# Storyboard.Yaml.Cursor

A place in a YAML text: the characters that are still to come, and how many characters
and lines came before.  Columns count from zero; a byte order mark takes none.  A character
that is spelled by two counts once.  Besides the line feed three characters end a line, and
one of them is read as a line feed.

* `rest_skip` — moving on drops characters and does nothing else to them;
* `counted_skip` — and no more characters are counted than there are.
-/

namespace Storyboard.Yaml

/-- The line end of the control characters of ISO 6429. -/
def nextLine : Char := Char.ofNat 0x85

/-- The line separator. -/
def lineSeparator : Char := Char.ofNat 0x2028

/-- The paragraph separator. -/
def paragraphSeparator : Char := Char.ofNat 0x2029

/-- The mark that may stand at the start of a text. -/
def byteOrderMark : Char := Char.ofNat 0xFEFF

/-- Whether a character ends a line. -/
def isBreak (c : Char) : Bool :=
  c == '\n' || c == nextLine || c == lineSeparator || c == paragraphSeparator

/-- Whether a character is a space or a tab. -/
def isSpacing (c : Char) : Bool := c == ' ' || c == '\t'

/-- Whether a character is a space, a tab or the end of a line. -/
def isGap (c : Char) : Bool := isSpacing c || isBreak c

/-- Whether nothing, or a character of a kind, comes next. -/
def endsBefore (ends : Char → Bool) : List Char → Bool
  | [] => true
  | c :: _ => ends c

/-- A place in a text. -/
structure Cursor where
  /-- What is still to come. -/
  rest : List Char
  /-- The number of characters of the whole text. -/
  size : Nat
  /-- The number of characters before. -/
  index : Nat := 0
  /-- The number of lines before. -/
  line : Nat := 0
  /-- The number of columns before, in this line. -/
  column : Nat := 0
  deriving DecidableEq, Repr

namespace Cursor

/-- The start of a text. -/
def ofChars (cs : List Char) : Cursor := { rest := cs, size := cs.length }

/-- A number of steps that is enough for what is still to come. -/
def steps (c : Cursor) : Nat := c.size - c.index + 1

/-- The place after the next character. -/
def next (c : Cursor) : Cursor :=
  match c.rest with
  | [] => c
  | ch :: rest =>
    if isBreak ch then ⟨rest, c.size, c.index + 1, c.line + 1, 0⟩
    else if ch = byteOrderMark then ⟨rest, c.size, c.index + 1, c.line, c.column⟩
    else if ch = Text.mark then ⟨rest, c.size, c.index, c.line, c.column⟩
    else ⟨rest, c.size, c.index + 1, c.line, c.column + 1⟩

/-- The place after a number of characters. -/
def skip : Nat → Cursor → Cursor
  | 0, c => c
  | n + 1, c => skip n c.next

theorem rest_next (c : Cursor) : c.next.rest = c.rest.drop 1 := by
  unfold next
  split
  · simp [*]
  · repeat' split
    all_goals simp [*]

theorem rest_skip (n : Nat) (c : Cursor) : (c.skip n).rest = c.rest.drop n := by
  induction n generalizing c with
  | zero => rfl
  | succ n ih => rw [skip, ih, rest_next, List.drop_drop, Nat.add_comm]

/-- Whether no more characters are counted than there are. -/
def Counted (c : Cursor) : Prop := c.rest.length + c.index ≤ c.size

theorem counted_ofChars (cs : List Char) : (ofChars cs).Counted := Nat.le_refl cs.length

theorem counted_next {c : Cursor} (h : c.Counted) : c.next.Counted := by
  unfold Counted at *
  unfold next
  split
  · exact h
  · rename_i hc
    rw [hc, List.length_cons] at h
    repeat' split
    all_goals simp only; omega

theorem counted_skip {c : Cursor} (h : c.Counted) (n : Nat) : (c.skip n).Counted := by
  induction n generalizing c with
  | zero => exact h
  | succ n ih => exact ih (counted_next h)

/-- The next characters of a kind, and the place after them. -/
def span (p : Char → Bool) (c : Cursor) : List Char × Cursor :=
  let taken := c.rest.takeWhile p
  (taken, c.skip taken.length)

/-- The place after the next characters of a kind. -/
def skipWhile (p : Char → Bool) (c : Cursor) : Cursor := (c.span p).2

/-- Whether a character comes next. -/
def sees (ch : Char) (c : Cursor) : Bool := c.rest.head? == some ch

/-- The next line end as it is read, and the place after it. -/
def lineBreak? (c : Cursor) : Option (Char × Cursor) :=
  match c.rest with
  | ch :: _ => if isBreak ch then some (if ch = nextLine then '\n' else ch, c.next) else none
  | [] => none

/-- Whether the line starts with three times a character and nothing joined to them. -/
def atTriple (ch : Char) (c : Cursor) : Bool :=
  c.column == 0 &&
    match c.rest with
    | c₁ :: c₂ :: c₃ :: rest => c₁ == ch && c₂ == ch && c₃ == ch && endsBefore isGap rest
    | _ => false

/-- Whether the line starts or ends a document. -/
def atBoundary (c : Cursor) : Bool := c.atTriple '-' || c.atTriple '.'

/-- The place after spaces and a comment. -/
def skipComment (c : Cursor) : Cursor :=
  let c := c.skipWhile (· == ' ')
  if c.sees '#' then c.skipWhile (fun ch => !isBreak ch) else c

/-- The place after what may follow on a line of its own: spaces, a comment and the line
end. -/
def endLine? (c : Cursor) : Option Cursor :=
  let c := c.skipComment
  if endsBefore isBreak c.rest then some c.next else none

end Cursor

end Storyboard.Yaml
