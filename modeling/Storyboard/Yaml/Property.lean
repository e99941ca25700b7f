import Storyboard.Number.Integer
import Storyboard.Yaml.Token

/-!
# Storyboard.Yaml.Property

What is written around nodes: directives, anchors, aliases and tags.  Names are made of
ASCII letters, digits, dashes and underscores.  In a tag a percent sign and two
hexadecimal digits stand for a byte, and the bytes must be UTF-8.
-/

namespace Storyboard.Yaml.Property

open Text Number

/-- Whether a character can be part of a name. -/
def isNameChar (c : Char) : Bool := c.isAlphanum || c == '-' || c == '_'

/-- Whether a character can be part of a tag. -/
def isTagChar (c : Char) : Bool :=
  isNameChar c || ";/?:@&=+$,.!~*'()[]%".toList.contains c

/-- Whether a character is a space or ends a line. -/
def endsField (c : Char) : Bool := c == ' ' || isBreak c

/-- A name of at least one character. -/
def name (c : Cursor) : Except Fault (String × Cursor) :=
  let (cs, c) := c.span isNameChar
  if cs.isEmpty then .error .yamlMalformed else .ok (String.ofList cs, c)

/-- Whether a character can follow the name of an anchor. -/
def endsAnchor (c : Char) : Bool := isGap c || "?:,]\x7d%@`".toList.contains c

/-- The name after the sign of an anchor or an alias. -/
def anchorName (c : Cursor) : Except Fault (String × Cursor) := do
  let (s, c) ← name c.next
  if endsBefore endsAnchor c.rest then return (s, c) else throw .yamlMalformed

/-! ## tags -/

/-- The bytes that are written with percent signs here; a step for each. -/
def bytes : Nat → List Char → Except Fault (List UInt8)
  | n + 1, '%' :: cs =>
    match cs with
    | h :: l :: cs =>
      match hexValue? h, hexValue? l with
      | some h, some l => do return UInt8.ofNat (h * 16 + l) :: (← bytes n cs)
      | _, _ => .error .yamlMalformed
    | _ => .error .yamlMalformed
  | _, _ => .ok []

/-- The characters of a tag; a step for each character or run of bytes. -/
def tagChars : Nat → Cursor → Except Fault (List Char × Cursor)
  | 0, c => .ok ([], c)
  | n + 1, c =>
    match c.rest with
    | '%' :: _ => do
      let bs ← bytes c.steps c.rest
      match String.fromUTF8? ⟨bs.toArray⟩ with
      | none => .error .yamlMalformed
      | some s =>
        let (more, c) ← tagChars n (c.skip (3 * bs.length))
        return (s.toList.flatMap Text.spelled ++ more, c)
    | ch :: _ =>
      if isTagChar ch then do
        let (more, c) ← tagChars n c.next
        return (ch :: more, c)
      else .ok ([], c)
    | [] => .ok ([], c)

/-- The part of a tag after its handle. -/
def tagSuffix (c : Cursor) : Except Fault (String × Cursor) := do
  let (cs, after) ← tagChars c.steps c
  if after.index = c.index then throw .yamlMalformed else return (String.ofList cs, after)

/-- A handle: one exclamation mark, or two with a name or nothing between them. -/
def tagHandle (c : Cursor) : Except Fault (String × Cursor) :=
  match c.rest with
  | '!' :: rest =>
    if rest.head? = some ' ' then .ok ("!", c.next)
    else
      let cs := rest.takeWhile isNameChar
      if (rest.drop cs.length).head? = some '!' then
        .ok ("!" ++ String.ofList cs ++ "!", c.skip (cs.length + 2))
      else .error .yamlMalformed
  | _ => .error .yamlMalformed

/-- The tag that starts here. -/
def tag (c : Cursor) : Except Fault (Token × Cursor) := do
  let (token, c) ← written c
  if endsBefore endsField c.rest then return (token, c) else throw .yamlMalformed
where
  /-- The tag without regard to what follows. -/
  written (c : Cursor) : Except Fault (Token × Cursor) :=
    match c.next.rest with
    | '<' :: _ => do
      let (suffix, c) ← tagSuffix (c.skip 2)
      if c.sees '>' then return (.tag none suffix, c.next) else throw .yamlMalformed
    | rest =>
      if endsBefore isGap rest then .ok (.tag none "!", c.next)
      else if (rest.takeWhile fun ch => !endsField ch).contains '!' then do
        let (handle, c) ← tagHandle c
        let (suffix, c) ← tagSuffix c
        return (.tag (some handle) suffix, c)
      else do
        let (suffix, c) ← tagSuffix c.next
        return (.tag (some "!") suffix, c)

/-! ## directives -/

/-- A number of a version. -/
def versionNumber (c : Cursor) : Except Fault (Nat × Cursor) :=
  let (ds, c) := c.span Char.isDigit
  if ds.isEmpty then .error .yamlMalformed
  else
    match readNatural? ds with
    | some n => .ok (n, c)
    | none => .error .valueUnsuited

/-- A version: two numbers with a point between them. -/
def version (c : Cursor) : Except Fault (Directive × Cursor) := do
  let (major, c) ← versionNumber (c.skipWhile (· == ' '))
  unless c.sees '.' do throw .yamlMalformed
  let (minor, c) ← versionNumber c.next
  return (.version major minor, c)

/-- A handle and what it stands for. -/
def tagDefinition (c : Cursor) : Except Fault (Directive × Cursor) := do
  let (handle, c) ← tagHandle (c.skipWhile (· == ' '))
  unless c.sees ' ' do throw .yamlMalformed
  let (start, c) ← tagSuffix (c.skipWhile (· == ' '))
  return (.tag handle start, c)

/-- The directive that starts here, up to and with the end of its line. -/
def directive (c : Cursor) : Except Fault (Directive × Cursor) := do
  let (kind, c) ← name c.next
  unless endsBefore endsField c.rest do throw .yamlMalformed
  let (d, c) ← match kind with
    | "YAML" => version c
    | "TAG" => tagDefinition c
    | _ => pure (.unknown, c.skipWhile fun ch => !isBreak ch)
  unless endsBefore endsField c.rest do throw .yamlMalformed
  match c.endLine? with
  | some c => return (d, c)
  | none => throw .yamlMalformed

end Storyboard.Yaml.Property
