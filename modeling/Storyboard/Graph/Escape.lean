/-!
# Storyboard.Graph.Escape

Texts inside filter text.  A plain option value (a path, a font name) has a backslash put
before every character that could end it.  The content of a drawn text stands between
single quotes and is read three times over, so a backslash becomes four, a colon or a
percent sign gets two in front, and a single quote closes the quotes, stands escaped
between them and opens them again.
-/

namespace Storyboard.Graph.Escape

/-- One character of a plain option value. -/
def valueChar (c : Char) : List Char :=
  if c = '\\' ∨ c = ':' ∨ c = '\'' then ['\\', c] else [c]

/-- A plain option value. -/
def value (cs : List Char) : List Char := cs.flatMap valueChar

/-- One character of the content of a drawn text. -/
def contentChar (c : Char) : List Char :=
  if c = '\\' then ['\\', '\\', '\\', '\\']
  else if c = '\'' then ['\'', '\\', '\\', '\\', '\'', '\'']
  else if c = ':' ∨ c = '%' then ['\\', '\\', c]
  else [c]

/-- The content of a drawn text, to stand between single quotes. -/
def content (cs : List Char) : List Char := cs.flatMap contentChar

@[simp] theorem value_nil : value [] = [] := rfl

@[simp] theorem content_nil : content [] = [] := rfl

/-- A plain option value, as text. -/
def valueText (s : String) : String := String.ofList (value s.toList)

/-- The content of a drawn text, as text. -/
def contentText (s : String) : String := String.ofList (content s.toList)

end Storyboard.Graph.Escape
