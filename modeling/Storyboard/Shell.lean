/-!
# Storyboard.Shell

Command lines for a shell to read.  An argument of harmless characters is written as it
is, every other between single quotes; a single quote inside is written between double
quotes of its own.
-/

namespace Storyboard.Shell

/-- The characters that no shell gives a meaning inside a word. -/
def isHarmless (c : Char) : Bool := c.isAlphanum || "_@%+=:,./-".toList.contains c

/-- One character between single quotes. -/
def quotedChar (c : Char) : List Char :=
  if c = '\'' then ['\'', '"', '\'', '"', '\''] else [c]

/-- An argument as one word. -/
def word (cs : List Char) : List Char :=
  if cs.isEmpty then ['\'', '\'']
  else if cs.all isHarmless then cs
  else '\'' :: (cs.flatMap quotedChar ++ ['\''])

/-- A command and its arguments as one line. -/
def commandLine (args : List String) : String :=
  String.intercalate " " (args.map fun a => String.ofList (word a.toList))

end Storyboard.Shell
