import Storyboard.Number.Double.Shortest
import Storyboard.Number.Integer
import Storyboard.Text.Digit
import Storyboard.Value

/-!
# Storyboard.Json.Writer

Writing a JSON document for people to edit: two blanks of indentation per level, one
member or item a line, characters outside ASCII as they are.  Empty lists and objects
stay on one line.  Only quotes, backslashes and control characters are escaped.
-/

namespace Storyboard.Json

open Text Number

/-- One character inside a string. -/
def escapedChar (c : Char) : List Char :=
  if c = '"' ∨ c = '\\' then ['\\', c]
  else if c = '\n' then ['\\', 'n']
  else if c = '\r' then ['\\', 'r']
  else if c = '\t' then ['\\', 't']
  else if c = '\x08' then ['\\', 'b']
  else if c = '\x0c' then ['\\', 'f']
  else if c.toNat < 0x20 then '\\' :: 'u' :: (hexText 4 c.toNat).map Char.toLower
  else [c]

/-- A string between quotes. -/
def stringText (s : String) : List Char := '"' :: (s.toList.flatMap escapedChar ++ ['"'])

/-- A line end and the indentation of a level. -/
def newLine (level : Nat) : List Char := '\n' :: List.replicate (2 * level) ' '

/-- The name of a member. -/
def nameText : Value → Except Fault (List Char)
  | .text s => .ok (stringText s)
  | _ => .error .valueUnsuited

mutual

/-- A value at a level of indentation. -/
def write (level : Nat) : Value → Except Fault (List Char)
  | .null => .ok "null".toList
  | .bool b => .ok (if b then "true".toList else "false".toList)
  | .int i => do return (← integerText i).toList
  | .float x => .ok (x.textIn Double.jsonLayout).toList
  | .text s => .ok (stringText s)
  | .list [] => .ok "[]".toList
  | .list (v :: vs) => do
    let body ← writeItems (level + 1) (v :: vs)
    return '[' :: (body ++ newLine level ++ [']'])
  | .map [] => .ok ['{', '}']
  | .map (e :: es) => do
    let body ← writeMembers (level + 1) (e :: es)
    return '{' :: (body ++ newLine level ++ ['}'])
  | _ => .error .valueUnsuited

/-- Items, each on a line of its own. -/
def writeItems (level : Nat) : List Value → Except Fault (List Char)
  | [] => .ok []
  | [v] => do return newLine level ++ (← write level v)
  | v :: vs => do
    return newLine level ++ (← write level v) ++ ',' :: (← writeItems level vs)

/-- Members, each on a line of its own. -/
def writeMembers (level : Nat) : List (Value × Value) → Except Fault (List Char)
  | [] => .ok []
  | [(k, v)] => do
    return newLine level ++ (← nameText k) ++ ':' :: ' ' :: (← write level v)
  | (k, v) :: es => do
    return newLine level ++ (← nameText k) ++ ':' :: ' ' :: (← write level v)
      ++ ',' :: (← writeMembers level es)

end

/-- A value as the text of a document. -/
def text (v : Value) : Except Fault String := do
  return String.ofList (← write 0 v)

end Storyboard.Json
