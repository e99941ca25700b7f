import Storyboard.Number.Decimal.Text
import Storyboard.Number.Double.Shortest
import Storyboard.Number.Ratio
import Storyboard.Text.Quoted
import Storyboard.Value

/-!
# Storyboard.Value.Text

A value as text, for titles and messages.  At the top a text stands for itself; inside a
list or a mapping it is quoted, and numbers that are neither integers nor floating-point
numbers name their kind.  A list or mapping that is met again inside itself is written as
three dots in its brackets.
-/

namespace Storyboard.Value

open Number Text

/-! ## rings -/

/-- The part of a ring with a number, in which a number remains only for parts that are
around it; `around` are their numbers.  No part is inside itself, so there are at most as
many levels as parts. -/
def outline (parts : List Value) : Nat → List Nat → Nat → Value
  | 0, _, here => .again here false
  | n + 1, around, here =>
    (parts.getD here .null).mapParts fun
      | .again number isMap =>
        if number = here ∨ number ∈ around then .again number isMap
        else outline parts n (here :: around) number
      | v => v

/-- A value that is no ring, but may hold numbers for what is around them. -/
def unrolled : Value → Value
  | .ring parts here => outline parts parts.length [] here
  | v => v

/-- What stands for a list or a mapping inside itself. -/
def dots (isMap : Bool) : String := if isMap then "\x7b...\x7d" else "[...]"

/-! ## text -/

mutual

/-- A value as part of a list or a mapping. -/
def quotedText : Value → Except Fault String
  | .null => .ok "None"
  | .bool b => .ok (if b then "True" else "False")
  | .int i => integerText i
  | .float x => .ok x.text
  | .decimal d => .ok ("Decimal('" ++ d.text ++ "')")
  | .ratio q => do
    return "Fraction(" ++ (← integerText q.num) ++ ", " ++ (← integerText q.den) ++ ")"
  | .text s => .ok (quoted s)
  | .stamp t => .ok t.quoted
  | .bytes bs => .ok (quotedBytes bs)
  | .pair key value => do return "(" ++ (← key.quotedText) ++ ", " ++ (← value.quotedText) ++ ")"
  | .set [] => .ok "set()"
  | .set (k :: ks) => do
    return "\x7b" ++ String.intercalate ", " (← quotedItems (k :: ks)) ++ "\x7d"
  | .list items => do return "[" ++ String.intercalate ", " (← quotedItems items) ++ "]"
  | .map entries => do return "\x7b" ++ String.intercalate ", " (← quotedEntries entries) ++ "\x7d"
  | .again _ isMap => .ok (dots isMap)
  | .ring _ _ => .ok (dots false)

/-- The items of a list. -/
def quotedItems : List Value → Except Fault (List String)
  | [] => .ok []
  | v :: rest => do return (← v.quotedText) :: (← quotedItems rest)

/-- The entries of a mapping, a colon after each key. -/
def quotedEntries : List (Value × Value) → Except Fault (List String)
  | [] => .ok []
  | (k, v) :: rest => do
    return ((← k.quotedText) ++ ": " ++ (← v.quotedText)) :: (← quotedEntries rest)

end

/-- A value as text of its own. -/
def plainText : Value → Except Fault String
  | .text s => .ok s
  | .decimal d => .ok d.text
  | .ratio q => ratioText q
  | .stamp t => .ok t.text
  | v => v.unrolled.quotedText

@[simp] theorem plainText_text (s : String) : plainText (.text s) = .ok s := rfl

theorem plainText_int (i : Int) : plainText (.int i) = integerText i := rfl

end Storyboard.Value
