import Storyboard.Yaml.Scalar.Quoted

/-!
# Storyboard.Yaml.Token

The tokens of a YAML text.  Besides what is written there are tokens for what the layout
says: where a block starts and ends, and which scalar is a key.
-/

namespace Storyboard.Yaml

/-- A line for the reader of the text rather than for its content. -/
inductive Directive
  /-- The version that the text is written in. -/
  | version (major minor : Nat)
  /-- What a handle stands for in tags. -/
  | tag (handle start : String)
  | unknown
  deriving DecidableEq, Repr

/-- A scalar as it was written. -/
structure Scalar where
  text : List Char
  /-- Whether it has no quotes and no indicator, so that its text decides what it is. -/
  plain : Bool
  deriving DecidableEq, Repr

/-- A token. -/
inductive Token
  | directive (d : Directive)
  | documentStart
  | documentEnd
  | sequenceStart
  | mappingStart
  | blockEnd
  | flowSequenceStart
  | flowSequenceEnd
  | flowMappingStart
  | flowMappingEnd
  | flowEntry
  | blockEntry
  | key
  | value
  | reference (name : String)
  | anchor (name : String)
  | tag (handle : Option String) (suffix : String)
  | scalar (s : Scalar)
  deriving DecidableEq, Repr

/-- The tokens of a text. -/
structure Tokens where
  list : List Token
  /-- The fault at which they end, none if they end with the text. -/
  fault : Option Fault := none
  deriving DecidableEq, Repr

end Storyboard.Yaml
