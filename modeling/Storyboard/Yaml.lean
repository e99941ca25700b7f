import Storyboard.Yaml.Lexer
import Storyboard.Yaml.Node.Value

/-!
# Storyboard.Yaml

A YAML text as a value: characters, tokens, a document, and what it denotes.  A text
holds at most one document; an empty one denotes nothing.
-/

namespace Storyboard.Yaml

/-- The characters that a text may consist of. -/
def isAllowed (c : Char) : Bool :=
  let n := c.toNat
  c == '\t' || c == '\n' || c == '\r' || decide (0x20 ≤ n ∧ n ≤ 0x7E) || n == 0x85 ||
    decide (0xA0 ≤ n ∧ n ≤ 0xD7FF) || decide (0xE000 ≤ n ∧ n ≤ 0xFFFD) || decide (0x10000 ≤ n)

/-- The value that a text denotes. -/
def read (cs : List Char) : Except Fault Value := do
  unless cs.all isAllowed do throw .yamlMalformed
  match ← Document.ofTokens? (tokens cs) with
  | some document => document.value
  | none => return .null

end Storyboard.Yaml
