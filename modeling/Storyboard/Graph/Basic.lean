import Storyboard.Graph.Filter
import Storyboard.Graph.Pad

/-!
# Storyboard.Graph.Basic

The compiled graph: input files in the order of their index, the statements that read
and write pads, and the two pads that the finished picture and sound leave by.  A
statement reads `[pad][pad]filter,filter[pad]`; the whole graph has a semicolon and a
line end between its statements.
-/

namespace Storyboard

/-- A statement of a graph: the pads it reads, its filters in order, the pad it writes. -/
structure Node where
  inputs : List Pad
  filters : List Filter
  output : Pad
  deriving DecidableEq, Repr

namespace Node

/-- The filters as text. -/
def chain (n : Node) : String := String.intercalate "," (n.filters.map Filter.text)

/-- A pad between brackets. -/
def padText (p : Pad) : String := "[" ++ p.label ++ "]"

/-- A statement as text. -/
def text (n : Node) : String :=
  String.join (n.inputs.map padText) ++ n.chain ++ padText n.output

end Node

/-- A compiled graph. -/
structure Graph where
  inputs : List String
  nodes : List Node
  videoPad : Pad
  audioPad : Pad
  deriving DecidableEq, Repr

namespace Graph

/-- The statements as texts. -/
def statements (g : Graph) : List String := g.nodes.map Node.text

/-- The graph as one text. -/
def text (g : Graph) : String := String.intercalate ";\n" g.statements

/-- The statement that writes the pad of a label, the first if there are more. -/
def node? (g : Graph) (label : String) : Option Node :=
  g.nodes.find? fun n => n.output.label == label

end Graph

end Storyboard
