import Storyboard.Graph.Basic
import Storyboard.Yaml.Scalar.Writer

/-!
# Storyboard.Graph.Plan

A graph as a YAML document: the input files and the statements as lists, the pads of
picture and sound as texts.
-/

namespace Storyboard.Graph

open Yaml

/-- A text under a name. -/
def planEntry (name text : String) : String :=
  name ++ ": " ++ String.ofList (Scalar.write (name.length + 2) text.toList) ++ "\n"

/-- An item of a list. -/
def planItem (text : String) : String :=
  "- " ++ String.ofList (Scalar.write 2 text.toList) ++ "\n"

/-- A list under a name. -/
def planList (name : String) (texts : List String) : String :=
  if texts.isEmpty then name ++ ": []\n" else name ++ ":\n" ++ String.join (texts.map planItem)

/-- A graph as a document. -/
def planText (g : Graph) : String :=
  planList "inputs" g.inputs ++ planList "statements" g.statements
    ++ planEntry "video_pad" g.videoPad.label ++ planEntry "audio_pad" g.audioPad.label

end Storyboard.Graph
