import Storyboard.Yaml.Node

/-!
# Storyboard.Yaml.Node.Merge

The merge keys of a document.  A mapping takes over the entries of the mapping under its
merge key; they come before its own and so are weaker.  Of a list of mappings the first is
the strongest.  What is taken over is merged itself before.

A merge key is gone as soon as it is looked at.  So a mapping that is merged into itself,
directly or on a detour, takes over what it has at that moment, and merging ends: there
cannot be more steps than merge keys.
-/

namespace Storyboard.Yaml

/-- The nodes of a document by number. -/
abbrev Nodes := Array Node

namespace Nodes

/-- The node with a number. -/
def node (nodes : Nodes) (n : Nat) : Node := nodes.getD n .empty

/-- The kind of the node with a number. -/
def kind (nodes : Nodes) (n : Nat) : Kind := (nodes.node n).kind

/-- The nodes with other entries for a mapping. -/
def setEntries (nodes : Nodes) (n : Nat) (entries : List (Nat × Nat)) : Nodes :=
  nodes.setIfInBounds n (.mapping (nodes.kind n) entries)

/-- The nodes with a text in place of a key of a value as a whole. -/
def setTextKey (nodes : Nodes) (n : Nat) : Nodes :=
  match nodes.node n with
  | .scalar .whole text => nodes.setIfInBounds n (.scalar .text text)
  | .sequence .whole items => nodes.setIfInBounds n (.sequence .text items)
  | .mapping .whole entries => nodes.setIfInBounds n (.mapping .text entries)
  | _ => nodes

/-- A number of steps that is enough for all merging. -/
def mergeSteps (nodes : Nodes) : Nat :=
  2 * nodes.foldl (fun n node => n + node.entries.length) 0 + 2

end Nodes

namespace Node

/-- A step of merging. -/
abbrev Merging := StateT Nodes (Except Fault)

/-- The first entry with a merge key from a place on, and its place. -/
def mergeFrom? (nodes : Nodes) (place : Nat) : List (Nat × Nat) → Option (Nat × Nat)
  | [] => none
  | (key, value) :: rest =>
    if nodes.kind key = .merge then some (place, value)
    else mergeFrom? nodes (place + 1) rest

/-- Ends the merging of a mapping, which has taken over entries. -/
def endMerge (n : Nat) (taken : List (Nat × Nat)) : Merging Unit := do
  modify fun nodes =>
    let own := (nodes.node n).entries
    let nodes := own.foldl (fun nodes e => nodes.setTextKey e.1) nodes
    if taken.isEmpty then nodes else nodes.setEntries n (taken ++ own)

/-- Merges what is under the merge keys of a mapping from a place among its entries on. -/
def mergeAt : Nat → Nat → Nat → List (Nat × Nat) → Merging Unit
  | 0, _, _, _ => throw .yamlMalformed
  | steps + 1, n, place, taken => do
    let nodes ← get
    let entries := (nodes.node n).entries
    match mergeFrom? nodes place (entries.drop place) with
    | none => endMerge n taken
    | some (place, value) =>
      set (nodes.setEntries n (entries.eraseIdx place))
      let mergeOne (m : Nat) : Merging (List (Nat × Nat)) := do
        match (← get).node m with
        | .mapping _ _ =>
          mergeAt steps m 0 []
          return ((← get).node m).entries
        | _ => throw .yamlMalformed
      match nodes.node value with
      | .sequence _ items =>
        let more ← items.foldlM (fun more m => do return (← mergeOne m) ++ more) []
        mergeAt steps n place (taken ++ more)
      | _ => mergeAt steps n place (taken ++ (← mergeOne value))

end Node

end Storyboard.Yaml
