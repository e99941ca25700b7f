import Storyboard.Yaml.Node.Merge
import Storyboard.Yaml.Scalar.Value

/-!
# Storyboard.Yaml.Node.Value

What a document denotes.  Of two entries with one key the later counts.

A node that has no value is a fault.  Several faults are possible; the one nearest to the
root is reported, and of those the first.  So first the nodes are made in this order, each
once: a scalar has its value at once, a list or mapping only says which nodes are in it.
Then the values are put together in the order in which the nodes end, so that those of the
nodes inside a node are there already.  Only a node that is inside itself is not, and all
around it; these nodes are the parts of a ring.
-/

namespace Storyboard.Yaml

namespace Node

/-- What a node says about its value. -/
inductive Content
  | leaf (v : Value)
  | list (items : List Nat)
  | pairs (entries : List (Nat × Nat))
  | map (entries : List (Value × Nat))
  | set (keys : List Value)

/-- The nodes, and the contents of those that are made. -/
structure Making where
  nodes : Nodes
  contents : Array (Option Content)
  /-- The lists and mappings whose nodes inside are to be made next, the last first. -/
  next : List Nat := []
  /-- The number of steps that is enough for all merging. -/
  mergeSteps : Nat

/-- A step of making. -/
abbrev Make := StateT Making (Except Fault)

namespace Make

/-- Sets the content of a node. -/
def put (n : Nat) (content : Content) : Make Unit :=
  modify fun s => { s with contents := s.contents.setIfInBounds n (some content) }

/-- The content of a node, if it is made. -/
def content? (n : Nat) : Make (Option Content) := do
  return (← get).contents.getD n none

/-- Leaves what is inside a node for later. -/
def wait (n : Nat) : Make Unit := modify fun s => { s with next := n :: s.next }

/-- The text of a scalar; of a mapping that of its value as a whole.  A text that is
looked for in more mappings than there are is looked for in circles. -/
def text (nodes : Nodes) : Nat → Nat → Except Fault (List Char)
  | 0, _ => .error .nestingTooDeep
  | fuel + 1, n =>
    match nodes.node n with
    | .scalar _ text => .ok text
    | .sequence _ _ => .error .yamlMalformed
    | .mapping _ entries =>
      match entries.find? fun e => nodes.kind e.1 = .whole with
      | some (_, value) => text nodes fuel value
      | none => .error .yamlMalformed

/-- The value of a node that is read as a text.  A stamp has to be written as a scalar. -/
def leaf (nodes : Nodes) (n : Nat) : Except Fault Value := do
  let value ← (nodes.kind n).read (← text nodes (nodes.size + 1) n)
  match nodes.node n, nodes.kind n with
  | .mapping _ _, .stamp => throw .textMissing
  | _, _ => return value

/-- Makes a node that is not made yet. -/
def node (n : Nat) : Make Unit := do
  if (← content? n).isSome then return
  let nodes := (← get).nodes
  match nodes.kind n with
  | .sequence | .pairs =>
    put n (.list [])
    wait n
  | .mapping =>
    put n (.map [])
    wait n
  | .set =>
    put n (.set [])
    wait n
  | _ => put n (.leaf (← leaf nodes n))

/-- Makes a key, which has to be a scalar. -/
def key (n : Nat) : Make Value := do
  node n
  match ← content? n with
  | some (.leaf v) => return v
  | _ => throw .yamlMalformed

/-- Makes the entries of a mapping after merging. -/
def entries (n : Nat) : Make (List (Value × Nat)) := do
  let s ← get
  let ((), nodes) ← (mergeAt s.mergeSteps n 0 []).run s.nodes
  set { s with nodes }
  (nodes.node n).entries.mapM fun (k, v) => do
    let key ← key k
    node v
    return (key, v)

/-- Makes the only entry of a mapping. -/
def pair (n : Nat) : Make (Nat × Nat) := do
  match (← get).nodes.node n with
  | .mapping _ [(k, v)] =>
    node k
    node v
    return (k, v)
  | _ => throw .yamlMalformed

/-- Keys without those that are there before. -/
def distinct : List Value → List Value
  | [] => []
  | k :: ks => k :: (distinct ks).filter fun k' => !k.sameKey k'

/-- Makes the nodes inside a list or a mapping. -/
def inside (n : Nat) : Make Unit := do
  match (← get).nodes.node n with
  | .sequence .sequence items =>
    items.forM node
    put n (.list items)
  | .sequence .pairs items => put n (.pairs (← items.mapM pair))
  | .mapping .mapping _ => put n (.map (← entries n))
  | .mapping .set _ => put n (.set (distinct ((← entries n).map Prod.fst)))
  | _ => throw .yamlMalformed

/-- Makes what waits, and then what waits after that; a step for each depth. -/
def waiting : Nat → Make Unit
  | 0 => return
  | fuel + 1 => do
    let now := (← get).next.reverse
    unless now.isEmpty do
      modify fun s => { s with next := [] }
      now.forM inside
      waiting fuel

end Make

/-! ## values from contents -/

/-- The contents of the nodes by number, none for a node that counts for nothing. -/
abbrev Contents := Array (Option Content)

/-- The value of a node inside another, given those of nodes that need no others. -/
def refer (contents : Contents) (values : Array (Option Value)) (n : Nat) : Value :=
  match contents.getD n none with
  | some (.leaf v) => v
  | some (.set keys) => .set keys
  | some (.list _) | some (.pairs _) => (values.getD n none).getD (.again n false)
  | some (.map _) => (values.getD n none).getD (.again n true)
  | none => .null

/-- The entries in order, the later of two with one key at the place of the earlier. -/
def insertAll (entries : List (Value × Value)) : Entries :=
  entries.foldl (fun es e => Entries.insert e.1 e.2 es) []

/-- The value of a node from those of the nodes in it. -/
def assemble (contents : Contents) (values : Array (Option Value)) : Option Content → Value
  | some (.leaf v) => v
  | some (.set keys) => .set keys
  | some (.list items) => .list (items.map (refer contents values))
  | some (.pairs entries) =>
    .list (entries.map fun e => .pair (refer contents values e.1) (refer contents values e.2))
  | some (.map entries) =>
    .map (insertAll (entries.map fun e => (e.1, refer contents values e.2)))
  | none => .null

/-- Whether a value stands for a part of a ring. -/
def isAgain : Value → Bool
  | .again _ _ => true
  | .pair key value => isAgain key || isAgain value
  | _ => false

/-- Whether a value holds no part of a ring. -/
def isComplete : Value → Bool
  | .list items => !items.any isAgain
  | .map entries => !entries.any fun e => isAgain e.2
  | _ => true

/-- The values of the nodes that are complete with those before them, in order. -/
def values (contents : Contents) (ends : List Nat) : Array (Option Value) :=
  ends.foldl (fun values n =>
      let v := assemble contents values (contents.getD n none)
      if isComplete v then values.setIfInBounds n (some v) else values)
    (Array.replicate contents.size none)

end Node

namespace Document

/-- What the nodes of a document say about their values, as far as the root needs them. -/
def contents (d : Document) : Except Fault Node.Contents := do
  let start : Node.Making :=
    { nodes := d.nodes, contents := Array.replicate d.nodes.size none,
      mergeSteps := Nodes.mergeSteps d.nodes }
  let make : Node.Make Unit := do
    Node.Make.node d.root
    Node.Make.waiting (d.nodes.size + 1)
  return (← make.run start).2.contents

/-- The value of a document. -/
def value (d : Document) : Except Fault Value := do
  let contents ← d.contents
  let values := Node.values contents d.ends
  match Node.refer contents values d.root with
  | .again here _ => return .ring (contents.toList.map (Node.assemble contents values)) here
  | v => return v

end Document

end Storyboard.Yaml
