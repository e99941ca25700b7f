import Storyboard.Yaml.Kind
import Storyboard.Yaml.Token

/-!
# Storyboard.Yaml.Node

A document as a graph of nodes.  It is composed from tokens by descent: every token decides
which node starts with it, and a place where a node is missing holds an empty one.  The
nodes have numbers, and a node inside another is given by its number.  So a node with an
anchor is one node wherever it is named, which can also be inside itself.  No anchor can be
given twice.
-/

namespace Storyboard.Yaml

/-- A node of a document; the nodes in it are given by their numbers. -/
inductive Node
  | scalar (kind : Kind) (text : List Char)
  | sequence (kind : Kind) (items : List Nat)
  | mapping (kind : Kind) (entries : List (Nat × Nat))
  deriving DecidableEq, Repr

namespace Node

/-- The node where none is written. -/
def empty : Node := .scalar .null []

instance : Inhabited Node := ⟨empty⟩

/-- What a node is. -/
def kind : Node → Kind
  | .scalar k _ => k
  | .sequence k _ => k
  | .mapping k _ => k

/-- The entries of a mapping. -/
def entries : Node → List (Nat × Nat)
  | .mapping _ entries => entries
  | _ => []

end Node

/-- A document. -/
structure Document where
  /-- The nodes by number. -/
  nodes : Array Node
  /-- The numbers of the nodes in the order in which they end. -/
  ends : List Nat
  root : Nat
  deriving DecidableEq, Repr

namespace Document

/-! ## composition -/

/-- The number of lists and mappings up to which they are nested. -/
def depthLimit : Nat := 490

/-- What is left of the tokens, and the document so far. -/
structure Composer where
  tokens : Tokens
  /-- The nodes by number; one that has not ended is empty so far. -/
  nodes : Array Node := #[]
  /-- The numbers of the nodes that have ended, the last first. -/
  ended : List Nat := []
  /-- The number of lists and mappings that have not ended. -/
  depth : Nat := 0
  anchors : List (String × Nat) := []

/-- A step of composition. -/
abbrev Compose := StateT Composer (Except Fault)

/-- What the handles stand for that need no directive. -/
def handles : List (String × String) := [("!", "!"), ("!!", Kind.schema)]

namespace Compose

/-- Tokens that cannot be part of a document. -/
def malformed {α : Type} : Compose α := throw .yamlMalformed

/-- The next token, none at the end of the text. -/
def peek : Compose (Option Token) := do
  let tokens := (← get).tokens
  match tokens.list, tokens.fault with
  | [], some fault => throw fault
  | list, _ => return list.head?

/-- Leaves the next token behind. -/
def drop : Compose Unit :=
  modify fun s => { s with tokens := { s.tokens with list := s.tokens.list.tail } }

/-- Whether the next token is one of some. -/
def sees (ts : List Token) : Compose Bool := do
  return (← peek).any ts.contains

/-- The node of an anchor. -/
def named (name : String) : Compose Nat := do
  match (← get).anchors.lookup name with
  | some n => return n
  | none => malformed

/-- The number of a node that starts here, with its anchor. -/
def start (anchor : Option String) : Compose Nat := do
  let n ← modifyGet fun s => (s.nodes.size, { s with nodes := s.nodes.push .empty })
  if let some name := anchor then
    if ((← get).anchors.lookup name).isSome then malformed
    modify fun s => { s with anchors := (name, n) :: s.anchors }
  return n

/-- Ends a node. -/
def finish (n : Nat) (node : Node) : Compose Nat := do
  modify fun s => { s with nodes := s.nodes.set! n node, ended := n :: s.ended }
  return n

/-- What is inside a list or a mapping. -/
def nested {α : Type} (inside : Compose α) : Compose α := do
  let s ← get
  if depthLimit ≤ s.depth then throw .nestingTooDeep
  set { s with depth := s.depth + 1 }
  let a ← inside
  modify fun s => { s with depth := s.depth - 1 }
  return a

/-- A node where none is written. -/
def missing : Compose Nat := do finish (← start none) .empty

/-- The tag of a handle and a suffix. -/
def resolve (handles : List (String × String)) : Option (Option String × String) →
    Compose (Option String)
  | none => return none
  | some (none, suffix) => return some suffix
  | some (some handle, suffix) =>
    match handles.lookup handle with
    | some start => return some (start ++ suffix)
    | none => malformed

/-- An anchor, if there is one. -/
def anchor? : Compose (Option String) := do
  match ← peek with
  | some (.anchor name) => drop; return some name
  | _ => return none

/-- A tag as it is written, if there is one. -/
def tag? : Compose (Option (Option String × String)) := do
  match ← peek with
  | some (.tag handle suffix) => drop; return some (handle, suffix)
  | _ => return none

/-- The anchor and the tag of a node, in either order. -/
def properties (handles : List (String × String)) :
    Compose (Option String × Option String) := do
  match ← anchor? with
  | some name => return (some name, ← resolve handles (← tag?))
  | none =>
    let tag ← tag?
    let anchor ← if tag.isSome then anchor? else pure none
    return (anchor, ← resolve handles tag)

/-- The kind that a tag says; a missing tag and the tag `!` leave it to the node. -/
def kindOf (tag : Option String) (other : Kind) : Kind :=
  match tag with
  | none => other
  | some "!" => other
  | some tag => Kind.ofTag tag

/-- The kind of a scalar. -/
def scalarKind (tag : Option String) (s : Scalar) : Kind :=
  kindOf tag (if s.plain || tag.isSome then Kind.ofText s.text else .text)

/-- The tokens before which the key or the value of an entry is missing. -/
def entryEnds : List Token := [.key, .value, .blockEnd]

mutual

/-- A node.  Outside flow collections it may be a block, and as part of an entry a list
that is not indented; a step for each node or item. -/
def node (handles : List (String × String)) (block loose : Bool) : Nat → Compose Nat
  | 0 => malformed
  | n + 1 => do
    match ← peek with
    | some (.reference name) => drop; named name
    | _ =>
      let (anchor, tag) ← properties handles
      let next ← peek
      let number ← start anchor
      match next with
      | some (.scalar s) => drop; finish number (.scalar (scalarKind tag s) s.text)
      | some .flowSequenceStart =>
        drop
        finish number (.sequence (kindOf tag .sequence) (← nested (flowItems handles true n)))
      | some .flowMappingStart =>
        drop
        finish number (.mapping (kindOf tag .mapping) (← nested (flowEntries handles true n)))
      | next =>
        if loose ∧ next = some .blockEntry then
          finish number (.sequence (kindOf tag .sequence) (← nested (looseItems handles n)))
        else if block ∧ next = some .sequenceStart then
          drop
          finish number (.sequence (kindOf tag .sequence) (← nested (items handles n)))
        else if block ∧ next = some .mappingStart then
          drop
          finish number (.mapping (kindOf tag .mapping) (← nested (entries handles n)))
        else if anchor.isSome ∨ tag.isSome then
          finish number (.scalar (kindOf tag .null) [])
        else malformed

/-- A node, unless one of some tokens comes next. -/
def nodeUnless (handles : List (String × String)) (block loose : Bool) (ends : List Token) :
    Nat → Compose Nat
  | 0 => malformed
  | n + 1 => do if ← sees ends then missing else node handles block loose n

/-- The items of a block. -/
def items (handles : List (String × String)) : Nat → Compose (List Nat)
  | 0 => malformed
  | n + 1 => do
    match ← peek with
    | some .blockEntry =>
      drop
      let item ← nodeUnless handles true false [.blockEntry, .blockEnd] n
      return item :: (← items handles n)
    | some .blockEnd => drop; return []
    | _ => malformed

/-- The items of a list that is not indented. -/
def looseItems (handles : List (String × String)) : Nat → Compose (List Nat)
  | 0 => malformed
  | n + 1 => do
    match ← peek with
    | some .blockEntry =>
      drop
      let item ← nodeUnless handles true false (.blockEntry :: entryEnds) n
      return item :: (← looseItems handles n)
    | _ => return []

/-- A value after its colon; without a colon it is missing. -/
def valueOf (handles : List (String × String)) (block : Bool) (ends : List Token) :
    Nat → Compose Nat
  | 0 => malformed
  | n + 1 => do
    if ← sees [.value] then
      drop
      nodeUnless handles block block ends n
    else missing

/-- The entries of a block. -/
def entries (handles : List (String × String)) : Nat → Compose (List (Nat × Nat))
  | 0 => malformed
  | n + 1 => do
    match ← peek with
    | some .key =>
      drop
      let key ← nodeUnless handles true true entryEnds n
      let value ← valueOf handles true entryEnds n
      return (key, value) :: (← entries handles n)
    | some .blockEnd => drop; return []
    | _ => malformed

/-- The items of a flow collection; an entry among them is a mapping of its own. -/
def flowItems (handles : List (String × String)) (first : Bool) : Nat → Compose (List Nat)
  | 0 => malformed
  | n + 1 => do
    if ← sees [.flowSequenceEnd] then
      drop
      return []
    unless first do
      if ← sees [.flowEntry] then drop else malformed
    match ← peek with
    | some .flowSequenceEnd => drop; return []
    | some .key =>
      drop
      let ends := [.flowEntry, .flowSequenceEnd]
      let number ← start none
      let entry ← nested do
        let key ← nodeUnless handles false false (.value :: ends) n
        return (key, ← valueOf handles false ends n)
      let item ← finish number (.mapping .mapping [entry])
      return item :: (← flowItems handles false n)
    | _ =>
      let item ← node handles false false n
      return item :: (← flowItems handles false n)

/-- The entries of a flow collection; a node alone is a key without a value. -/
def flowEntries (handles : List (String × String)) (first : Bool) :
    Nat → Compose (List (Nat × Nat))
  | 0 => malformed
  | n + 1 => do
    if ← sees [.flowMappingEnd] then
      drop
      return []
    unless first do
      if ← sees [.flowEntry] then drop else malformed
    match ← peek with
    | some .flowMappingEnd => drop; return []
    | some .key =>
      drop
      let ends := [.flowEntry, .flowMappingEnd]
      let key ← nodeUnless handles false false (.value :: ends) n
      let value ← valueOf handles false ends n
      return (key, value) :: (← flowEntries handles false n)
    | _ =>
      let key ← node handles false false n
      let value ← missing
      return (key, value) :: (← flowEntries handles false n)

end

/-! ## the whole text -/

/-- The handles that directives give, after whether a version was given. -/
def directives (versioned : Bool) (given : List (String × String)) :
    List Token → Except Fault (List (String × String) × List Token)
  | .directive (.version major _) :: rest =>
    if versioned ∨ major ≠ 1 then .error .yamlMalformed else directives true given rest
  | .directive (.tag handle start) :: rest =>
    if (given.lookup handle).isSome then .error .yamlMalformed
    else directives versioned ((handle, start) :: given) rest
  | .directive .unknown :: rest => directives versioned given rest
  | rest => .ok (given, rest)

/-- The root of a document; after an explicit start there may be none. -/
def root (handles : List (String × String)) (explicit : Bool) (fuel : Nat) : Compose Nat := do
  if explicit ∧ (← peek).isNone then missing
  else if explicit then nodeUnless handles true false [.documentEnd, .documentStart] fuel
  else node handles true false fuel

/-- The end of the text after a document. -/
def ending : Compose Unit := do
  let tokens := (← get).tokens
  unless tokens.list.all (· = .documentEnd) do malformed
  if let some fault := tokens.fault then throw fault

/-- The only document in a text, none if the text is empty. -/
def single? : Compose (Option Document) := do
  let written := (← get).tokens.list
  let (given, rest) ← directives false [] written
  modify fun s => { s with tokens := { s.tokens with list := rest } }
  let next ← peek
  if written.isEmpty then return none
  let explicit := next = some .documentStart
  if rest.length < written.length ∧ !explicit then malformed
  if explicit then drop
  let root ← root (given ++ handles) explicit (4 * (rest.length + 2))
  ending
  let s ← get
  return some { nodes := s.nodes, ends := s.ended.reverse, root }

end Compose

/-- The document that tokens make up, none if they are none. -/
def ofTokens? (tokens : Tokens) : Except Fault (Option Document) := do
  return (← Compose.single?.run { tokens }).1

end Document

end Storyboard.Yaml
