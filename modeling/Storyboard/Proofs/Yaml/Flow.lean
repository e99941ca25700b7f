import Storyboard.Yaml.Node.Value

/-!
# Storyboard.Proofs.Yaml.Flow

Flow collections with quoted keys, without anchors and tags: the tokens of one, the nodes
that they are composed to, and its value.  The nodes have numbers in the order in which
they start; so every node inside another has a greater number.
-/

namespace Storyboard.Yaml

/-- A scalar, and the value that it is read as. -/
structure Leaf where
  scalar : Scalar
  value : Value
  read_eq : (Document.Compose.scalarKind none scalar).read scalar.text = .ok value

/-- A scalar, a list or a mapping in flow style. -/
inductive Flow
  | leaf (l : Leaf)
  | list (items : List Flow)
  | map (entries : List (List Char × Flow))

namespace Leaf

/-- What a scalar is. -/
def kind (l : Leaf) : Kind := Document.Compose.scalarKind none l.scalar

/-- The node of a scalar. -/
def node (l : Leaf) : Node := .scalar l.kind l.scalar.text

end Leaf

namespace Flow

/-- The token of a quoted key. -/
def keyToken (key : List Char) : Token := .scalar ⟨key, false⟩

mutual

/-- The tokens of a flow collection. -/
def tokens : Flow → List Token
  | leaf l => [.scalar l.scalar]
  | list [] => [.flowSequenceStart, .flowSequenceEnd]
  | list (item :: items) => .flowSequenceStart :: (item.tokens ++ itemTokens items)
  | map [] => [.flowMappingStart, .flowMappingEnd]
  | map ((key, value) :: entries) =>
    .flowMappingStart :: .key :: keyToken key :: .value :: (value.tokens ++ entryTokens entries)

/-- The tokens of items after the first one, up to the end of the list. -/
def itemTokens : List Flow → List Token
  | [] => [.flowSequenceEnd]
  | item :: items => .flowEntry :: (item.tokens ++ itemTokens items)

/-- The tokens of entries after the first one, up to the end of the mapping. -/
def entryTokens : List (List Char × Flow) → List Token
  | [] => [.flowMappingEnd]
  | (key, value) :: entries =>
    .flowEntry :: .key :: keyToken key :: .value :: (value.tokens ++ entryTokens entries)

end

mutual

/-- The number of nodes. -/
def size : Flow → Nat
  | leaf _ => 1
  | list items => 1 + itemsSize items
  | map entries => 1 + entriesSize entries

/-- The number of nodes of items. -/
def itemsSize : List Flow → Nat
  | [] => 0
  | item :: items => item.size + itemsSize items

/-- The number of nodes of entries. -/
def entriesSize : List (List Char × Flow) → Nat
  | [] => 0
  | (_, value) :: entries => 1 + value.size + entriesSize entries

end

/-- The numbers of items of which the first has the number `n`. -/
def itemNumbers (n : Nat) : List Flow → List Nat
  | [] => []
  | item :: items => n :: itemNumbers (n + item.size) items

/-- The numbers of entries whose first key has the number `n`. -/
def entryNumbers (n : Nat) : List (List Char × Flow) → List (Nat × Nat)
  | [] => []
  | (_, value) :: entries => (n, n + 1) :: entryNumbers (n + 1 + value.size) entries

mutual

/-- The nodes of a flow collection from the number `n` on. -/
def nodes (n : Nat) : Flow → List Node
  | leaf l => [l.node]
  | list items => .sequence .sequence (itemNumbers (n + 1) items) :: itemNodes (n + 1) items
  | map entries => .mapping .mapping (entryNumbers (n + 1) entries) :: entryNodes (n + 1) entries

/-- The nodes of items. -/
def itemNodes (n : Nat) : List Flow → List Node
  | [] => []
  | item :: items => item.nodes n ++ itemNodes (n + item.size) items

/-- The nodes of entries. -/
def entryNodes (n : Nat) : List (List Char × Flow) → List Node
  | [] => []
  | (key, value) :: entries =>
    .scalar .text key :: (value.nodes (n + 1) ++ entryNodes (n + 1 + value.size) entries)

end

mutual

/-- The numbers of the nodes in the order in which they end. -/
def ends (n : Nat) : Flow → List Nat
  | leaf _ => [n]
  | list items => itemEnds (n + 1) items ++ [n]
  | map entries => entryEnds (n + 1) entries ++ [n]

/-- The numbers of the nodes of items in the order in which they end. -/
def itemEnds (n : Nat) : List Flow → List Nat
  | [] => []
  | item :: items => item.ends n ++ itemEnds (n + item.size) items

/-- The numbers of the nodes of entries in the order in which they end. -/
def entryEnds (n : Nat) : List (List Char × Flow) → List Nat
  | [] => []
  | (_, value) :: entries =>
    n :: (value.ends (n + 1) ++ entryEnds (n + 1 + value.size) entries)

end

mutual

/-- The number of lists and mappings inside each other. -/
def depth : Flow → Nat
  | leaf _ => 0
  | list items => 1 + itemsDepth items
  | map entries => 1 + entriesDepth entries

/-- The greatest depth of items. -/
def itemsDepth : List Flow → Nat
  | [] => 0
  | item :: items => max item.depth (itemsDepth items)

/-- The greatest depth of entries. -/
def entriesDepth : List (List Char × Flow) → Nat
  | [] => 0
  | (_, value) :: entries => max value.depth (entriesDepth entries)

end

mutual

/-- The value of a flow collection. -/
def value : Flow → Value
  | leaf l => l.value
  | list items => .list (itemValues items)
  | map entries => .map (Node.insertAll (entryValues entries))

/-- The values of items. -/
def itemValues : List Flow → List Value
  | [] => []
  | item :: items => item.value :: itemValues items

/-- The keys and values of entries. -/
def entryValues : List (List Char × Flow) → List (Value × Value)
  | [] => []
  | (key, value) :: entries => (.text (String.ofList key), value.value) :: entryValues entries

end

mutual

theorem length_nodes (f : Flow) (n : Nat) : (f.nodes n).length = f.size := by
  match f with
  | leaf l => rfl
  | list items => simp [nodes, size, length_itemNodes items, Nat.add_comm]
  | map entries => simp [nodes, size, length_entryNodes entries, Nat.add_comm]

theorem length_itemNodes (items : List Flow) (n : Nat) :
    (itemNodes n items).length = itemsSize items := by
  match items with
  | [] => rfl
  | item :: items => simp [itemNodes, itemsSize, length_nodes item, length_itemNodes items]

theorem length_entryNodes (entries : List (List Char × Flow)) (n : Nat) :
    (entryNodes n entries).length = entriesSize entries := by
  match entries with
  | [] => rfl
  | (key, value) :: entries =>
    simp [entryNodes, entriesSize, length_nodes value, length_entryNodes entries]
    omega

end

end Flow

end Storyboard.Yaml
