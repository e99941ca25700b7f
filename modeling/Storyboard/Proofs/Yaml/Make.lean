import Storyboard.Proofs.Result
import Storyboard.Yaml.Node.Value

/-!
# Storyboard.Proofs.Yaml.Make

The nodes of a document are made level by level.  A node is *sound* if it is a scalar that
is read, or a list or a mapping of later nodes whose keys are texts.

* `Making.run_node`, `Making.run_inside` — one node, and what is inside one;
* `Making.run_waiting` — level after level; a node on a level has a number that is no less
  than that of the level, so all levels are reached;
* `Document.contents_eq_ok` — in a document of sound nodes all that the root needs is made,
  and says what the nodes say.
-/

namespace Storyboard.Yaml

open Storyboard.Yaml.Node

/-! ## scalars -/

/-- What a scalar is read as holds nothing else. -/
theorem isComplete_of_read {k : Kind} {cs : List Char} {v : Value} (h : k.read cs = .ok v) :
    isComplete v = true ∧ isAgain v = false := by
  cases k <;> simp only [Kind.read, reduceCtorEq] at h
  case null => cases h; exact ⟨rfl, rfl⟩
  case text => cases h; exact ⟨rfl, rfl⟩
  case bool =>
    unfold Kind.readBool at h
    dsimp only at h
    split at h
    · cases h; exact ⟨rfl, rfl⟩
    · split at h <;> cases h
      exact ⟨rfl, rfl⟩
  case int =>
    unfold Kind.readInt at h
    dsimp only at h
    split at h
    · cases h
    · split at h <;> cases h
      exact ⟨rfl, rfl⟩
  case float =>
    unfold Kind.readFloat at h
    dsimp only at h
    split at h
    · cases h
    · obtain ⟨x, -, hx⟩ := bind_eq_ok.1 h
      cases hx
      exact ⟨rfl, rfl⟩
  case stamp =>
    unfold Kind.readStamp at h
    split at h
    · split at h <;> cases h
      exact ⟨rfl, rfl⟩
    · cases h
  case bytes =>
    unfold Kind.readBytes at h
    split at h <;> cases h
    exact ⟨rfl, rfl⟩

namespace Nodes

variable (nodes : Nodes)

/-- The key that a node is. -/
def keyValue (n : Nat) : Value :=
  match nodes.node n with
  | .scalar _ text => .text (String.ofList text)
  | _ => .null

/-- What a node says about its value. -/
def content : Node → Node.Content
  | .scalar k text => .leaf ((k.read text).toOption.getD .null)
  | .sequence _ items => .list items
  | .mapping _ entries => .map (entries.map fun e => (nodes.keyValue e.1, e.2))

/-- What is put down for a node before the nodes inside it are made. -/
def outline : Node → Node.Content
  | .scalar k text => .leaf ((k.read text).toOption.getD .null)
  | .sequence _ _ => .list []
  | .mapping _ _ => .map []

/-- The numbers of the nodes inside a node. -/
def inner : Node → List Nat
  | .scalar _ _ => []
  | .sequence _ items => items
  | .mapping _ entries => entries.flatMap fun e => [e.1, e.2]

/-- Whether a node is a scalar. -/
def isScalar : Node → Bool
  | .scalar _ _ => true
  | _ => false

/-- Whether the node with a number can be made by itself: a scalar that is read, or a list or
mapping of later nodes, whose keys are texts. -/
def Sound (n : Nat) : Prop :=
  (∀ i ∈ inner (nodes.node n), n < i ∧ i < nodes.size) ∧
  match nodes.node n with
  | .scalar k text => ∃ v, k.read text = .ok v
  | .sequence k _ => k = .sequence
  | .mapping k entries => k = .mapping ∧ ∀ e ∈ entries, ∃ text, nodes.node e.1 = .scalar .text text

/-- A sound node with a number from `low` on. -/
structure SoundFrom (low n : Nat) : Prop where
  le : low ≤ n
  lt : n < nodes.size
  sound : nodes.Sound n

/-- A node that is a text, which may be a key. -/
def IsText (n : Nat) : Prop := ∃ text, nodes.node n = .scalar .text text

/-- An entry with a text as its key, and with sound nodes from `low` on. -/
structure SoundEntry (low : Nat) (e : Nat × Nat) : Prop where
  text : nodes.IsText e.1
  key : nodes.SoundFrom low e.1
  value : nodes.SoundFrom low e.2

end Nodes

open Nodes

namespace Node.Making

/-- What is made for a node. -/
def cell (s : Making) (n : Nat) : Option Node.Content := s.contents.getD n none

/-- Whether a node is a list or a mapping with a number from `low` on. -/
def Waits (low : Nat) (nodes : Nodes) (n : Nat) : Prop :=
  low ≤ n ∧ n < nodes.size ∧ isScalar (nodes.node n) = false

/-- What more has been made, of nodes from a number on. -/
structure More (low : Nat) (s s' : Making) : Prop where
  nodes : s'.nodes = s.nodes
  mergeSteps : s'.mergeSteps = s.mergeSteps
  size : s'.contents.size = s.contents.size
  kept : ∀ n c, s.cell n = some c → s'.cell n = some c
  added : ∀ n c, s.cell n = none → s'.cell n = some c → c = outline (s.nodes.node n) ∧
    (isScalar (s.nodes.node n) = true ∨ n ∈ s'.next)
  next : ∀ n ∈ s.next, n ∈ s'.next
  later : ∀ n ∈ s'.next, n ∈ s.next ∨ Waits low s.nodes n

namespace More

theorem refl (low : Nat) (s : Making) : More low s s where
  nodes := rfl
  mergeSteps := rfl
  size := rfl
  kept _ _ h := h
  added n c h h' := by simp [h] at h'
  next _ h := h
  later _ h := .inl h

theorem trans {low : Nat} {s s' s'' : Making} (h : More low s s') (h' : More low s' s'') :
    More low s s'' where
  nodes := h'.nodes.trans h.nodes
  mergeSteps := h'.mergeSteps.trans h.mergeSteps
  size := h'.size.trans h.size
  kept n c hc := h'.kept n c (h.kept n c hc)
  added n c hnone hc := by
    cases hs' : s'.cell n with
    | none =>
      have := h'.added n c hs' hc
      rwa [h.nodes] at this
    | some c' =>
      have hc' := h'.kept n c' hs'
      obtain rfl : c' = c := by simpa [hc] using hc'.symm
      obtain ⟨hout, hnext⟩ := h.added n c' hnone hs'
      exact ⟨hout, hnext.imp_right (h'.next n)⟩
  next n hn := h'.next n (h.next n hn)
  later n hn := by
    obtain hn | hn := h'.later n hn
    · exact h.later n hn
    · exact .inr (by rwa [h.nodes] at hn)

end More

theorem cell_put (s : Making) (n m : Nat) (c : Node.Content) (hn : n < s.contents.size) :
    Making.cell { s with contents := s.contents.setIfInBounds n (some c) } m =
      if m = n then some c else s.cell m := by
  unfold cell
  simp only [Array.getD_eq_getD_getElem?, Array.getElem?_setIfInBounds]
  split
  · next h => subst h; simp
  · next h => simp [Ne.symm h]

/-- The state after what a node says by itself is put down. -/
def putDown (s : Making) (n : Nat) : Making :=
  { s with
    contents := s.contents.setIfInBounds n (some (outline (s.nodes.node n)))
    next := if isScalar (s.nodes.node n) then s.next else n :: s.next }

theorem more_putDown {low n : Nat} {s : Making} (hsize : s.contents.size = s.nodes.size)
    (hlow : low ≤ n) (hn : n < s.nodes.size) (hcell : s.cell n = none) :
    More low s (s.putDown n) ∧ ∃ c, (s.putDown n).cell n = some c := by
  have hput (m : Nat) : (s.putDown n).cell m =
      if m = n then some (outline (s.nodes.node n)) else s.cell m :=
    cell_put s n m _ (by omega)
  refine ⟨?_, _, by rw [hput, if_pos rfl]⟩
  constructor
  case nodes => rfl
  case mergeSteps => rfl
  case size => simp [putDown]
  case kept =>
    intro m c hc
    rw [hput]
    split
    · next h => subst h; simp [hcell] at hc
    · exact hc
  case added =>
    intro m c hnone hc
    rw [hput] at hc
    split at hc
    · next h =>
      subst h
      refine ⟨by simpa using hc.symm, ?_⟩
      cases hs : isScalar (s.nodes.node m) <;> simp [putDown, hs]
    · simp [hnone] at hc
  case next =>
    intro m hm
    unfold putDown
    dsimp only
    split
    · exact hm
    · exact List.mem_cons_of_mem _ hm
  case later =>
    intro m hm
    unfold putDown at hm
    dsimp only at hm
    split at hm
    · exact .inl hm
    · next hscalar =>
      obtain rfl | hm := List.mem_cons.1 hm
      · exact .inr ⟨hlow, hn, by simpa using hscalar⟩
      · exact .inl hm

/-- A node that is not made yet is made. -/
theorem run_node {low n : Nat} {s : Making} (hsize : s.contents.size = s.nodes.size)
    (hn : s.nodes.SoundFrom low n) :
    ∃ s', (Make.node n).run s = .ok ((), s') ∧ More low s s' ∧ ∃ c, s'.cell n = some c := by
  obtain ⟨hlow, hn, hsound⟩ := hn
  cases hcell : s.cell n with
  | some c =>
    refine ⟨s, ?_, .refl low s, c, hcell⟩
    rw [Make.node, run_bind_of_ok (a := some c) (t := s) (by rw [← hcell]; rfl)]
    rfl
  | none =>
    have hmore := more_putDown hsize hlow hn hcell
    refine ⟨_, ?_, hmore.1, hmore.2⟩
    rw [Make.node, run_bind_of_ok (a := none) (t := s) (by rw [← hcell]; rfl), if_neg (by simp),
      run_bind_of_ok (a := s) (t := s) rfl]
    have hkind : s.nodes.kind n = (s.nodes.node n).kind := rfl
    unfold Sound at hsound
    cases hnode : s.nodes.node n with
    | scalar k text =>
      rw [hnode] at hsound hkind
      obtain ⟨v, hv⟩ := hsound.2
      have hleaf : Make.leaf s.nodes n = .ok v := by
        simp only [Make.leaf, Make.text, hkind, hnode, Node.kind]
        exact bind_eq_ok.2 ⟨text, rfl, bind_eq_ok.2 ⟨v, hv, by cases k <;> rfl⟩⟩
      simp only [hkind, Node.kind, putDown, hnode, outline, hv, isScalar, hleaf]
      cases k <;> first | rfl | cases hv
    | sequence k items =>
      rw [hnode] at hsound hkind
      simp only [hkind, Node.kind, hsound.2, putDown, hnode]
      rfl
    | mapping k entries =>
      rw [hnode] at hsound hkind
      simp only [hkind, Node.kind, hsound.2.1, putDown, hnode]
      rfl

/-- Nodes are made one after another. -/
theorem run_forM {low : Nat} {s : Making} (hsize : s.contents.size = s.nodes.size)
    {items : List Nat} (hitems : ∀ i ∈ items, s.nodes.SoundFrom low i) :
    ∃ s', (items.forM Make.node).run s = .ok ((), s') ∧ More low s s' ∧
      ∀ i ∈ items, ∃ c, s'.cell i = some c := by
  induction items generalizing s with
  | nil => exact ⟨s, rfl, .refl low s, by simp⟩
  | cons i items ih =>
    obtain ⟨s₁, hrun, hmore, c, hc⟩ := run_node hsize (hitems i List.mem_cons_self)
    obtain ⟨s₂, hrun', hmore', hall⟩ := ih (s := s₁)
      (by rw [hmore.size, hmore.nodes, hsize])
      (by rw [hmore.nodes]; exact fun i hi => hitems i (List.mem_cons_of_mem _ hi))
    refine ⟨s₂, ?_, hmore.trans hmore', ?_⟩
    · exact (run_bind_of_ok hrun).trans hrun'
    · intro j hj
      obtain rfl | hj := List.mem_cons.1 hj
      · exact ⟨c, hmore'.kept _ c hc⟩
      · exact hall j hj

/-! ## what is made is right -/

theorem content_eq_outline {nodes : Nodes} {node : Node} (h : isScalar node = true) :
    content nodes node = outline node := by
  cases node <;> first | rfl | cases h

theorem inner_of_isScalar {node : Node} (h : isScalar node = true) : inner node = [] := by
  cases node <;> first | rfl | cases h

/-- What is made says what the nodes say, or it stands for a node that waits; and what is
inside a node that does not wait is made. -/
structure Consistent (pending : List Nat) (s : Making) : Prop where
  size : s.contents.size = s.nodes.size
  cells : ∀ n c, s.cell n = some c → c = content s.nodes (s.nodes.node n) ∨
    c = outline (s.nodes.node n) ∧ (n ∈ s.next ∨ n ∈ pending)
  inside : ∀ n c, s.cell n = some c → (n ∈ s.next ∨ n ∈ pending) ∨
    ∀ i ∈ inner (s.nodes.node n), ∃ c, s.cell i = some c

namespace Consistent

variable {pending : List Nat} {s s' : Making} {low : Nat}

theorem more (h : Consistent pending s) (hmore : More low s s') : Consistent pending s' where
  size := by rw [hmore.size, hmore.nodes, h.size]
  cells n c hc := by
    rw [hmore.nodes]
    cases hs : s.cell n with
    | some c' =>
      obtain rfl : c' = c := by simpa [hmore.kept n c' hs] using hc
      obtain heq | ⟨heq, hwaits⟩ := h.cells n c' hs
      · exact .inl heq
      · exact .inr ⟨heq, hwaits.imp_left (hmore.next n)⟩
    | none =>
      obtain ⟨rfl, hscalar | hnext⟩ := hmore.added n c hs hc
      · exact .inl (content_eq_outline hscalar).symm
      · exact .inr ⟨rfl, .inl hnext⟩
  inside n c hc := by
    rw [hmore.nodes]
    cases hs : s.cell n with
    | some c' =>
      obtain hwaits | hinner := h.inside n c' hs
      · exact .inl (hwaits.imp_left (hmore.next n))
      · refine .inr fun i hi => ?_
        obtain ⟨c, hc⟩ := hinner i hi
        exact ⟨c, hmore.kept i c hc⟩
    | none =>
      obtain ⟨-, hscalar | hnext⟩ := hmore.added n c hs hc
      · exact .inr (by simp [inner_of_isScalar hscalar])
      · exact .inl (.inl hnext)

/-- A scalar that is made has its value. -/
theorem cell_scalar (h : Consistent pending s) {n : Nat} {c : Node.Content} (hc : s.cell n = some c)
    (hn : isScalar (s.nodes.node n) = true) : c = outline (s.nodes.node n) := by
  obtain heq | ⟨heq, -⟩ := h.cells n c hc
  · rw [heq, content_eq_outline hn]
  · exact heq

end Consistent

/-- A key is made, and is a text. -/
theorem run_key {pending : List Nat} {low n : Nat} {s : Making} (h : Consistent pending s)
    (hn : s.nodes.SoundFrom low n) (htext : s.nodes.IsText n) :
    ∃ s', (Make.key n).run s = .ok (s.nodes.keyValue n, s') ∧ More low s s' ∧
      ∃ c, s'.cell n = some c := by
  obtain ⟨text, hnode⟩ := htext
  obtain ⟨s', hrun, hmore, c, hc⟩ := run_node h.size hn
  have hcell := (h.more hmore).cell_scalar hc (by rw [hmore.nodes, hnode]; rfl)
  rw [hmore.nodes, hnode] at hcell
  subst hcell
  refine ⟨s', ?_, hmore, _, hc⟩
  rw [Make.key, run_bind_of_ok hrun, run_bind_of_ok (a := some _) (t := s') (by rw [← hc]; rfl)]
  rw [keyValue, hnode]
  rfl

/-- The entries of a mapping are made. -/
theorem run_mapM {pending : List Nat} {low : Nat} {s : Making} (h : Consistent pending s)
    {entries : List (Nat × Nat)} (hentries : ∀ e ∈ entries, s.nodes.SoundEntry low e) :
    ∃ s', (entries.mapM fun (k, v) => do
        let key ← Make.key k
        Make.node v
        return (key, v) : Make (List (Value × Nat))).run s =
      .ok (entries.map fun e => (s.nodes.keyValue e.1, e.2), s') ∧ More low s s' ∧
      ∀ e ∈ entries, (∃ c, s'.cell e.1 = some c) ∧ ∃ c, s'.cell e.2 = some c := by
  induction entries generalizing s with
  | nil => exact ⟨s, rfl, .refl low s, by simp⟩
  | cons e entries ih =>
    have he := hentries e List.mem_cons_self
    obtain ⟨s₁, hrun₁, hmore₁, c₁, hc₁⟩ := run_key h he.key he.text
    have h₁ := h.more hmore₁
    obtain ⟨s₂, hrun₂, hmore₂, c₂, hc₂⟩ :=
      run_node h₁.size (by rw [hmore₁.nodes]; exact he.value)
    have h₂ := h₁.more hmore₂
    have hnodes : s₂.nodes = s.nodes := hmore₂.nodes.trans hmore₁.nodes
    obtain ⟨s₃, hrun₃, hmore₃, hall⟩ := ih h₂
      (by rw [hnodes]; exact fun e he => hentries e (List.mem_cons_of_mem _ he))
    refine ⟨s₃, ?_, (hmore₁.trans hmore₂).trans hmore₃, ?_⟩
    · rw [List.mapM_cons, run_bind_of_ok (a := (s.nodes.keyValue e.1, e.2)) (t := s₂),
        run_bind_of_ok hrun₃, hnodes]
      · rfl
      · rw [run_bind_of_ok hrun₁, run_bind_of_ok hrun₂]
        rfl
    · intro e' he'
      obtain rfl | he' := List.mem_cons.1 he'
      · exact ⟨⟨c₁, hmore₃.kept _ _ (hmore₂.kept _ _ hc₁)⟩, c₂, hmore₃.kept _ _ hc₂⟩
      · exact hall e' he'

/-! ## what is inside a node -/

/-- Without a merge key nothing is merged. -/
theorem run_mergeAt {nodes : Nodes} {n steps : Nat}
    (hkeys : ∀ e ∈ (nodes.node n).entries, nodes.IsText e.1) :
    (mergeAt (steps + 1) n 0 []).run nodes = .ok ((), nodes) := by
  have hmerge (entries : List (Nat × Nat)) (place : Nat)
      (h : ∀ e ∈ entries, nodes.IsText e.1) :
      mergeFrom? nodes place entries = none := by
    induction entries generalizing place with
    | nil => rfl
    | cons e entries ih =>
      obtain ⟨text, htext⟩ := h e List.mem_cons_self
      rw [mergeFrom?, if_neg (by simp [Nodes.kind, htext, Node.kind])]
      exact ih _ fun e he => h e (List.mem_cons_of_mem _ he)
  have htexts (entries : List (Nat × Nat))
      (h : ∀ e ∈ entries, nodes.IsText e.1) :
      entries.foldl (fun nodes e => nodes.setTextKey e.1) nodes = nodes := by
    induction entries with
    | nil => rfl
    | cons e entries ih =>
      obtain ⟨text, htext⟩ := h e List.mem_cons_self
      have hset : nodes.setTextKey e.1 = nodes := by rw [setTextKey, htext]
      rw [List.foldl_cons, hset]
      exact ih fun e he => h e (List.mem_cons_of_mem _ he)
  rw [mergeAt, run_bind_of_ok (a := nodes) (t := nodes) rfl]
  dsimp only
  rw [List.drop_zero, hmerge _ _ hkeys]
  refine congrArg (fun nodes => Except.ok ((), nodes)) ?_
  exact htexts _ hkeys

/-- The state after a node says what is inside it. -/
def close (s : Making) (n : Nat) : Making :=
  { s with contents := s.contents.setIfInBounds n (some (content s.nodes (s.nodes.node n))) }

theorem cell_close {s : Making} {n : Nat} (hn : n < s.contents.size) (m : Nat) :
    (s.close n).cell m = if m = n then some (content s.nodes (s.nodes.node n)) else s.cell m :=
  cell_put s n m _ hn

theorem Consistent.close {pending : List Nat} {s : Making} {n : Nat}
    (h : Consistent (n :: pending) s) (hn : n < s.nodes.size)
    (hinner : ∀ i ∈ inner (s.nodes.node n), ∃ c, s.cell i = some c) :
    Consistent pending (s.close n) := by
  have hcell := cell_close (s := s) (n := n) (by rw [h.size]; exact hn)
  have hmade : ∀ i, (∃ c, s.cell i = some c) → ∃ c, (s.close n).cell i = some c := by
    intro i hi
    rw [hcell]
    split
    · exact ⟨_, rfl⟩
    · exact hi
  have hpending (m : Nat) (hm : m ≠ n) (hwaits : m ∈ s.next ∨ m ∈ n :: pending) :
      m ∈ s.next ∨ m ∈ pending :=
    hwaits.imp_right fun h => (List.mem_cons.1 h).resolve_left hm
  constructor
  case size => simpa [Making.close] using h.size
  case cells =>
    intro m c hc
    rw [hcell] at hc
    split at hc
    · next hm => subst hm; exact .inl (Option.some.inj hc).symm
    · next hm => exact (h.cells m c hc).imp_right (.imp_right (hpending m hm))
  case inside =>
    intro m c hc
    rw [hcell] at hc
    split at hc
    · next hm => subst hm; exact .inr fun i hi => hmade i (hinner i hi)
    · next hm =>
      obtain hwaits | hin := h.inside m c hc
      · exact .inl (hpending m hm hwaits)
      · exact .inr fun i hi => hmade i (hin i hi)

/-- How making goes on: what is made stays made, and the nodes that wait have numbers from
`low` on. -/
structure Goes (low : Nat) (s s' : Making) : Prop where
  nodes : s'.nodes = s.nodes
  mergeSteps : s'.mergeSteps = s.mergeSteps
  made : ∀ n, (∃ c, s.cell n = some c) → ∃ c, s'.cell n = some c
  later : ∀ n ∈ s'.next, n ∈ s.next ∨ Waits low s.nodes n

theorem Goes.trans {low : Nat} {s s' s'' : Making} (h : Goes low s s') (h' : Goes low s' s'') :
    Goes low s s'' where
  nodes := h'.nodes.trans h.nodes
  mergeSteps := h'.mergeSteps.trans h.mergeSteps
  made n hn := h'.made n (h.made n hn)
  later n hn := by
    obtain hn | hn := h'.later n hn
    · exact h.later n hn
    · exact .inr (by rwa [h.nodes] at hn)

theorem More.goes {low : Nat} {s s' : Making} (h : More low s s') : Goes low s s' where
  nodes := h.nodes
  mergeSteps := h.mergeSteps
  made n := fun ⟨c, hc⟩ => ⟨c, h.kept n c hc⟩
  later := h.later

theorem goes_close {low n : Nat} {s : Making} (hn : n < s.contents.size) :
    Goes low s (s.close n) where
  nodes := rfl
  mergeSteps := rfl
  made m hm := by
    rw [cell_close hn]
    split
    · exact ⟨_, rfl⟩
    · exact hm
  later _ h := .inl h

/-- Once what is inside a node is made, the node can say so. -/
theorem Consistent.close_of_more {pending : List Nat} {low n : Nat} {s s' : Making}
    (h : Consistent (n :: pending) s) (hmore : More low s s') (hn : n < s.nodes.size)
    (hmade : ∀ i ∈ inner (s.nodes.node n), ∃ c, s'.cell i = some c) :
    Consistent pending (s'.close n) ∧ Goes low s (s'.close n) := by
  have h' := h.more hmore
  have hn' : n < s'.nodes.size := by rw [hmore.nodes]; exact hn
  refine ⟨h'.close hn' ?_, hmore.goes.trans (goes_close (by rw [h'.size]; exact hn'))⟩
  rw [hmore.nodes]
  exact hmade

section

variable {pending : List Nat} {low n : Nat} {s : Making}

/-- What is inside a list is made. -/
theorem run_inside_list {items : List Nat} (h : Consistent (n :: pending) s)
    (hn : n < s.nodes.size) (hnode : s.nodes.node n = .sequence .sequence items)
    (hitems : ∀ i ∈ items, s.nodes.SoundFrom low i) :
    ∃ s', (Make.inside n).run s = .ok ((), s') ∧ Consistent pending s' ∧ Goes low s s' := by
  obtain ⟨s', hrun, hmore, hmade⟩ := run_forM h.size hitems
  have hcontent : content s'.nodes (s'.nodes.node n) = .list items := by
    rw [hmore.nodes, hnode]
    rfl
  refine ⟨s'.close n, ?_, h.close_of_more hmore hn (by rw [hnode]; exact hmade)⟩
  rw [Make.inside, run_bind_of_ok (a := s) (t := s) rfl]
  simp only [hnode]
  rw [run_bind_of_ok hrun, hcontent.symm]
  rfl

/-- The entries of a mapping are made, none of which is merged. -/
theorem run_entries {entries : List (Nat × Nat)} (h : Consistent pending s)
    (hsteps : 0 < s.mergeSteps) (hnode : s.nodes.node n = .mapping .mapping entries)
    (hentries : ∀ e ∈ entries, s.nodes.SoundEntry low e) :
    ∃ s', (Make.entries n).run s =
        .ok (entries.map fun e => (s.nodes.keyValue e.1, e.2), s') ∧ More low s s' ∧
      ∀ e ∈ entries, (∃ c, s'.cell e.1 = some c) ∧ ∃ c, s'.cell e.2 = some c := by
  obtain ⟨steps, hsteps⟩ : ∃ k, s.mergeSteps = k + 1 := ⟨s.mergeSteps - 1, by omega⟩
  have hmerge : (mergeAt s.mergeSteps n 0 []).run s.nodes = .ok ((), s.nodes) := by
    rw [hsteps]
    exact run_mergeAt (by rw [hnode]; exact fun e he => (hentries e he).text)
  obtain ⟨s', hrun, hmore, hmade⟩ := run_mapM h hentries
  refine ⟨s', ?_, hmore, hmade⟩
  rw [Make.entries, run_bind_of_ok (a := s) (t := s) rfl,
    run_bind_of_ok (a := ((), s.nodes)) (t := s) (by rw [hmerge]; rfl),
    run_bind_of_ok (a := ()) (t := s) rfl, hnode]
  exact hrun

/-- What is inside a mapping is made. -/
theorem run_inside_map {entries : List (Nat × Nat)} (h : Consistent (n :: pending) s)
    (hsteps : 0 < s.mergeSteps) (hn : n < s.nodes.size)
    (hnode : s.nodes.node n = .mapping .mapping entries)
    (hentries : ∀ e ∈ entries, s.nodes.SoundEntry low e) :
    ∃ s', (Make.inside n).run s = .ok ((), s') ∧ Consistent pending s' ∧ Goes low s s' := by
  obtain ⟨s', hrun, hmore, hmade⟩ := run_entries h hsteps hnode hentries
  have hcontent : content s'.nodes (s'.nodes.node n) =
      .map (entries.map fun e => (s.nodes.keyValue e.1, e.2)) := by
    rw [hmore.nodes, hnode]
    rfl
  have hinner : ∀ i ∈ inner (s.nodes.node n), ∃ c, s'.cell i = some c := by
    rw [hnode]
    intro i hi
    obtain ⟨e, he, hi⟩ := List.mem_flatMap.1 hi
    obtain rfl | rfl := List.mem_pair.1 hi
    · exact (hmade e he).1
    · exact (hmade e he).2
  refine ⟨s'.close n, ?_, h.close_of_more hmore hn hinner⟩
  rw [Make.inside, run_bind_of_ok (a := s) (t := s) rfl]
  simp only [hnode]
  rw [run_bind_of_ok hrun, hcontent.symm]
  rfl

/-- What is inside a list or a mapping is made. -/
theorem run_inside (h : Consistent (n :: pending) s) (hsound : ∀ m < s.nodes.size, Sound s.nodes m)
    (hsteps : 0 < s.mergeSteps) (hn : n < s.nodes.size) (hlow : low ≤ n + 1)
    (hscalar : isScalar (s.nodes.node n) = false) :
    ∃ s', (Make.inside n).run s = .ok ((), s') ∧ Consistent pending s' ∧ Goes low s s' := by
  obtain ⟨hinner, hkind⟩ := hsound n hn
  -- what is inside a node comes after it
  have hfrom {i : Nat} (hi : i ∈ inner (s.nodes.node n)) : s.nodes.SoundFrom low i := by
    obtain ⟨hni, hisize⟩ := hinner i hi
    exact ⟨by omega, hisize, hsound i hisize⟩
  cases hnode : s.nodes.node n with
  | scalar k text => simp [hnode, isScalar] at hscalar
  | sequence k items =>
    rw [hnode] at hkind hfrom
    obtain rfl : k = .sequence := hkind
    exact run_inside_list h hn hnode fun i hi => hfrom hi
  | mapping k entries =>
    rw [hnode] at hkind hfrom
    obtain ⟨rfl, hkeys⟩ := hkind
    exact run_inside_map h hsteps hn hnode fun e he =>
      { text := hkeys e he
        key := hfrom (List.mem_flatMap.2 ⟨e, he, by simp⟩)
        value := hfrom (List.mem_flatMap.2 ⟨e, he, by simp⟩) }

end

/-- What is inside some lists and mappings is made. -/
theorem run_forM_inside {low : Nat} {now : List Nat} {s : Making}
    (h : Consistent now s) (hsound : ∀ m < s.nodes.size, Sound s.nodes m)
    (hsteps : 0 < s.mergeSteps)
    (hnow : ∀ n ∈ now, n < s.nodes.size ∧ low ≤ n + 1 ∧ isScalar (s.nodes.node n) = false) :
    ∃ s', (now.forM Make.inside).run s = .ok ((), s') ∧ Consistent [] s' ∧ Goes low s s' := by
  induction now generalizing s with
  | nil => exact ⟨s, rfl, h, (More.refl low s).goes⟩
  | cons n now ih =>
    obtain ⟨hn, hlow, hscalar⟩ := hnow n List.mem_cons_self
    obtain ⟨s₁, hrun₁, h₁, hgoes₁⟩ := run_inside h hsound hsteps hn hlow hscalar
    obtain ⟨s₂, hrun₂, h₂, hgoes₂⟩ := ih h₁ (by rw [hgoes₁.nodes]; exact hsound)
      (by rw [hgoes₁.mergeSteps]; exact hsteps)
      (by rw [hgoes₁.nodes]; exact fun n hn => hnow n (List.mem_cons_of_mem _ hn))
    exact ⟨s₂, (run_bind_of_ok hrun₁).trans hrun₂, h₂, hgoes₁.trans hgoes₂⟩

/-- All that waits is made, and then what waits after that. -/
theorem run_waiting {fuel low : Nat} {s : Making} (h : Consistent [] s)
    (hsound : ∀ m < s.nodes.size, Sound s.nodes m) (hsteps : 0 < s.mergeSteps)
    (hnext : ∀ n ∈ s.next, Waits low s.nodes n) (hfuel : s.nodes.size ≤ fuel + low) :
    ∃ s', (Make.waiting fuel).run s = .ok ((), s') ∧ Consistent [] s' ∧ s'.next = [] ∧
      s'.nodes = s.nodes ∧ ∀ n, (∃ c, s.cell n = some c) → ∃ c, s'.cell n = some c := by
  induction fuel generalizing s low with
  | zero =>
    refine ⟨s, rfl, h, List.eq_nil_iff_forall_not_mem.2 fun n hn => ?_, rfl, fun _ h => h⟩
    have ⟨hlow, hsize, _⟩ := hnext n hn
    omega
  | succ fuel ih =>
    rw [Make.waiting, run_bind_of_ok (a := s) (t := s) rfl]
    by_cases hempty : s.next = []
    · exact ⟨s, by rw [hempty]; rfl, h, hempty, rfl, fun _ h => h⟩
    · have hnow : Consistent s.next.reverse { s with next := [] } :=
        { size := h.size
          cells := fun n c hc => (h.cells n c hc).imp_right (.imp_right (by simp))
          inside := fun n c hc => (h.inside n c hc).imp_left (by simp) }
      have hinside : ∀ n ∈ s.next.reverse, n < s.nodes.size ∧ low + 1 ≤ n + 1 ∧
          isScalar (s.nodes.node n) = false := by
        intro n hn
        obtain ⟨hlow, hsize, hscalar⟩ := hnext n (List.mem_reverse.1 hn)
        exact ⟨hsize, by omega, hscalar⟩
      obtain ⟨s₁, hrun₁, h₁, hgoes₁⟩ := run_forM_inside hnow hsound hsteps hinside
      -- What waits now has greater numbers than what waited before.
      have hlater : ∀ n ∈ s₁.next, Waits (low + 1) s₁.nodes n := by
        rw [hgoes₁.nodes]
        exact fun n hn => (hgoes₁.later n hn).resolve_left List.not_mem_nil
      obtain ⟨s₂, hrun₂, h₂, hnext₂, hnodes₂, hmade₂⟩ := ih h₁
        (by rw [hgoes₁.nodes]; exact hsound) (by rw [hgoes₁.mergeSteps]; exact hsteps) hlater
        (by rw [hgoes₁.nodes]; dsimp only; omega)
      refine ⟨s₂, ?_, h₂, hnext₂, hnodes₂.trans hgoes₁.nodes,
        fun n hn => hmade₂ n (hgoes₁.made n hn)⟩
      rw [if_neg (by simpa using hempty), run_bind_of_ok (a := ()) (t := { s with next := [] }) rfl,
        run_bind_of_ok hrun₁, hrun₂]

end Node.Making

namespace Document

/-! ## contents -/

/-- If every node is sound, all that the root needs is made: the root itself, and with a
list or a mapping what is inside it. -/
theorem contents_eq_ok {d : Document} (hsound : ∀ n < d.nodes.size, Sound d.nodes n)
    (hroot : d.root < d.nodes.size) :
    ∃ contents, d.contents = .ok contents ∧ contents.size = d.nodes.size ∧
      (∀ n c, contents.getD n none = some c → c = content d.nodes (Nodes.node d.nodes n) ∧
        ∀ i ∈ inner (Nodes.node d.nodes n), ∃ c, contents.getD i none = some c) ∧
      ∃ c, contents.getD d.root none = some c := by
  let start : Making :=
    { nodes := d.nodes, contents := Array.replicate d.nodes.size none,
      mergeSteps := Nodes.mergeSteps d.nodes }
  have hnone (n : Nat) : start.cell n = none := by
    simp [start, Making.cell, Array.getD_eq_getD_getElem?, Array.getElem?_replicate]
    split <;> rfl
  have hstart : Making.Consistent [] start :=
    { size := by simp [start]
      cells := fun n c hc => by simp [hnone] at hc
      inside := fun n c hc => by simp [hnone] at hc }
  obtain ⟨s₁, hrun₁, hmore₁, hmade₁⟩ :=
    Making.run_node hstart.size ⟨Nat.zero_le _, hroot, hsound _ hroot⟩
  have h₁ := hstart.more hmore₁
  have hwaits : ∀ n ∈ s₁.next, Making.Waits 0 s₁.nodes n := fun n hn => by
    rw [hmore₁.nodes]
    exact (hmore₁.later n hn).resolve_left List.not_mem_nil
  have hfuel : s₁.nodes.size ≤ d.nodes.size + 1 + 0 := by
    rw [hmore₁.nodes]
    exact Nat.le_add_right _ 1
  obtain ⟨s₂, hrun₂, h₂, hnext₂, hnodes₂, hmade₂⟩ :=
    Making.run_waiting h₁ (by rw [hmore₁.nodes]; exact hsound)
      (by rw [hmore₁.mergeSteps]; exact Nat.succ_pos _) hwaits hfuel
  have hnodes : s₂.nodes = d.nodes := hnodes₂.trans hmore₁.nodes
  refine ⟨s₂.contents, ?_, ?_, ?_, hmade₂ _ hmade₁⟩
  · have hmake : (do
        Make.node d.root
        Make.waiting (d.nodes.size + 1) : Make Unit).run start = .ok ((), s₂) := by
      rw [run_bind_of_ok hrun₁, hrun₂]
    unfold contents
    exact bind_eq_ok.2 ⟨_, hmake, rfl⟩
  · rw [h₂.size, hnodes]
  · intro n c hc
    rw [← hnodes]
    refine ⟨(h₂.cells n c hc).resolve_right ?_, (h₂.inside n c hc).resolve_left ?_⟩
    · simp [hnext₂]
    · simp [hnext₂]

/-- The value of a document is that of its root, if that is not a part of a ring. -/
theorem value_of_refer {d : Document} {contents : Node.Contents} {v : Value}
    (hcontents : d.contents = .ok contents)
    (hv : refer contents (values contents d.ends) d.root = v) (hagain : isAgain v = false) :
    d.value = .ok v := by
  simp only [value, hcontents, hv, bind, Except.bind]
  cases v with
  | again here isMap => cases hagain
  | _ => rfl

end Document

end Storyboard.Yaml
