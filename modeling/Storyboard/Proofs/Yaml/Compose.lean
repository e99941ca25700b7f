import Storyboard.Proofs.Result
import Storyboard.Proofs.Yaml.Flow

/-!
# Storyboard.Proofs.Yaml.Compose

The tokens of a flow collection are composed to its nodes.  The composer takes one token
after another; each lemma says which tokens one of its parts takes, and which nodes it adds.

* `Takes`, `Takes.bind` — a part takes some tokens, and so do two parts one after the other;
* `Takes.collection`, `Takes.firstItem`, `Takes.firstEntry` — what a node, an item and an entry
  take;
* `takes_flow` — a flow collection, by the recursion of its tokens;
* `ofTokens?_flow` — the document that is composed.
-/

namespace Storyboard.Yaml.Document.Compose

open Storyboard.Yaml.Flow

variable {α β : Type} {handles : List (String × String)}

/-! ## the steps -/

/-- The composer before some tokens, with nodes so far, some of which have ended. -/
def state (ts : List Token) (nodes : List Node) (ended : List Nat) (depth : Nat) : Composer :=
  { tokens := ⟨ts, none⟩, nodes := nodes.toArray, ended, depth }

section

variable {ts rest : List Token} {t : Token} {nodes : List Node} {ended : List Nat} {depth : Nat}

theorem run_peek :
    peek.run (state ts nodes ended depth) = .ok (ts.head?, state ts nodes ended depth) := by
  cases ts <;> rfl

theorem run_drop :
    drop.run (state (t :: rest) nodes ended depth) = .ok ((), state rest nodes ended depth) := rfl

theorem run_sees : (sees ts).run (state rest nodes ended depth) =
    .ok (rest.head?.any ts.contains, state rest nodes ended depth) := by
  rw [sees, run_bind_of_ok run_peek]
  rfl

theorem run_start : (start none).run (state ts nodes ended depth) =
    .ok (nodes.length, state ts (nodes ++ [.empty]) ended depth) := by
  have hpush : (nodes ++ [Node.empty]).toArray = nodes.toArray.push Node.empty := by simp
  rw [state, state, hpush]
  rfl

theorem run_finish (n : Nat) (node : Node) : (finish n node).run (state ts nodes ended depth) =
    .ok (n, state ts (nodes.set n node) (n :: ended) depth) := by
  have hset : (nodes.set n node).toArray = nodes.toArray.set! n node := by simp
  rw [state, state, hset]
  rfl

theorem run_nested {inside : Compose α} {a : α} {nodes' : List Node} {ended' : List Nat}
    (hdepth : depth < depthLimit)
    (h : inside.run (state ts nodes ended (depth + 1)) =
      .ok (a, state rest nodes' ended' (depth + 1))) :
    (nested inside).run (state ts nodes ended depth) = .ok (a, state rest nodes' ended' depth) := by
  unfold nested
  rw [run_bind_of_ok (a := state ts nodes ended depth) rfl, if_neg (by simp only [state]; omega)]
  rw [run_bind_of_ok (a := ()) (t := state ts nodes ended (depth + 1)) rfl, run_bind_of_ok h]
  rfl

/-- Whether a token can start a value in a flow collection. -/
def startsValue : Token → Bool
  | .scalar _ | .flowSequenceStart | .flowMappingStart => true
  | _ => false

theorem run_properties (ht : startsValue t = true) :
    (properties handles).run (state (t :: rest) nodes ended depth) =
      .ok ((none, none), state (t :: rest) nodes ended depth) := by
  cases t <;> first | rfl | simp [startsValue] at ht

end

/-- Whether some tokens start with one that can start a value in a flow collection. -/
def StartsValue (ts : List Token) : Prop := ∃ t more, ts = t :: more ∧ startsValue t = true

theorem startsValue_tokens (f : Flow) : StartsValue f.tokens := by
  match f with
  | leaf _ => exact ⟨_, _, rfl, rfl⟩
  | list [] => exact ⟨_, _, rfl, rfl⟩
  | list (_ :: _) => exact ⟨_, _, rfl, rfl⟩
  | map [] => exact ⟨_, _, rfl, rfl⟩
  | map ((_, _) :: _) => exact ⟨_, _, rfl, rfl⟩

/-! ## what the parts take -/

/-- A part of the composer takes some tokens where the next node has the number `n`: whatever comes
after them, there is a result, nodes are added, and the nodes with some numbers end. -/
def Takes (m : Compose α) (depth : Nat) (ts : List Token) (n : Nat) (a : α) (added : List Node)
    (ends : List Nat) : Prop :=
  ∀ rest nodes ended, nodes.length = n →
    m.run (state (ts ++ rest) nodes ended depth) =
      .ok (a, state rest (nodes ++ added) (ends.reverse ++ ended) depth)

section

variable {ts ts' : List Token} {t : Token} {n k depth fuel : Nat} {added added' : List Node}
  {ends ends' : List Nat} {a : α} {b : β}

/-- One part after another takes the tokens of both. -/
theorem Takes.bind {m : Compose α} {f : α → Compose β} (h : Takes m depth ts n a added ends)
    (hadded : added.length = k) (hf : Takes (f a) depth ts' (n + k) b added' ends') :
    Takes (m >>= f) depth (ts ++ ts') n b (added ++ added') (ends ++ ends') := by
  intro rest nodes ended hn
  have hlength : (nodes ++ added).length = n + k := by simp [hn, hadded]
  rw [List.append_assoc, run_bind_of_ok (h _ _ _ hn), hf _ _ _ hlength, List.append_assoc,
    List.reverse_append, List.append_assoc]

theorem Takes.map {m : Compose α} (f : α → β) (h : Takes m depth ts n a added ends) :
    Takes (do return f (← m)) depth ts n (f a) added ends := by
  intro rest nodes ended hn
  rw [run_bind_of_ok (h _ _ _ hn)]
  rfl

theorem takes_drop : Takes drop depth [t] n () [] [] := by
  intro rest nodes ended _
  rw [List.append_nil]
  exact run_drop

/-! ## nodes -/

/-- The rest of a node once it has a number. -/
def fill (handles : List (String × String)) (fuel number : Nat) : Token → Compose Nat
  | .scalar s => do
    drop
    finish number (.scalar (scalarKind none s) s.text)
  | .flowSequenceStart => do
    drop
    finish number (.sequence .sequence (← nested (flowItems handles true fuel)))
  | .flowMappingStart => do
    drop
    finish number (.mapping .mapping (← nested (flowEntries handles true fuel)))
  | _ => malformed

variable (block loose : Bool)

/-- A node without an anchor and a tag gets a number, and a place. -/
theorem run_node (ht : startsValue t = true) (rest : List Token) (nodes : List Node)
    (ended : List Nat) :
    (node handles block loose (fuel + 1)).run (state (t :: rest) nodes ended depth) =
      (fill handles fuel nodes.length t).run
        (state (t :: rest) (nodes ++ [.empty]) ended depth) := by
  rw [node, run_bind_of_ok run_peek]
  cases t <;> first
    | (dsimp only [List.head?_cons]
       rw [run_bind_of_ok (run_properties rfl)]
       dsimp only
       rw [run_bind_of_ok run_peek, run_bind_of_ok run_start]
       rfl)
    | simp [startsValue] at ht

theorem takes_scalar (s : Scalar) :
    Takes (node handles block loose (fuel + 1)) depth [.scalar s] n n
      [.scalar (scalarKind none s) s.text] [n] := by
  rintro rest nodes ended rfl
  rw [List.singleton_append, run_node _ _ rfl, fill, run_bind_of_ok run_drop, run_finish]
  simp

/-- A node is put in the place that was kept for it. -/
theorem set_kept (nodes more : List Node) (node : Node) :
    (nodes ++ [Node.empty] ++ more).set nodes.length node = nodes ++ node :: more := by
  simp

/-- A collection takes its first token, and what is inside it takes the others; its node stands
before those of what is inside, and ends after them. -/
theorem Takes.collection {inside : Compose α} (make : α → Node) (hdepth : depth < depthLimit)
    (ht : startsValue t = true)
    (hfill : ∀ number, fill handles fuel number t = do
      drop
      finish number (make (← nested inside)))
    (h : Takes inside (depth + 1) ts (n + 1) a added ends) :
    Takes (node handles block loose (fuel + 1)) depth (t :: ts) n n (make a :: added)
      (ends ++ [n]) := by
  rintro rest nodes ended rfl
  have hinside := run_nested hdepth (h rest (nodes ++ [.empty]) ended (by simp))
  rw [List.cons_append, run_node _ _ ht, hfill, run_bind_of_ok run_drop, run_bind_of_ok hinside,
    run_finish, set_kept, List.reverse_append, List.reverse_singleton, List.singleton_append,
    List.cons_append]

theorem Takes.sequence {items : List Nat} (hdepth : depth < depthLimit)
    (h : Takes (flowItems handles true fuel) (depth + 1) ts (n + 1) items added ends) :
    Takes (node handles block loose (fuel + 1)) depth (.flowSequenceStart :: ts) n n
      (.sequence .sequence items :: added) (ends ++ [n]) :=
  h.collection block loose (.sequence .sequence) hdepth rfl fun _ => rfl

theorem Takes.mapping {entries : List (Nat × Nat)} (hdepth : depth < depthLimit)
    (h : Takes (flowEntries handles true fuel) (depth + 1) ts (n + 1) entries added ends) :
    Takes (node handles block loose (fuel + 1)) depth (.flowMappingStart :: ts) n n
      (.mapping .mapping entries :: added) (ends ++ [n]) :=
  h.collection block loose (.mapping .mapping) hdepth rfl fun _ => rfl

/-! ## items -/

theorem takes_itemsEnd {first : Bool} :
    Takes (flowItems handles first (fuel + 1)) depth [.flowSequenceEnd] n [] [] [] := by
  intro rest nodes ended _
  rw [List.singleton_append, flowItems, run_bind_of_ok run_sees, List.append_nil]
  rfl

section

variable {item : Nat} {items : List Nat} (hts : StartsValue ts)
  (hitem : Takes (node handles false false fuel) depth ts n item added ends)
  (hadded : added.length = k)
  (hitems : Takes (flowItems handles false fuel) depth ts' (n + k) items added' ends')

include hitem hadded hitems

/-- An item, and the items after it. -/
theorem Takes.withItems :
    Takes (do
      let item ← node handles false false fuel
      return item :: (← flowItems handles false fuel)) depth (ts ++ ts') n (item :: items)
      (added ++ added') (ends ++ ends') :=
  hitem.bind hadded (hitems.map (item :: ·))

include hts

theorem Takes.firstItem :
    Takes (flowItems handles true (fuel + 1)) depth (ts ++ ts') n (item :: items)
      (added ++ added') (ends ++ ends') := by
  intro rest nodes ended hn
  have hall := hitem.withItems hadded hitems rest nodes ended hn
  obtain ⟨t, more, rfl, ht⟩ := hts
  rw [flowItems, List.cons_append, List.cons_append, run_bind_of_ok run_sees]
  cases t <;> first | exact hall | simp [startsValue] at ht

theorem Takes.nextItem :
    Takes (flowItems handles false (fuel + 1)) depth (.flowEntry :: (ts ++ ts')) n (item :: items)
      (added ++ added') (ends ++ ends') := by
  intro rest nodes ended hn
  have hall := hitem.withItems hadded hitems rest nodes ended hn
  obtain ⟨t, more, rfl, ht⟩ := hts
  rw [flowItems, List.cons_append, run_bind_of_ok run_sees]
  cases t <;> first | exact hall | simp [startsValue] at ht

end

/-! ## entries -/

theorem takes_entriesEnd {first : Bool} :
    Takes (flowEntries handles first (fuel + 1)) depth [.flowMappingEnd] n [] [] [] := by
  intro rest nodes ended _
  rw [List.singleton_append, flowEntries, run_bind_of_ok run_sees, List.append_nil]
  rfl

/-- The key of an entry. -/
theorem takes_key {key : List Char} {marks : List Token} (hkey : keyToken key ∉ marks) :
    Takes (nodeUnless handles false false marks (fuel + 2)) depth [keyToken key] n n
      [.scalar .text key] [n] := by
  intro rest nodes ended hn
  have hsees : Option.any marks.contains (keyToken key :: rest).head? = false := by
    simpa using hkey
  rw [List.singleton_append, nodeUnless, run_bind_of_ok run_sees, hsees]
  exact takes_scalar _ _ ⟨key, false⟩ rest nodes ended hn

section

variable {value : Nat} {entries : List (Nat × Nat)} {key : List Char}

/-- The value of an entry. -/
theorem Takes.valueOf {marks : List Token} (hmarks : ∀ t ∈ marks, startsValue t = false)
    (hts : StartsValue ts)
    (hvalue : Takes (node handles false false fuel) depth ts n value added ends) :
    Takes (valueOf handles false marks (fuel + 2)) depth (.value :: ts) n value added ends := by
  intro rest nodes ended hn
  have hnode := hvalue rest nodes ended hn
  obtain ⟨t, more, rfl, ht⟩ := hts
  have hsees : Option.any marks.contains (t :: (more ++ rest)).head? = false := by
    simpa using fun h => absurd (hmarks t h) (by simp [ht])
  rw [List.cons_append, Compose.valueOf, run_bind_of_ok run_sees, if_pos (by simp),
    run_bind_of_ok run_drop, List.cons_append, nodeUnless, run_bind_of_ok run_sees, hsees]
  exact hnode

variable (hts : StartsValue ts)
  (hvalue : Takes (node handles false false fuel) depth ts (n + 1) value added ends)
  (hadded : added.length = k)
  (hentries : Takes (flowEntries handles false (fuel + 2)) depth ts' (n + 1 + k) entries added'
    ends')

include hts hvalue hadded hentries

/-- An entry, from its key on, and the entries after it. -/
theorem Takes.withEntries :
    Takes (do
      drop
      let ends := [.flowEntry, .flowMappingEnd]
      let key ← nodeUnless handles false false (.value :: ends) (fuel + 2)
      let value ← Compose.valueOf handles false ends (fuel + 2)
      return (key, value) :: (← flowEntries handles false (fuel + 2)))
      depth (.key :: keyToken key :: .value :: (ts ++ ts')) n ((n, value) :: entries)
      (.scalar .text key :: (added ++ added')) (n :: (ends ++ ends')) :=
  takes_drop.bind rfl <| (takes_key (by simp [keyToken])).bind rfl <|
    (hvalue.valueOf (by simp [startsValue]) hts).bind hadded (hentries.map ((n, value) :: ·))

/-- The first entry of a mapping, and those after it. -/
theorem Takes.firstEntry :
    Takes (flowEntries handles true (fuel + 3)) depth
      (.key :: keyToken key :: .value :: (ts ++ ts')) n ((n, value) :: entries)
      (.scalar .text key :: (added ++ added')) (n :: (ends ++ ends')) := by
  intro rest nodes ended hn
  rw [flowEntries, List.cons_append, run_bind_of_ok run_sees]
  exact Takes.withEntries hts hvalue hadded hentries rest nodes ended hn

theorem Takes.nextEntry :
    Takes (flowEntries handles false (fuel + 3)) depth
      (.flowEntry :: .key :: keyToken key :: .value :: (ts ++ ts')) n ((n, value) :: entries)
      (.scalar .text key :: (added ++ added')) (n :: (ends ++ ends')) := by
  intro rest nodes ended hn
  rw [flowEntries, List.cons_append, run_bind_of_ok run_sees]
  exact Takes.withEntries hts hvalue hadded hentries rest nodes ended hn

end

end

/-! ## flow collections -/

mutual

/-- A flow collection is composed from its tokens. -/
theorem takes_flow (handles : List (String × String)) (f : Flow) (block loose : Bool)
    (n depth fuel : Nat) (hdepth : depth + f.depth ≤ depthLimit)
    (hfuel : 2 * f.tokens.length ≤ fuel) :
    Takes (node handles block loose fuel) depth f.tokens n n (f.nodes n) (f.ends n) := by
  match f with
  | leaf l =>
    obtain ⟨fuel, rfl⟩ : ∃ n, fuel = n + 1 := ⟨fuel - 1, by simp [Flow.tokens] at hfuel; omega⟩
    exact takes_scalar _ _ l.scalar
  | list [] =>
    obtain ⟨fuel, rfl⟩ : ∃ n, fuel = n + 2 := ⟨fuel - 2, by simp [Flow.tokens] at hfuel; omega⟩
    simp only [Flow.depth, itemsDepth] at hdepth
    exact takes_itemsEnd.sequence _ _ (by omega)
  | list (item :: items) =>
    simp only [Flow.tokens, List.length_cons, List.length_append] at hfuel
    obtain ⟨fuel, rfl⟩ : ∃ n, fuel = n + 2 := ⟨fuel - 2, by omega⟩
    simp only [Flow.depth, itemsDepth] at hdepth
    have hitem := takes_flow handles item false false (n + 1) (depth + 1) fuel
      (by omega) (by omega)
    have hitems := takes_items handles items (n + 1 + item.size) (depth + 1) fuel
      (by omega) (by omega)
    exact (hitem.firstItem (startsValue_tokens item) (length_nodes item _) hitems).sequence
      _ _ (by omega)
  | map [] =>
    obtain ⟨fuel, rfl⟩ : ∃ n, fuel = n + 2 := ⟨fuel - 2, by simp [Flow.tokens] at hfuel; omega⟩
    simp only [Flow.depth, entriesDepth] at hdepth
    exact takes_entriesEnd.mapping _ _ (by omega)
  | map ((key, value) :: entries) =>
    simp only [Flow.tokens, List.length_cons, List.length_append] at hfuel
    obtain ⟨fuel, rfl⟩ : ∃ n, fuel = n + 4 := ⟨fuel - 4, by omega⟩
    simp only [Flow.depth, entriesDepth] at hdepth
    have hvalue := takes_flow handles value false false (n + 1 + 1) (depth + 1) fuel
      (by omega) (by omega)
    have hentries := takes_entries handles entries (n + 1 + 1 + value.size) (depth + 1) (fuel + 2)
      (by omega) (by omega)
    exact (hvalue.firstEntry (startsValue_tokens value) (length_nodes value _) hentries).mapping
      _ _ (by omega)

/-- Items after the first one are composed from their tokens. -/
theorem takes_items (handles : List (String × String)) (items : List Flow) (n depth fuel : Nat)
    (hdepth : depth + itemsDepth items ≤ depthLimit)
    (hfuel : 2 * (itemTokens items).length ≤ fuel) :
    Takes (flowItems handles false fuel) depth (itemTokens items) n (itemNumbers n items)
      (itemNodes n items) (itemEnds n items) := by
  match items with
  | [] =>
    obtain ⟨fuel, rfl⟩ : ∃ n, fuel = n + 1 := ⟨fuel - 1, by simp [itemTokens] at hfuel; omega⟩
    exact takes_itemsEnd
  | item :: items =>
    simp only [itemTokens, List.length_cons, List.length_append] at hfuel
    obtain ⟨fuel, rfl⟩ : ∃ n, fuel = n + 1 := ⟨fuel - 1, by omega⟩
    simp only [itemsDepth] at hdepth
    have hitem := takes_flow handles item false false n depth fuel (by omega) (by omega)
    have hitems := takes_items handles items (n + item.size) depth fuel (by omega) (by omega)
    exact hitem.nextItem (startsValue_tokens item) (length_nodes item _) hitems

/-- Entries after the first one are composed from their tokens. -/
theorem takes_entries (handles : List (String × String)) (entries : List (List Char × Flow))
    (n depth fuel : Nat) (hdepth : depth + entriesDepth entries ≤ depthLimit)
    (hfuel : 2 * (entryTokens entries).length ≤ fuel) :
    Takes (flowEntries handles false fuel) depth (entryTokens entries) n (entryNumbers n entries)
      (entryNodes n entries) (Flow.entryEnds n entries) := by
  match entries with
  | [] =>
    obtain ⟨fuel, rfl⟩ : ∃ n, fuel = n + 1 := ⟨fuel - 1, by simp [entryTokens] at hfuel; omega⟩
    exact takes_entriesEnd
  | (key, value) :: entries =>
    simp only [entryTokens, List.length_cons, List.length_append] at hfuel
    obtain ⟨fuel, rfl⟩ : ∃ n, fuel = n + 3 := ⟨fuel - 3, by omega⟩
    simp only [entriesDepth] at hdepth
    have hvalue := takes_flow handles value false false (n + 1) depth fuel (by omega) (by omega)
    have hentries := takes_entries handles entries (n + 1 + value.size) depth (fuel + 2)
      (by omega) (by omega)
    exact hvalue.nextEntry (startsValue_tokens value) (length_nodes value _) hentries

end

/-! ## documents -/

theorem directives_of_startsValue {t : Token} (ht : startsValue t = true) (ts : List Token) :
    directives false [] (t :: ts) = .ok ([], t :: ts) := by
  cases t <;> first | rfl | simp [startsValue] at ht

theorem run_root {t : Token} {ts : List Token} {nodes : List Node} {ended : List Nat} {depth : Nat}
    (handles : List (String × String)) (fuel : Nat) :
    (root handles false fuel).run (state (t :: ts) nodes ended depth) =
      (node handles true false fuel).run (state (t :: ts) nodes ended depth) := by
  rw [root, run_bind_of_ok run_peek]
  rfl

theorem run_ending {nodes : List Node} {ended : List Nat} {depth : Nat} :
    ending.run (state [] nodes ended depth) = .ok ((), state [] nodes ended depth) := rfl

theorem run_single? (f : Flow) (hdepth : f.depth ≤ depthLimit) :
    single?.run (state f.tokens [] [] 0) =
      .ok (some { nodes := (f.nodes 0).toArray, ends := f.ends 0, root := 0 },
        state [] (f.nodes 0) (f.ends 0).reverse 0) := by
  have hnode := takes_flow handles f true false 0 0 (4 * (f.tokens.length + 2)) (by omega)
    (by omega) [] [] [] rfl
  obtain ⟨t, ts, ht, hstarts⟩ := startsValue_tokens f
  have hexplicit : (t :: ts).head? ≠ some Token.documentStart := by
    cases t <;> simp [startsValue] at hstarts <;> simp
  simp only [List.append_nil, List.nil_append] at hnode
  rw [ht] at hnode ⊢
  rw [single?, run_bind_of_ok (a := state (t :: ts) [] [] 0) rfl]
  dsimp only [state]
  rw [directives_of_startsValue hstarts,
    run_bind_of_ok (a := ([], t :: ts)) (t := state (t :: ts) [] [] 0) rfl,
    run_bind_of_ok (a := ()) (t := state (t :: ts) [] [] 0) rfl, run_bind_of_ok run_peek,
    if_neg (by simp), if_neg (by simp), if_neg hexplicit, decide_eq_false hexplicit,
    List.nil_append, run_bind_of_ok ((run_root handles _).trans hnode), run_bind_of_ok run_ending,
    run_bind_of_ok (a := state [] (f.nodes 0) (f.ends 0).reverse 0) rfl]
  simp only [state, List.reverse_reverse]
  rfl

/-- The document of a flow collection. -/
theorem ofTokens?_flow (f : Flow) (hdepth : f.depth ≤ depthLimit) :
    ofTokens? ⟨f.tokens, none⟩ =
      .ok (some { nodes := (f.nodes 0).toArray, ends := f.ends 0, root := 0 }) := by
  have h := run_single? f hdepth
  unfold ofTokens?
  rw [show ({ tokens := ⟨f.tokens, none⟩ } : Composer) = state f.tokens [] [] 0 from rfl, h]
  rfl

end Storyboard.Yaml.Document.Compose
