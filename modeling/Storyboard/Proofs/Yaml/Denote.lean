import Storyboard.Proofs.Yaml.Flow
import Storyboard.Proofs.Yaml.Make

/-!
# Storyboard.Proofs.Yaml.Denote

The document of a flow collection denotes its value.  The nodes of each part of the
collection stand next to each other (`Held`); so what holds of a part is shown by the
recursion of flow collections, wherever the part stands.

* `Held.sound`, `Held.made` — every node is sound, and needed by the root;
* `Held.value` — the values that are put together end with that of the part;
* `value_document` — the value of the document.
-/

namespace Storyboard.Yaml

open Storyboard.Yaml.Node Nodes

namespace Flow

/-! ## the nodes of a flow collection -/

/-- The nodes from a number on. -/
def Held (nodes : Nodes) (n : Nat) (part : List Node) : Prop := part <+: nodes.toList.drop n

theorem Held.append {nodes : Nodes} {n : Nat} {a b : List Node} (h : Held nodes n (a ++ b)) :
    Held nodes n a ∧ Held nodes (n + a.length) b := by
  obtain ⟨rest, hrest⟩ := h
  refine ⟨⟨b ++ rest, by rw [← hrest, List.append_assoc]⟩, rest, ?_⟩
  rw [← List.drop_drop, ← hrest, List.append_assoc, List.drop_left]

theorem Held.cons {nodes : Nodes} {n : Nat} {node : Node} {part : List Node}
    (h : Held nodes n (node :: part)) :
    n < nodes.size ∧ nodes.node n = node ∧ Held nodes (n + 1) part := by
  obtain ⟨rest, hrest⟩ := id h
  have hget : nodes.toList[n]? = some node := by
    rw [← List.head?_drop, ← hrest]
    rfl
  refine ⟨?_, ?_, (Held.append (a := [node]) h).2⟩
  · have := (List.getElem?_eq_some_iff.1 hget).1
    simpa using this
  · rw [Nodes.node, Array.getD_eq_getD_getElem?, ← Array.getElem?_toList, hget]
    rfl

theorem Held.le {nodes : Nodes} {n : Nat} {part : List Node} (h : Held nodes n part)
    (hpart : part ≠ []) : n + part.length ≤ nodes.size := by
  have hle := List.IsPrefix.length_le h
  rw [List.length_drop, show nodes.toList.length = nodes.size from Array.length_toList] at hle
  have := List.length_pos_iff.2 hpart
  omega

theorem size_pos (f : Flow) : 0 < f.size := by
  cases f <;> simp only [size] <;> omega

theorem mem_itemNumbers {items : List Flow} {n i : Nat} (h : i ∈ itemNumbers n items) :
    n ≤ i ∧ i < n + itemsSize items := by
  induction items generalizing n with
  | nil => simp [itemNumbers] at h
  | cons item items ih =>
    have := item.size_pos
    simp only [itemNumbers, List.mem_cons] at h
    simp only [itemsSize]
    obtain rfl | h := h
    · omega
    · have := ih h
      omega

theorem mem_entryNumbers {entries : List (List Char × Flow)} {n : Nat} {e : Nat × Nat}
    (h : e ∈ entryNumbers n entries) :
    n ≤ e.1 ∧ e.2 = e.1 + 1 ∧ e.2 < n + entriesSize entries := by
  induction entries generalizing n with
  | nil => simp [entryNumbers] at h
  | cons entry entries ih =>
    obtain ⟨key, value⟩ := entry
    have := value.size_pos
    simp only [entryNumbers, List.mem_cons] at h
    simp only [entriesSize]
    obtain rfl | h := h
    · dsimp only
      omega
    · have := ih h
      omega

/-- The keys of a mapping are texts. -/
theorem Held.key {nodes : Nodes} {entries : List (List Char × Flow)} {n : Nat}
    (h : Held nodes n (entryNodes n entries)) {e : Nat × Nat} (he : e ∈ entryNumbers n entries) :
    ∃ text, nodes.node e.1 = .scalar .text text := by
  induction entries generalizing n with
  | nil => simp [entryNumbers] at he
  | cons entry entries ih =>
    obtain ⟨key, value⟩ := entry
    obtain ⟨-, hkey, hrest⟩ := Held.cons h
    simp only [entryNumbers, List.mem_cons] at he
    obtain rfl | he := he
    · exact ⟨key, hkey⟩
    · have hrest := hrest.append.2
      rw [length_nodes] at hrest
      exact ih hrest he

mutual

/-- Every node of a flow collection is sound. -/
theorem Held.sound {nodes : Nodes} (f : Flow) {n : Nat} (h : Held nodes n (f.nodes n)) {m : Nat}
    (hm : n ≤ m ∧ m < n + f.size) : Sound nodes m := by
  have hsize : n + f.size ≤ nodes.size := by
    have := h.le (by rw [← List.length_pos_iff, length_nodes]; exact f.size_pos)
    rwa [length_nodes] at this
  match f with
  | leaf l =>
    obtain ⟨-, hnode, -⟩ := Held.cons h
    obtain rfl : m = n := by simp only [size] at hm; omega
    unfold Sound
    rw [hnode]
    exact ⟨by simp [Leaf.node, Nodes.inner], _, l.read_eq⟩
  | list items =>
    obtain ⟨-, hnode, hitems⟩ := Held.cons h
    obtain rfl | hlater : m = n ∨ n + 1 ≤ m := by omega
    · unfold Sound
      rw [hnode]
      refine ⟨fun i hi => ?_, rfl⟩
      have := mem_itemNumbers hi
      simp only [size] at hsize
      omega
    · exact Held.soundItems items hitems ⟨hlater, by simp only [size] at hm; omega⟩
  | map entries =>
    obtain ⟨-, hnode, hentries⟩ := Held.cons h
    obtain rfl | hlater : m = n ∨ n + 1 ≤ m := by omega
    · unfold Sound
      rw [hnode]
      refine ⟨fun i hi => ?_, rfl, fun e he => hentries.key he⟩
      obtain ⟨e, he, hi⟩ := List.mem_flatMap.1 hi
      have := mem_entryNumbers he
      simp only [size] at hsize
      simp only [List.mem_cons, List.not_mem_nil, or_false] at hi
      omega
    · exact Held.soundEntries entries hentries ⟨hlater, by simp only [size] at hm; omega⟩

theorem Held.soundItems {nodes : Nodes} (items : List Flow) {n : Nat}
    (h : Held nodes n (itemNodes n items)) {m : Nat} (hm : n ≤ m ∧ m < n + itemsSize items) :
    Sound nodes m := by
  match items with
  | [] => simp only [itemsSize] at hm; omega
  | item :: items =>
    obtain ⟨hitem, hitems⟩ := Held.append h
    rw [length_nodes] at hitems
    simp only [itemsSize] at hm
    obtain hm | hm : m < n + item.size ∨ n + item.size ≤ m := by omega
    · exact Held.sound item hitem (by omega)
    · exact Held.soundItems items hitems (by omega)

theorem Held.soundEntries {nodes : Nodes} (entries : List (List Char × Flow)) {n : Nat}
    (h : Held nodes n (entryNodes n entries)) {m : Nat} (hm : n ≤ m ∧ m < n + entriesSize entries) :
    Sound nodes m := by
  match entries with
  | [] => simp only [entriesSize] at hm; omega
  | (key, value) :: entries =>
    obtain ⟨-, hkey, hrest⟩ := Held.cons h
    obtain ⟨hvalue, hentries⟩ := hrest.append
    rw [length_nodes] at hentries
    simp only [entriesSize] at hm
    obtain rfl | hm | hm : m = n ∨ n + 1 ≤ m ∧ m < n + 1 + value.size ∨ n + 1 + value.size ≤ m := by
      omega
    · unfold Sound
      rw [hkey]
      exact ⟨by simp [Nodes.inner], _, rfl⟩
    · exact Held.sound value hvalue hm
    · exact Held.soundEntries entries hentries (by omega)

end

mutual

/-- If a node is made, and with each node what is inside it, all of it is made. -/
theorem Held.made {nodes : Nodes} {made : Nat → Prop}
    (hmade : ∀ n, made n → ∀ i ∈ inner (nodes.node n), made i) (f : Flow) {n : Nat}
    (h : Held nodes n (f.nodes n)) (hn : made n) {m : Nat} (hm : n ≤ m ∧ m < n + f.size) :
    made m := by
  obtain rfl | hlater : m = n ∨ n + 1 ≤ m := by omega
  · exact hn
  match f with
  | leaf l => simp only [size] at hm; omega
  | list items =>
    obtain ⟨-, hnode, hitems⟩ := Held.cons h
    refine Held.madeItems hmade items hitems (fun i hi => hmade n hn i ?_)
      ⟨hlater, by simp only [size] at hm; omega⟩
    rw [hnode]
    exact hi
  | map entries =>
    obtain ⟨-, hnode, hentries⟩ := Held.cons h
    refine Held.madeEntries hmade entries hentries (fun e he => ?_)
      ⟨hlater, by simp only [size] at hm; omega⟩
    have hmem : ∀ i ∈ [e.1, e.2], made i := fun i hi =>
      hmade n hn i (by rw [hnode]; exact List.mem_flatMap.2 ⟨e, he, hi⟩)
    exact ⟨hmem _ (by simp), hmem _ (by simp)⟩

theorem Held.madeItems {nodes : Nodes} {made : Nat → Prop}
    (hmade : ∀ n, made n → ∀ i ∈ inner (nodes.node n), made i) (items : List Flow) {n : Nat}
    (h : Held nodes n (itemNodes n items)) (hitems : ∀ i ∈ itemNumbers n items, made i) {m : Nat}
    (hm : n ≤ m ∧ m < n + itemsSize items) : made m := by
  match items with
  | [] => simp only [itemsSize] at hm; omega
  | item :: items =>
    obtain ⟨hitem, hrest⟩ := Held.append h
    rw [length_nodes] at hrest
    simp only [itemsSize] at hm
    obtain hm | hm : m < n + item.size ∨ n + item.size ≤ m := by omega
    · exact Held.made hmade item hitem (hitems n (by simp [itemNumbers])) (by omega)
    · exact Held.madeItems hmade items hrest
        (fun i hi => hitems i (by simp [itemNumbers, hi])) (by omega)

theorem Held.madeEntries {nodes : Nodes} {made : Nat → Prop}
    (hmade : ∀ n, made n → ∀ i ∈ inner (nodes.node n), made i)
    (entries : List (List Char × Flow)) {n : Nat} (h : Held nodes n (entryNodes n entries))
    (hentries : ∀ e ∈ entryNumbers n entries, made e.1 ∧ made e.2) {m : Nat}
    (hm : n ≤ m ∧ m < n + entriesSize entries) : made m := by
  match entries with
  | [] => simp only [entriesSize] at hm; omega
  | (key, value) :: entries =>
    obtain ⟨-, -, hrest⟩ := Held.cons h
    obtain ⟨hvalue, hmore⟩ := hrest.append
    rw [length_nodes] at hmore
    simp only [entriesSize] at hm
    have hfirst := hentries (n, n + 1) (by simp [entryNumbers])
    obtain rfl | hm | hm : m = n ∨ n + 1 ≤ m ∧ m < n + 1 + value.size ∨ n + 1 + value.size ≤ m := by
      omega
    · exact hfirst.1
    · exact Held.made hmade value hvalue hfirst.2 hm
    · exact Held.madeEntries hmade entries hmore
        (fun e he => hentries e (by simp [entryNumbers, he])) (by omega)

end

/-! ## the value of a flow collection -/

/-- The values with that of one more node. -/
def addValue (contents : Contents) (values : Array (Option Value)) (n : Nat) :
    Array (Option Value) :=
  let v := assemble contents values (contents.getD n none)
  if isComplete v then values.setIfInBounds n (some v) else values

theorem refer_congr {contents : Contents} {values values' : Array (Option Value)} {n : Nat}
    (h : values.getD n none = values'.getD n none) :
    refer contents values n = refer contents values' n := by
  unfold refer
  rw [h]

theorem getD_addValue {contents : Contents} {values : Array (Option Value)} {n : Nat} {v : Value}
    (hv : assemble contents values (contents.getD n none) = v) (hcomplete : isComplete v = true)
    (hn : n < values.size) (m : Nat) :
    (addValue contents values n).getD m none = if m = n then some v else values.getD m none := by
  unfold addValue
  dsimp only
  rw [hv, if_pos hcomplete, Array.getD_eq_getD_getElem?, Array.getElem?_setIfInBounds]
  by_cases h : m = n
  · rw [if_pos h.symm, if_pos h, if_pos (h ▸ hn)]
    rfl
  · rw [if_neg (Ne.symm h), if_neg h, Array.getD_eq_getD_getElem?]

theorem size_addValue (contents : Contents) (values : Array (Option Value)) (n : Nat) :
    (addValue contents values n).size = values.size := by
  unfold addValue
  dsimp only
  split
  · exact Array.size_setIfInBounds
  · rfl

theorem size_foldl_addValue (contents : Contents) (values : Array (Option Value)) (ns : List Nat) :
    (ns.foldl (addValue contents) values).size = values.size := by
  induction ns generalizing values with
  | nil => rfl
  | cons n ns ih => rw [List.foldl_cons, ih, size_addValue]

theorem isAgain_value (f : Flow) : isAgain f.value = false := by
  cases f with
  | leaf l => exact (isComplete_of_read l.read_eq).2
  | list items => rfl
  | map entries => rfl

theorem isComplete_itemValues (items : List Flow) :
    isComplete (.list (itemValues items)) = true := by
  induction items with
  | nil => rfl
  | cons item items ih => simpa [isComplete, itemValues, isAgain_value] using ih

theorem isAgain_of_mem_insert {key v : Value} {es : Entries} (hv : isAgain v = false)
    (hes : ∀ e ∈ es, isAgain e.2 = false) : ∀ e ∈ Entries.insert key v es, isAgain e.2 = false := by
  induction es with
  | nil => simpa [Entries.insert] using hv
  | cons e es ih =>
    simp only [List.forall_mem_cons] at hes
    unfold Entries.insert
    split
    · simpa [hv] using hes.2
    · simpa [hes.1] using ih hes.2

theorem isComplete_entryValues (entries : List (List Char × Flow)) :
    isComplete (.map (insertAll (entryValues entries))) = true := by
  have hall (es : Entries) (hes : ∀ e ∈ es, isAgain e.2 = false) :
      ∀ e ∈ (entryValues entries).foldl (fun es e => Entries.insert e.1 e.2 es) es,
        isAgain e.2 = false := by
    induction entries generalizing es with
    | nil => exact hes
    | cons entry entries ih =>
      obtain ⟨key, value⟩ := entry
      rw [entryValues, List.foldl_cons]
      exact ih _ (isAgain_of_mem_insert (isAgain_value value) hes)
  have hnone : (insertAll (entryValues entries)).any (fun e => isAgain e.2) = false :=
    List.any_eq_false.2 fun e he => by simp [hall [] (by simp) e he]
  simp [isComplete, hnone]

/-- The values after those of some nodes: the same outside of them. -/
def SameOutside (n size : Nat) (values values' : Array (Option Value)) : Prop :=
  ∀ m, m < n ∨ n + size ≤ m → values'.getD m none = values.getD m none

variable {nodes : Nodes} {contents : Contents}

section

variable {values values' : Array (Option Value)} {n size : Nat} {v : Value}

theorem SameOutside.refl (n size : Nat) (values : Array (Option Value)) :
    SameOutside n size values values := fun _ _ => rfl

/-- A node whose value is put together from those of the nodes after it. -/
theorem SameOutside.addValue (h : SameOutside (n + 1) size values values')
    (hv : assemble contents values' (contents.getD n none) = v) (hcomplete : isComplete v = true)
    (hn : n < values'.size) : SameOutside n (1 + size) values (addValue contents values' n) := by
  intro m hm
  rw [getD_addValue hv hcomplete hn, if_neg (by omega), h m (by omega)]

theorem refer_leaf (h : contents.getD n none = some (.leaf v)) : refer contents values n = v := by
  rw [refer, h]

theorem refer_list {items : List Nat} (h : contents.getD n none = some (.list items))
    (hv : values.getD n none = some v) : refer contents values n = v := by
  simp only [refer, h, hv, Option.getD_some]

theorem refer_map {entries : List (Value × Nat)} (h : contents.getD n none = some (.map entries))
    (hv : values.getD n none = some v) : refer contents values n = v := by
  simp only [refer, h, hv, Option.getD_some]

end

mutual

/-- The values of the nodes of a flow collection end with its own. -/
theorem Held.value (f : Flow) {n : Nat} (h : Held nodes n (f.nodes n))
    (hcontents : ∀ m, n ≤ m ∧ m < n + f.size →
      contents.getD m none = some (content nodes (nodes.node m)))
    {values : Array (Option Value)} (hsize : values.size = nodes.size) :
    refer contents ((f.ends n).foldl (addValue contents) values) n = f.value ∧
      SameOutside n f.size values ((f.ends n).foldl (addValue contents) values) := by
  have hpos := f.size_pos
  have hcontent := hcontents n (by omega)
  match f with
  | leaf l =>
    obtain ⟨hn, hnode, -⟩ := Held.cons h
    have hleaf : contents.getD n none = some (.leaf l.value) := by
      rw [hcontent, hnode, Leaf.node, content, Leaf.kind, l.read_eq]
      rfl
    have hassemble : assemble contents values (contents.getD n none) = l.value := by
      rw [hleaf]
      rfl
    exact ⟨refer_leaf hleaf, (SameOutside.refl (n + 1) 0 values).addValue hassemble
      (isComplete_of_read l.read_eq).1 (by omega)⟩
  | list items =>
    obtain ⟨hn, hnode, hitems⟩ := Held.cons h
    have hlist : contents.getD n none = some (.list (itemNumbers (n + 1) items)) := by
      rw [hcontent, hnode]
      rfl
    obtain ⟨hvalues, hsame⟩ := Held.itemValues items hitems
      (fun m hm => hcontents m (by simp only [size]; omega)) hsize
    have hassemble : assemble contents ((itemEnds (n + 1) items).foldl (addValue contents) values)
        (contents.getD n none) = (list items).value := by
      rw [hlist, assemble, hvalues]
      rfl
    have hcomplete : isComplete (list items).value = true := isComplete_itemValues items
    have hn' : n < ((itemEnds (n + 1) items).foldl (addValue contents) values).size := by
      rw [size_foldl_addValue]
      omega
    simp only [ends, List.foldl_append, List.foldl_cons, List.foldl_nil]
    exact ⟨refer_list hlist ((getD_addValue hassemble hcomplete hn' n).trans (if_pos rfl)),
      hsame.addValue hassemble hcomplete hn'⟩
  | map entries =>
    obtain ⟨hn, hnode, hentries⟩ := Held.cons h
    have hmap : contents.getD n none =
        some (.map ((entryNumbers (n + 1) entries).map fun e => (nodes.keyValue e.1, e.2))) := by
      rw [hcontent, hnode]
      rfl
    obtain ⟨hvalues, hsame⟩ := Held.entryValues entries hentries
      (fun m hm => hcontents m (by simp only [size]; omega)) hsize
    have hassemble : assemble contents
        ((entryEnds (n + 1) entries).foldl (addValue contents) values)
        (contents.getD n none) = (map entries).value := by
      rw [hmap, assemble, List.map_map]
      exact congrArg (fun es => Value.map (insertAll es)) hvalues
    have hcomplete : isComplete (map entries).value = true := isComplete_entryValues entries
    have hn' : n < ((entryEnds (n + 1) entries).foldl (addValue contents) values).size := by
      rw [size_foldl_addValue]
      omega
    simp only [ends, List.foldl_append, List.foldl_cons, List.foldl_nil]
    exact ⟨refer_map hmap ((getD_addValue hassemble hcomplete hn' n).trans (if_pos rfl)),
      hsame.addValue hassemble hcomplete hn'⟩

theorem Held.itemValues (items : List Flow) {n : Nat} (h : Held nodes n (itemNodes n items))
    (hcontents : ∀ m, n ≤ m ∧ m < n + itemsSize items →
      contents.getD m none = some (content nodes (nodes.node m)))
    {values : Array (Option Value)} (hsize : values.size = nodes.size) :
    (itemNumbers n items).map
        (refer contents ((itemEnds n items).foldl (addValue contents) values)) =
        Flow.itemValues items ∧
      SameOutside n (itemsSize items) values
        ((itemEnds n items).foldl (addValue contents) values) := by
  match items with
  | [] => exact ⟨rfl, fun _ _ => rfl⟩
  | item :: items =>
    obtain ⟨hitem, hrest⟩ := Held.append h
    rw [length_nodes] at hrest
    simp only [itemsSize] at hcontents
    obtain ⟨hvalue, hsame⟩ := Held.value item hitem (fun m hm => hcontents m (by omega)) hsize
    have hsize' : ((item.ends n).foldl (addValue contents) values).size = nodes.size := by
      rw [size_foldl_addValue, hsize]
    obtain ⟨hvalues, hsame'⟩ := Held.itemValues items hrest (fun m hm => hcontents m (by omega))
      hsize'
    have hpos := item.size_pos
    simp only [itemNumbers, itemEnds, List.foldl_append, List.map_cons, Flow.itemValues, itemsSize]
    refine ⟨?_, fun m hm => ?_⟩
    · rw [hvalues, refer_congr (hsame' n (by omega)), hvalue]
    · rw [hsame' m (by omega), hsame m (by omega)]

theorem Held.entryValues (entries : List (List Char × Flow)) {n : Nat}
    (h : Held nodes n (entryNodes n entries))
    (hcontents : ∀ m, n ≤ m ∧ m < n + entriesSize entries →
      contents.getD m none = some (content nodes (nodes.node m)))
    {values : Array (Option Value)} (hsize : values.size = nodes.size) :
    (entryNumbers n entries).map (fun e => (nodes.keyValue e.1,
        refer contents ((entryEnds n entries).foldl (addValue contents) values) e.2)) =
        Flow.entryValues entries ∧
      SameOutside n (entriesSize entries) values
        ((entryEnds n entries).foldl (addValue contents) values) := by
  match entries with
  | [] => exact ⟨rfl, fun _ _ => rfl⟩
  | (key, value) :: entries =>
    obtain ⟨hn, hkey, hrest⟩ := Held.cons h
    obtain ⟨hheld, hmore⟩ := hrest.append
    rw [length_nodes] at hmore
    simp only [entriesSize] at hcontents
    have hpos := value.size_pos
    have hleaf : contents.getD n none = some (.leaf (.text (String.ofList key))) := by
      rw [hcontents n (by omega), hkey]
      rfl
    have hassemble : assemble contents values (contents.getD n none) =
        .text (String.ofList key) := by
      rw [hleaf]
      rfl
    have hget := getD_addValue hassemble rfl (by omega)
    have hsize' : (addValue contents values n).size = nodes.size := by rw [size_addValue, hsize]
    have hsize'' : ((value.ends (n + 1)).foldl (addValue contents)
        (addValue contents values n)).size = nodes.size := by
      rw [size_foldl_addValue, hsize']
    obtain ⟨hvalue, hsame⟩ := Held.value value hheld (fun m hm => hcontents m (by omega)) hsize'
    obtain ⟨hvalues, hsame'⟩ := Held.entryValues entries hmore (fun m hm => hcontents m (by omega))
      hsize''
    simp only [entryNumbers, entryEnds, List.foldl_cons, List.foldl_append, List.map_cons,
      Flow.entryValues, entriesSize]
    refine ⟨?_, fun m hm => ?_⟩
    · rw [hvalues, refer_congr (hsame' (n + 1) (by omega)), hvalue, keyValue, hkey]
    · rw [hsame' m (by omega), hsame m (by omega), hget, if_neg (by omega)]

end

/-- The document of a flow collection denotes its value. -/
theorem value_document (f : Flow) :
    ({ nodes := (f.nodes 0).toArray, ends := f.ends 0, root := 0 } : Document).value =
      .ok f.value := by
  let d : Document := { nodes := (f.nodes 0).toArray, ends := f.ends 0, root := 0 }
  change d.value = _
  have hheld : Held d.nodes 0 (f.nodes 0) := by
    simp [Held, d]
  have hsize : d.nodes.size = f.size := by
    simp [d, length_nodes]
  have hpos := f.size_pos
  obtain ⟨contents, hcontents, hcsize, hright, hroot⟩ := Document.contents_eq_ok (d := d)
    (fun m hm => hheld.sound f ⟨Nat.zero_le m, by omega⟩) (by rw [hsize]; exact hpos)
  have hall : ∀ m, 0 ≤ m ∧ m < 0 + f.size →
      contents.getD m none = some (content d.nodes (Nodes.node d.nodes m)) := by
    intro m hm
    have hinner : ∀ n, (∃ c, contents.getD n none = some c) →
        ∀ i ∈ inner (Nodes.node d.nodes n), ∃ c, contents.getD i none = some c :=
      fun n ⟨c, hc⟩ => (hright n c hc).2
    obtain ⟨c, hc⟩ := Held.made hinner f hheld hroot hm
    rw [hc, (hright m c hc).1]
  have hvalues : (Array.replicate contents.size none : Array (Option Value)).size =
      d.nodes.size := by
    rw [Array.size_replicate, hcsize]
  obtain ⟨hvalue, -⟩ := Held.value f hheld hall hvalues
  exact Document.value_of_refer hcontents hvalue (isAgain_value f)

end Flow

end Storyboard.Yaml
