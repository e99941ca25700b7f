import Storyboard.Graph.Basic
import Storyboard.Proofs.Graph.Harmless
import Storyboard.Proofs.Graph.Label

/-!
# Storyboard.Proofs.Graph.Statement

The text of a graph, read as the engine reads it.  Where nothing protects them, a semicolon
ends a statement (a line end after it is skipped), a comma ends a filter, and brackets hold
the names of pads, which may stand only before the first and after the last filter of a
statement.  The pieces are kept as they are written, with their protection.

* `readStatements_text` — a graph whose filters hold no bare separator is read back.
-/

namespace Storyboard

open Number

namespace Graph

/-! ## the reader -/

/-- A statement as it is read: the names of its pads, and its filters as written. -/
structure Statement where
  inputs : List String
  filters : List String
  outputs : List String
  deriving DecidableEq, Repr

/-- The text of marks. -/
def rawText (ms : List Mark) : String := String.ofList (raw ms)

/-- The names of the pads that marks start with, and the marks after them.  The first argument
is what has been read of a name, if one is open; a name that is not closed cannot be read. -/
def readPads : Option (List Mark) → List Mark → Option (List String × List Mark)
  | none, [] => some ([], [])
  | some _, [] => none
  | none, m :: ms => if m = bare '[' then readPads (some []) ms else some ([], m :: ms)
  | some name, m :: ms =>
    if m = bare ']' then (readPads none ms).map fun (pads, left) => (rawText name :: pads, left)
    else readPads (some (name ++ [m])) ms

/-- The filters of marks without pads; no bracket may be left. -/
def readFilters (ms : List Mark) : Option (List String) :=
  if bare ']' ∈ ms then none else some ((ms.splitOn (bare ',')).map rawText)

/-- One statement: pads, filters, pads. -/
def readStatement (ms : List Mark) : Option Statement := do
  let (inputs, ms) ← readPads none ms
  let filters ← readFilters (ms.takeWhile (· ≠ bare '['))
  let (outputs, left) ← readPads none (ms.dropWhile (· ≠ bare '['))
  if left = [] then some ⟨inputs, filters, outputs⟩ else none

/-- The marks after a line end at the start. -/
def skipLineEnd : List Mark → List Mark
  | [] => []
  | m :: ms => if m.char = '\n' then ms else m :: ms

/-- The pieces between bare semicolons; a line end after a semicolon belongs to no piece. -/
def pieces (ms : List Mark) : List (List Mark) :=
  match ms.splitOn (bare ';') with
  | [] => []
  | first :: rest => first :: rest.map skipLineEnd

/-- All statements of a text. -/
def readStatements (text : String) : Option (List Statement) :=
  (pieces (scan .plain text.toList)).mapM readStatement

end Graph

/-- A statement as its reader should see it. -/
def Node.statement (n : Node) : Graph.Statement :=
  ⟨n.inputs.map Pad.label, n.filters.map Filter.text, [n.output.label]⟩

namespace Graph

variable {cs ds : List Char} {ms p q left : List Mark} {c : Char}

/-! ## what is written is read -/

/-- The marks of a pad with a harmless label. -/
def padMarks (label : String) : List Mark :=
  bare '[' :: (label.toList.map bare ++ [bare ']'])

/-- A name is read up to its bracket. -/
theorem readPads_name (h : Harmless cs) :
    readPads (some p) (cs.map bare ++ bare ']' :: ms)
      = (readPads none ms).map fun (pads, left) => (rawText (p ++ cs.map bare) :: pads, left) := by
  induction cs generalizing p with
  | nil => simp [readPads]
  | cons c cs ih =>
    obtain ⟨hc, hcs⟩ := List.forall_mem_cons.1 h
    have hne : bare c ≠ bare ']' := by
      intro heq
      obtain rfl : c = ']' := congrArg Mark.char heq
      exact absurd hc (by decide)
    rw [List.map_cons, List.cons_append, readPads, if_neg hne, ih hcs, List.append_assoc,
      List.singleton_append]

/-- Pads are read one after another, up to something that is no pad. -/
theorem readPads_padMarks {labels : List String} (hlabels : ∀ l ∈ labels, Harmless l.toList)
    (hms : ms.head? ≠ some (bare '[')) :
    readPads none ((labels.map padMarks).flatten ++ ms) = some (labels, ms) := by
  induction labels with
  | nil =>
    cases ms with
    | nil => rfl
    | cons m ms =>
      have hm : m ≠ bare '[' := by simpa using hms
      rw [List.map_nil, List.flatten_nil, List.nil_append, readPads, if_neg hm]
  | cons l labels ih =>
    obtain ⟨hl, hlabels⟩ := List.forall_mem_cons.1 hlabels
    have hname : rawText ([] ++ l.toList.map bare) = l := by
      have hraw : raw (l.toList.map bare) = l.toList := by
        rw [raw, List.map_map]
        exact List.map_id _
      rw [List.nil_append, rawText, hraw, String.ofList_toList]
    rw [List.map_cons, List.flatten_cons, padMarks, List.append_assoc, List.cons_append, readPads,
      if_pos rfl, List.append_assoc, List.singleton_append, readPads_name hl, ih hlabels, hname]
    rfl

/-- The marks of a chain of filters. -/
def chainMarks (filters : List String) : List Mark :=
  [bare ','].intercalate (filters.map fun t => scan .plain t.toList)

/-- The only separators that stand bare between whole filters are commas. -/
theorem bare_notMem_chainMarks {filters : List String} (h : ∀ t ∈ filters, IsWhole t.toList)
    (hc : c ∈ separators) (hcomma : c ≠ ',') : bare c ∉ chainMarks filters := by
  intro hmem
  rcases mem_of_mem_intercalate hmem with hmem | ⟨l, hl, hmem⟩
  · exact hcomma (congrArg Mark.char (List.mem_singleton.1 hmem))
  · obtain ⟨t, ht, rfl⟩ := List.mem_map.1 hl
    exact h t ht c hc hmem

/-- A chain of whole filters is split at its commas. -/
theorem readFilters_chainMarks {filters : List String} (hne : filters ≠ [])
    (h : ∀ t ∈ filters, IsWhole t.toList) : readFilters (chainMarks filters) = some filters := by
  have hsplit : (chainMarks filters).splitOn (bare ',')
      = filters.map fun t => scan .plain t.toList := by
    refine List.splitOn_intercalate _ ?_ (by simpa using hne)
    intro l hl
    obtain ⟨t, ht, rfl⟩ := List.mem_map.1 hl
    exact h t ht ',' (by decide)
  have hraw : (filters.map fun t => scan .plain t.toList).map rawText = filters := by
    simp [rawText, Function.comp_def]
  rw [readFilters, if_neg (bare_notMem_chainMarks h (by decide) (by decide)), hsplit, hraw]

/-- The marks of a statement. -/
def nodeMarks (st : Statement) : List Mark :=
  (st.inputs.map padMarks).flatten ++ (chainMarks st.filters
    ++ (st.outputs.map padMarks).flatten)

/-- A statement whose filters are whole is read back. -/
theorem readStatement_nodeMarks {st : Statement} (hinputs : ∀ l ∈ st.inputs, Harmless l.toList)
    (houtputs : ∀ l ∈ st.outputs, Harmless l.toList) (hout : st.outputs ≠ [])
    (hfilters : ∀ t ∈ st.filters, IsWhole t.toList) (hchain : chainMarks st.filters ≠ []) :
    readStatement (nodeMarks st) = some st := by
  have hopen : bare '[' ∉ chainMarks st.filters :=
    bare_notMem_chainMarks hfilters (by decide) (by decide)
  have hall : ∀ m ∈ chainMarks st.filters, (decide (m ≠ bare '[')) = true := by
    intro m hm
    simpa using fun heq : m = bare '[' => hopen (heq ▸ hm)
  obtain ⟨label, labels, houtputs_eq⟩ := List.exists_cons_of_ne_nil hout
  obtain ⟨tail, htail⟩ : ∃ tail, (st.outputs.map padMarks).flatten = bare '[' :: tail := by
    rw [houtputs_eq]
    exact ⟨_, rfl⟩
  have hhead : (chainMarks st.filters ++ (st.outputs.map padMarks).flatten).head?
      ≠ some (bare '[') := by
    obtain ⟨m, ms, hms⟩ := List.exists_cons_of_ne_nil hchain
    rw [hms, List.cons_append, List.head?_cons]
    intro heq
    exact hopen (by rw [hms, Option.some.inj heq]; exact List.mem_cons_self)
  have hne : st.filters ≠ [] := by
    intro hnil
    rw [hnil] at hchain
    exact hchain rfl
  have hbody : (chainMarks st.filters ++ (st.outputs.map padMarks).flatten).takeWhile
      (· ≠ bare '[') = chainMarks st.filters := by
    rw [htail, List.takeWhile_append_of_pos hall, List.takeWhile_cons_of_neg (by simp),
      List.append_nil]
  have hrest : (chainMarks st.filters ++ (st.outputs.map padMarks).flatten).dropWhile
      (· ≠ bare '[') = (st.outputs.map padMarks).flatten := by
    rw [htail, List.dropWhile_append_of_pos hall, List.dropWhile_cons_of_neg (by simp)]
  have hpads : readPads none (st.outputs.map padMarks).flatten = some (st.outputs, []) := by
    have hread : readPads none ((st.outputs.map padMarks).flatten ++ []) = some (st.outputs, []) :=
      readPads_padMarks houtputs (by simp)
    rwa [List.append_nil] at hread
  rw [readStatement, nodeMarks, readPads_padMarks hinputs hhead]
  simp only [Option.bind_eq_bind, Option.bind_some, hbody, hrest, hpads,
    readFilters_chainMarks hne hfilters, if_true]

/-! ## the marks of a graph -/

/-- The label of a pad of a compiled graph is harmless. -/
theorem harmless_label {p : Pad} (hp : p.kind?.isSome = true) : Harmless p.label.toList := by
  have hrepr (i : Int) : Harmless i.repr.toList := by
    intro c hc
    exact isHarmless_of_class (inInteger_of_mem_repr hc) (by decide)
  cases p with
  | input k stream =>
    cases stream <;> simp only [Pad.label, String.toList_append] <;>
      exact ((hrepr k).append (by decide)).append (by decide)
  | background i =>
    simp only [Pad.label, String.toList_append]
    exact (Harmless.append (by decide) (hrepr i)).append (by decide)
  | layer i j | media i j =>
    simp only [Pad.label, String.toList_append]
    exact ((Harmless.append (by decide) (hrepr i)).append (by decide)).append (hrepr j)
  | transition i | track i =>
    simp only [Pad.label, String.toList_append]
    exact Harmless.append (by decide) (hrepr i)
  | mix | silence => decide
  | named text => simp [Pad.kind?] at hp

/-- The marks of a pad. -/
theorem scan_padText {p : Pad} (hp : p.kind?.isSome = true) :
    scan .plain (Node.padText p).toList = padMarks p.label ∧
      IsClosed (Node.padText p).toList := by
  obtain ⟨hscan, hclosed⟩ := (harmless_label hp).scan
  have htext : (Node.padText p).toList = '[' :: (p.label.toList ++ [']']) := by
    simp [Node.padText]
  have hopen : Reading.next .plain '[' = .plain := rfl
  constructor
  · rw [htext, scan_cons, hopen, hclosed.scan_append, hscan]
    rfl
  · rw [htext, IsClosed, after_cons, hopen, after_append, hclosed]
    rfl

theorem scan_padTexts {pads : List Pad} (h : ∀ p ∈ pads, p.kind?.isSome = true) :
    scan .plain (String.join (pads.map Node.padText)).toList
        = ((pads.map Pad.label).map padMarks).flatten ∧
      IsClosed (String.join (pads.map Node.padText)).toList := by
  induction pads with
  | nil => exact ⟨rfl, rfl⟩
  | cons p pads ih =>
    obtain ⟨hp, hpads⟩ := List.forall_mem_cons.1 h
    obtain ⟨hscan, hclosed⟩ := scan_padText hp
    obtain ⟨hscans, hcloseds⟩ := ih hpads
    have htext : (String.join ((p :: pads).map Node.padText)).toList
        = (Node.padText p).toList ++ (String.join (pads.map Node.padText)).toList := by
      simp [String.toList_join]
    rw [htext]
    exact ⟨by rw [hclosed.scan_append, hscan, hscans]; rfl, hclosed.append hcloseds⟩

/-- The marks of a chain of closed filters. -/
theorem scan_chain {n : Node} (hfilters : ∀ f ∈ n.filters, IsClosed f.text.toList) :
    scan .plain n.chain.toList = chainMarks n.statement.filters ∧ IsClosed n.chain.toList := by
  have htext : n.chain.toList
      = [','].intercalate ((n.filters.map Filter.text).map String.toList) := by
    rw [Node.chain, String.toList_intercalate]
    rfl
  have hclosed : ∀ cs ∈ (n.filters.map Filter.text).map String.toList, IsClosed cs := by
    intro cs hcs
    rw [List.map_map, List.mem_map] at hcs
    obtain ⟨f, hf, rfl⟩ := hcs
    exact hfilters f hf
  have hcomma : IsClosed [','] := rfl
  obtain ⟨hscan, hjoined⟩ := scan_intercalate hcomma hclosed
  rw [htext]
  exact ⟨by rw [hscan, List.map_map]; rfl, hjoined⟩

/-- The marks of a statement whose filters are closed. -/
theorem scan_nodeText {n : Node} (hinputs : ∀ p ∈ n.inputs, p.kind?.isSome = true)
    (houtput : n.output.kind?.isSome = true)
    (hfilters : ∀ f ∈ n.filters, IsClosed f.text.toList) :
    scan .plain n.text.toList = nodeMarks n.statement ∧ IsClosed n.text.toList := by
  obtain ⟨hins, hinsClosed⟩ := scan_padTexts hinputs
  obtain ⟨hout, houtClosed⟩ := scan_padText houtput
  obtain ⟨hchain, hchainClosed⟩ := scan_chain hfilters
  have htext : n.text.toList = (String.join (n.inputs.map Node.padText)).toList
      ++ (n.chain.toList ++ (Node.padText n.output).toList) := by
    simp [Node.text]
  rw [htext]
  constructor
  · rw [hinsClosed.scan_append, hchainClosed.scan_append, hins, hchain, hout]
    simp [nodeMarks, Node.statement]
  · exact hinsClosed.append (hchainClosed.append houtClosed)

/-- The pieces of joined marks are what was joined, if no semicolon stands bare in it. -/
theorem pieces_intercalate {first : List Mark} {rest : List (List Mark)}
    (h : ∀ l ∈ first :: rest, bare ';' ∉ l) :
    pieces ([bare ';', bare '\n'].intercalate (first :: rest)) = first :: rest := by
  have hjoin : [bare ';', bare '\n'].intercalate (first :: rest)
      = [bare ';'].intercalate (first :: rest.map (bare '\n' :: ·)) := by
    clear h
    induction rest generalizing first with
    | nil => simp
    | cons second rest ih =>
      rw [List.map_cons, List.intercalate_cons_cons, List.intercalate_cons_cons, ih,
        List.append_assoc, List.append_assoc]
      have hcons (ls : List (List Mark)) :
          [bare '\n'] ++ [bare ';'].intercalate (second :: ls)
            = [bare ';'].intercalate ((bare '\n' :: second) :: ls) := by
        cases ls with
        | nil => simp
        | cons l ls => simp [List.intercalate_cons_cons]
      rw [← hcons]
      rfl
  have hsplit : ([bare ';'].intercalate (first :: rest.map (bare '\n' :: ·))).splitOn (bare ';')
      = first :: rest.map (bare '\n' :: ·) := by
    obtain ⟨hfirst, hrest⟩ := List.forall_mem_cons.1 h
    refine List.splitOn_intercalate _ (List.forall_mem_cons.2 ⟨hfirst, ?_⟩) (by simp)
    intro l hl
    obtain ⟨k, hk, rfl⟩ := List.mem_map.1 hl
    intro hmem
    cases List.mem_cons.1 hmem with
    | inl heq => exact absurd heq (by decide)
    | inr hmem => exact hrest k hk hmem
  have hskip : (rest.map (bare '\n' :: ·)).map skipLineEnd = rest := by
    simp [Function.comp_def, skipLineEnd, bare]
  rw [pieces, hjoin, hsplit]
  exact congrArg (first :: ·) hskip

/-- What is known of the statements of a compiled graph before anything is known of the values
in them. -/
structure Readable (g : Graph) : Prop where
  nodes : g.nodes ≠ []
  inputs : ∀ n ∈ g.nodes, ∀ p ∈ n.inputs, p.kind?.isSome = true
  output : ∀ n ∈ g.nodes, n.output.kind?.isSome = true
  chain : ∀ n ∈ g.nodes, n.chain ≠ ""
  closed : ∀ n ∈ g.nodes, ∀ f ∈ n.filters, IsClosed f.text.toList

variable {g : Graph}

theorem Readable.scan_text (h : g.Readable) :
    scan .plain g.text.toList
      = [bare ';', bare '\n'].intercalate (g.nodes.map fun n => nodeMarks n.statement) := by
  have htext : g.text.toList
      = [';', '\n'].intercalate ((g.nodes.map Node.text).map String.toList) := by
    rw [text, statements, String.toList_intercalate]
    rfl
  have hnode : ∀ n ∈ g.nodes, scan .plain n.text.toList = nodeMarks n.statement ∧
      IsClosed n.text.toList := fun n hn =>
    scan_nodeText (h.inputs n hn) (h.output n hn) (h.closed n hn)
  have hclosed : ∀ cs ∈ (g.nodes.map Node.text).map String.toList, IsClosed cs := by
    intro cs hcs
    rw [List.map_map, List.mem_map] at hcs
    obtain ⟨n, hn, rfl⟩ := hcs
    exact (hnode n hn).2
  have hsep : IsClosed [';', '\n'] := rfl
  rw [htext, (scan_intercalate hsep hclosed).1, List.map_map, List.map_map]
  have hmap : g.nodes.map ((scan .plain ∘ String.toList) ∘ Node.text)
      = g.nodes.map fun n => nodeMarks n.statement :=
    List.map_congr_left fun n hn => (hnode n hn).1
  rw [hmap]
  rfl

/-- Only brackets stand bare in a pad. -/
theorem bare_notMem_padMarks {label : String} (hl : Harmless label.toList) (hc : c ∈ separators)
    (hopen : c ≠ '[') (hclose : c ≠ ']') : bare c ∉ padMarks label := by
  intro hmem
  rw [padMarks, List.mem_cons, List.mem_append, List.mem_singleton] at hmem
  rcases hmem with heq | hmem | heq
  · exact hopen (congrArg Mark.char heq)
  · rw [← hl.scan.1] at hmem
    exact hl.isWhole c hc hmem
  · exact hclose (congrArg Mark.char heq)

theorem bare_notMem_nodeMarks {st : Statement} (hinputs : ∀ l ∈ st.inputs, Harmless l.toList)
    (houtputs : ∀ l ∈ st.outputs, Harmless l.toList)
    (hfilters : ∀ t ∈ st.filters, IsWhole t.toList) : bare ';' ∉ nodeMarks st := by
  have hpads {labels : List String} (h : ∀ l ∈ labels, Harmless l.toList) :
      bare ';' ∉ (labels.map padMarks).flatten := by
    intro hmem
    rw [List.mem_flatten] at hmem
    obtain ⟨l, hl, hmem⟩ := hmem
    obtain ⟨label, hlabel, rfl⟩ := List.mem_map.1 hl
    exact bare_notMem_padMarks (h label hlabel) (by decide) (by decide) (by decide) hmem
  intro hmem
  rw [nodeMarks, List.mem_append, List.mem_append] at hmem
  rcases hmem with hmem | hmem | hmem
  · exact hpads hinputs hmem
  · exact bare_notMem_chainMarks hfilters (by decide) (by decide) hmem
  · exact hpads houtputs hmem

/-- A graph whose filters are whole is read back. -/
theorem readStatements_text (h : g.Readable)
    (hwhole : ∀ n ∈ g.nodes, ∀ f ∈ n.filters, IsWhole f.text.toList) :
    readStatements g.text = some (g.nodes.map Node.statement) := by
  have hinputs (n : Node) (hn : n ∈ g.nodes) : ∀ l ∈ n.statement.inputs, Harmless l.toList := by
    intro l hl
    obtain ⟨p, hp, rfl⟩ := List.mem_map.1 hl
    exact harmless_label (h.inputs n hn p hp)
  have houtputs (n : Node) (hn : n ∈ g.nodes) : ∀ l ∈ n.statement.outputs, Harmless l.toList := by
    intro l hl
    obtain rfl := List.mem_singleton.1 hl
    exact harmless_label (h.output n hn)
  have hfilters (n : Node) (hn : n ∈ g.nodes) : ∀ t ∈ n.statement.filters, IsWhole t.toList := by
    intro t ht
    obtain ⟨f, hf, rfl⟩ := List.mem_map.1 ht
    exact hwhole n hn f hf
  have hpieces : pieces (scan .plain g.text.toList)
      = g.nodes.map fun n => nodeMarks n.statement := by
    obtain ⟨n, rest, hnodes⟩ := List.exists_cons_of_ne_nil h.nodes
    rw [h.scan_text, hnodes, List.map_cons]
    refine pieces_intercalate ?_
    intro l hl
    have hmem : l ∈ g.nodes.map fun n => nodeMarks n.statement := by
      rw [hnodes, List.map_cons]
      exact hl
    obtain ⟨m, hm, rfl⟩ := List.mem_map.1 hmem
    exact bare_notMem_nodeMarks (hinputs m hm) (houtputs m hm) (hfilters m hm)
  have hread (n : Node) (hn : n ∈ g.nodes) :
      readStatement (nodeMarks n.statement) = some n.statement := by
    refine readStatement_nodeMarks (hinputs n hn) (houtputs n hn) (List.cons_ne_nil _ _)
      (hfilters n hn) ?_
    have hchain := (scan_chain (h.closed n hn)).1
    intro hnil
    have hraw : raw (scan .plain n.chain.toList) = [] := by
      rw [hchain, hnil]
      rfl
    rw [raw_scan] at hraw
    exact h.chain n hn (String.toList_inj.1 hraw)
  rw [readStatements, hpieces, List.mapM_map]
  exact mapM_of_forall hread

end Graph

end Storyboard
