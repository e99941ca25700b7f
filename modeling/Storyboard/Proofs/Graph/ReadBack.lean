import Mathlib.Data.List.TakeWhile
import Storyboard.Proofs.Graph.Statement

/-!
# Storyboard.Proofs.Graph.ReadBack

When the text of a graph is read back.  Whatever is read, no filter in it holds a bare
separator, because every piece that is cut out of the text at one is read as what it was in
the text.  So a graph is read back if and only if its filters hold none.

* `isWhole_of_readStatements` — what is read holds no bare separator;
* `readStatements_text_iff` — a graph is read back exactly if its filters hold none.
-/

namespace Storyboard.Graph

variable {ms p q left : List Mark} {c : Char} {g : Graph}

/-! ## fresh marks -/

/-- Marks that are those of their text. -/
def IsFresh (ms : List Mark) : Prop := scan .plain (raw ms) = ms

theorem isFresh_scan (cs : List Char) : IsFresh (scan .plain cs) := by
  rw [IsFresh, raw_scan]

theorem IsFresh.split (h : IsFresh (p ++ bare c :: q)) : IsFresh p ∧ IsFresh q :=
  scan_raw_of_append h

/-- The pieces between bare characters of one kind hold none of them, and are fresh. -/
theorem isFresh_of_mem_splitOn {c : Char} {ms l : List Mark} (h : IsFresh ms)
    (hl : l ∈ ms.splitOn (bare c)) : IsFresh l ∧ bare c ∉ l ∧ ∀ m ∈ l, m ∈ ms := by
  by_cases hmem : bare c ∈ ms
  · obtain ⟨p, q, heq, hp⟩ := List.eq_append_cons_of_mem hmem
    have hshorter : q.length < ms.length := by
      rw [heq, List.length_append, List.length_cons]
      omega
    rw [heq] at h hl ⊢
    rw [List.splitOn_append_cons_self_of_not_mem hp] at hl
    rcases List.mem_cons.1 hl with rfl | hl
    · exact ⟨h.split.1, hp, fun m hm => List.mem_append_left _ hm⟩
    · obtain ⟨hfresh, hbare, hsub⟩ := isFresh_of_mem_splitOn h.split.2 hl
      exact ⟨hfresh, hbare, fun m hm =>
        List.mem_append_right _ (List.mem_cons_of_mem _ (hsub m hm))⟩
  · rw [List.splitOn_eq_singleton hmem, List.mem_singleton] at hl
    rw [hl]
    exact ⟨h, hmem, fun m hm => hm⟩
termination_by ms.length

/-- Past pads only what comes after them is left. -/
theorem readPads_left {open? : Option (List Mark)} {pads : List String}
    (h : readPads open? ms = some (pads, left)) :
    (open? = none ∧ left = ms) ∨ ∃ p c, ms = p ++ bare c :: left := by
  induction ms generalizing open? pads with
  | nil =>
    cases open? with
    | none =>
      obtain ⟨-, rfl⟩ := Prod.mk.inj (Option.some.inj h)
      exact .inl ⟨rfl, rfl⟩
    | some name => exact absurd h (by simp [readPads])
  | cons m ms ih =>
    cases open? with
    | none =>
      rw [readPads] at h
      split at h
      · next hm =>
        obtain ⟨hnone, -⟩ | ⟨p, c, rfl⟩ := ih h
        · exact absurd hnone (by simp)
        · exact .inr ⟨m :: p, c, rfl⟩
      · obtain ⟨-, rfl⟩ := Prod.mk.inj (Option.some.inj h)
        exact .inl ⟨rfl, rfl⟩
    | some name =>
      rw [readPads] at h
      split at h
      · next hm =>
        obtain ⟨⟨pads', left'⟩, hread, heq⟩ := Option.map_eq_some_iff.1 h
        obtain ⟨-, rfl⟩ := Prod.mk.inj heq
        obtain ⟨-, rfl⟩ | ⟨p, c, rfl⟩ := ih hread
        · exact .inr ⟨[], ']', by rw [hm]; rfl⟩
        · exact .inr ⟨m :: p, c, rfl⟩
      · obtain ⟨hnone, -⟩ | ⟨p, c, rfl⟩ := ih h
        · exact absurd hnone (by simp)
        · exact .inr ⟨m :: p, c, rfl⟩

theorem isFresh_skipLineEnd (h : IsFresh ms) : IsFresh (skipLineEnd ms) := by
  cases ms with
  | nil => exact h
  | cons m ms =>
    rw [skipLineEnd]
    split
    · next hm =>
      have hcons : raw (m :: ms) = m.char :: raw ms := rfl
      rw [IsFresh, hcons, hm, scan_cons] at h
      exact (List.cons.inj h).2
    · exact h

theorem mem_of_mem_skipLineEnd {m : Mark} (h : m ∈ skipLineEnd ms) : m ∈ ms := by
  cases ms with
  | nil => exact h
  | cons a ms =>
    rw [skipLineEnd] at h
    split at h
    · exact List.mem_cons_of_mem _ h
    · exact h

/-- Pieces are fresh, and no semicolon stands bare in them. -/
theorem isFresh_of_mem_pieces (h : IsFresh ms) {l : List Mark} (hl : l ∈ pieces ms) :
    IsFresh l ∧ bare ';' ∉ l := by
  have hsplit : ∀ k ∈ ms.splitOn (bare ';'), IsFresh k ∧ bare ';' ∉ k := by
    intro k hk
    obtain ⟨hfresh, hbare, -⟩ := isFresh_of_mem_splitOn h hk
    exact ⟨hfresh, hbare⟩
  rw [pieces] at hl
  split at hl
  · exact absurd hl List.not_mem_nil
  · next first rest heq =>
    rw [heq, List.forall_mem_cons] at hsplit
    rcases List.mem_cons.1 hl with rfl | hl
    · exact hsplit.1
    · obtain ⟨k, hk, rfl⟩ := List.mem_map.1 hl
      obtain ⟨hfresh, hbare⟩ := hsplit.2 k hk
      exact ⟨isFresh_skipLineEnd hfresh, fun hmem => hbare (mem_of_mem_skipLineEnd hmem)⟩

/-- Filters that are read from fresh marks without bare semicolons and brackets are whole. -/
theorem isWhole_of_readFilters {filters : List String} (hfresh : IsFresh ms)
    (hsemicolon : bare ';' ∉ ms) (hopen : bare '[' ∉ ms) (h : readFilters ms = some filters) :
    ∀ t ∈ filters, IsWhole t.toList := by
  rw [readFilters] at h
  split at h
  · exact absurd h (by simp)
  · next hclose =>
    obtain rfl := Option.some.inj h
    intro t ht
    obtain ⟨l, hl, rfl⟩ := List.mem_map.1 ht
    obtain ⟨hl', hcomma, hsub⟩ := isFresh_of_mem_splitOn hfresh hl
    rw [rawText, String.toList_ofList]
    intro c hc
    rw [hl']
    intro hmem
    simp only [separators, List.mem_cons, List.not_mem_nil, or_false] at hc
    rcases hc with rfl | rfl | rfl | rfl
    · exact hcomma hmem
    · exact hsemicolon (hsub _ hmem)
    · exact hopen (hsub _ hmem)
    · exact hclose (hsub _ hmem)

theorem isFresh_takeWhile (h : IsFresh ms) (c : Char) : IsFresh (ms.takeWhile (· ≠ bare c)) := by
  by_cases hmem : bare c ∈ ms
  · obtain ⟨p, q, rfl, hp⟩ := List.eq_append_cons_of_mem hmem
    have hall : ∀ m ∈ p, (decide (m ≠ bare c)) = true := by
      intro m hm
      simpa using fun heq : m = bare c => hp (heq ▸ hm)
    rw [List.takeWhile_append_of_pos hall, List.takeWhile_cons_of_neg (by simp), List.append_nil]
    exact h.split.1
  · have hself : ms.takeWhile (· ≠ bare c) = ms := by
      rw [List.takeWhile_eq_self_iff]
      intro m hm
      simpa using fun heq : m = bare c => hmem (heq ▸ hm)
    rwa [hself]

/-- The filters of a statement that is read from fresh marks are whole. -/
theorem isWhole_of_readStatement {st : Statement} (hfresh : IsFresh ms) (hsemicolon : bare ';' ∉ ms)
    (h : readStatement ms = some st) : ∀ t ∈ st.filters, IsWhole t.toList := by
  obtain ⟨⟨inputs, rest⟩, hinputs, h⟩ := Option.bind_eq_some_iff.1 h
  obtain ⟨filters, hfilters, h⟩ := Option.bind_eq_some_iff.1 h
  obtain ⟨⟨outputs, left⟩, -, h⟩ := Option.bind_eq_some_iff.1 h
  have hrest : IsFresh rest ∧ bare ';' ∉ rest := by
    obtain ⟨-, rfl⟩ | ⟨p, c, rfl⟩ := readPads_left hinputs
    · exact ⟨hfresh, hsemicolon⟩
    · exact ⟨hfresh.split.2, fun hmem =>
        hsemicolon (List.mem_append_right _ (List.mem_cons_of_mem _ hmem))⟩
  have hopen : bare '[' ∉ rest.takeWhile (· ≠ bare '[') := by
    intro hmem
    simpa using List.mem_takeWhile_imp hmem
  have hwhole := isWhole_of_readFilters (isFresh_takeWhile hrest.1 '[')
    (fun hmem => hrest.2 (List.takeWhile_subset _ hmem)) hopen hfilters
  dsimp only at h
  split at h
  · obtain rfl := Option.some.inj h
    exact hwhole
  · exact absurd h (by simp)

/-- In what is read no filter holds a bare separator. -/
theorem isWhole_of_readStatements {text : String} {sts : List Statement}
    (h : readStatements text = some sts) {st : Statement} (hst : st ∈ sts) :
    ∀ t ∈ st.filters, IsWhole t.toList := by
  obtain ⟨l, hl, hread⟩ := exists_of_mem_mapM h hst
  obtain ⟨hfresh, hsemicolon⟩ := isFresh_of_mem_pieces (isFresh_scan text.toList) hl
  exact isWhole_of_readStatement hfresh hsemicolon hread

/-- A graph is read back exactly if its filters are whole. -/
theorem readStatements_text_iff (h : g.Readable) :
    readStatements g.text = some (g.nodes.map Node.statement) ↔
      ∀ n ∈ g.nodes, ∀ f ∈ n.filters, IsWhole f.text.toList := by
  constructor
  · intro hread n hn f hf
    exact isWhole_of_readStatements hread (List.mem_map_of_mem hn) f.text (List.mem_map_of_mem hf)
  · exact readStatements_text h

end Storyboard.Graph
