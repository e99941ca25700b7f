import Storyboard.Proofs.Yaml.Cursor
import Storyboard.Yaml.Scalar.Plain

/-!
# Storyboard.Proofs.Yaml.Word

Plain scalars of one word in a flow collection.

* `Plain.run_word` — a word is taken up to the first gap or mark;
* `Plain.gap_layout` — the gap after it is passed, over line ends too;
* `Plain.read_word` — so the scalar is the word, and what follows the gap comes next.
-/

namespace Storyboard.Yaml

/-- Whether a character may stand inside a word. -/
def inWord (c : Char) : Bool := c.isAlphanum || c == '-' || c == '+' || c == '.'

/-- Whether a text starts with a letter or a digit, perhaps after a minus sign. -/
def startsWord : List Char → Bool
  | '-' :: c :: _ => c.isAlphanum
  | c :: _ => c.isAlphanum
  | [] => false

/-- Whether a text is a word: ASCII letters, digits, signs and points that start with none of
what a plain scalar cannot start with. -/
def isWord (cs : List Char) : Bool := startsWord cs && cs.all inWord

/-- Whether a mark follows a plain scalar in a flow collection. -/
def isClosing (c : Char) : Bool := c == ',' || c == ']' || c == '}'

theorem isInk_of_isClosing {c : Char} (h : isClosing c = true) : isInk c = true := by
  simp only [isClosing, Bool.or_eq_true, beq_iff_eq] at h
  obtain (rfl | rfl) | rfl := h <;> rfl

/-- A letter or a digit is none of the characters of a list without one. -/
theorem notMem_of_isAlphanum (cs : List Char) (hcs : cs.all (fun c => !c.isAlphanum) = true)
    {c : Char} (h : c.isAlphanum = true) : c ∉ cs := by
  intro hmem
  simpa [h] using List.all_eq_true.1 hcs c hmem

theorem isInk_of_isAlphanum {c : Char} (h : c.isAlphanum = true) : isInk c = true := by
  have hne := notMem_of_isAlphanum [' ', '\t', '\n', nextLine, lineSeparator,
    paragraphSeparator, '#', byteOrderMark] (by decide) h
  simp only [List.mem_cons, List.not_mem_nil, or_false, not_or] at hne
  simp [isInk, isGap, isSpacing, isBreak, hne]

/-- The first character of a word, and what a word starts with. -/
theorem startsWord_cases {cs : List Char} (h : startsWord cs = true) :
    ∃ c more, cs = c :: more ∧ isInk c = true ∧ (c.isAlphanum = true ∨
      c = '-' ∧ ∃ d more', more = d :: more' ∧ d.isAlphanum = true) := by
  unfold startsWord at h
  split at h
  · next d more => exact ⟨_, _, rfl, rfl, .inr ⟨rfl, d, more, rfl, h⟩⟩
  · next c more _ => exact ⟨_, _, rfl, isInk_of_isAlphanum h, .inl h⟩
  · simp at h

theorem startsWord_of_isAlphanum {c : Char} (h : c.isAlphanum = true) (cs : List Char) :
    startsWord (c :: cs) = true := by
  unfold startsWord
  split
  · next heq =>
    obtain ⟨rfl, -⟩ := List.cons.inj heq
    exact absurd h (by decide)
  · next heq =>
    obtain ⟨rfl, -⟩ := List.cons.inj heq
    exact h
  · next heq => simp at heq

theorem startsWord_append {cs : List Char} (h : startsWord cs = true) (rest : List Char) :
    startsWord (cs ++ rest) = true := by
  obtain ⟨c, more, rfl, -, halpha | ⟨rfl, d, more', rfl, halpha⟩⟩ := startsWord_cases h
  · exact startsWord_of_isAlphanum halpha _
  · exact halpha

namespace Plain

theorem isGap_of_inWord {c : Char} (h : inWord c = true) :
    isGap c = false ∧ c ≠ ':' ∧ isFlowMark c = false := by
  by_cases halpha : c.isAlphanum = true
  · have hne := notMem_of_isAlphanum [' ', '\t', '\n', nextLine, lineSeparator,
      paragraphSeparator, ':', ',', '?', '[', ']', '{', '}'] (by decide) halpha
    simp only [List.mem_cons, List.not_mem_nil, or_false, not_or] at hne
    simp [isGap, isSpacing, isBreak, isFlowMark, hne]
  · simp only [inWord, halpha, Bool.false_or, Bool.or_eq_true, beq_iff_eq] at h
    obtain (rfl | rfl) | rfl := h <;> decide

/-- A word is taken up to the first gap or mark. -/
theorem run_word {word rest : List Char} (hword : word.all inWord = true)
    (hrest : ∀ c ∈ rest.head?, isGap c = true ∨ isFlowMark c = true) :
    run true (word ++ rest) = word := by
  induction word with
  | nil =>
    cases rest with
    | nil => rfl
    | cons c rest =>
      obtain h | h := hrest c rfl <;> simp [run, h]
  | cons c word ih =>
    simp only [List.all_cons, Bool.and_eq_true] at hword
    obtain ⟨hgap, hcolon, hmark⟩ := isGap_of_inWord hword.1
    simp [run, hgap, hcolon, hmark, ih hword.2]

theorem run_closing {ch : Char} (h : isClosing ch = true) (rest : List Char) :
    run true (ch :: rest) = [] := by
  simp only [isClosing, Bool.or_eq_true, beq_iff_eq] at h
  obtain (rfl | rfl) | rfl := h <;> rfl

variable {c : Cursor} {rest : List Char}

/-- No document ends here. -/
theorem atBoundary_layout {gap : List Char} {ch : Char} (hgap : IsLayout gap)
    (hc : c.rest = gap ++ ch :: rest) (hch : isClosing ch = true) : c.atBoundary = false := by
  refine Cursor.atBoundary_of_head fun c' hc' => ?_
  rw [hc] at hc'
  cases gap with
  | nil =>
    obtain rfl : ch = c' := by simpa using hc'
    simp only [isClosing, Bool.or_eq_true, beq_iff_eq] at hch
    obtain (rfl | rfl) | rfl := hch <;> decide
  | cons b gap =>
    obtain rfl : b = c' := by simpa using hc'
    obtain rfl | rfl := hgap b List.mem_cons_self <;> decide

/-- Empty lines are passed up to the next character. -/
theorem emptyLines_layout (fuel : Nat) {gap : List Char} {ch : Char} (hgap : IsLayout gap)
    (hc : c.rest = gap ++ ch :: rest) (hch : isClosing ch = true) (hfuel : gap.length < fuel) :
    ∃ breaks, emptyLines fuel c = (breaks, false, c.skip gap.length) := by
  have hink := (isInk_iff.1 (isInk_of_isClosing hch)).1
  induction gap generalizing fuel c with
  | nil =>
    obtain ⟨fuel, rfl⟩ : ∃ n, fuel = n + 1 := ⟨fuel - 1, by simp at hfuel; omega⟩
    refine ⟨[], ?_⟩
    rw [emptyLines, Cursor.skipWhile_of_head (by rw [hc]; simpa using hink.1),
      Cursor.lineBreak?_of_head (by rw [hc]; simpa using hink.2.2)]
    rfl
  | cons b gap ih =>
    obtain ⟨fuel, rfl⟩ : ∃ n, fuel = n + 1 := ⟨fuel - 1, by simp at hfuel; omega⟩
    simp only [List.length_cons, Nat.add_lt_add_iff_right] at hfuel
    have hlayout : IsLayout gap := fun c hc => hgap c (List.mem_cons_of_mem _ hc)
    have hnext : c.next.rest = gap ++ ch :: rest := Cursor.rest_next_cons hc
    obtain rfl | rfl := hgap b List.mem_cons_self
    · obtain ⟨breaks, heq⟩ := ih (fuel + 1) hlayout hnext (by omega)
      refine ⟨breaks, ?_⟩
      rw [emptyLines] at heq ⊢
      rw [Cursor.skipWhile_cons hc rfl]
      exact heq
    · obtain ⟨breaks, heq⟩ := ih fuel hlayout hnext hfuel
      have hboundary := atBoundary_layout hlayout hnext hch
      refine ⟨'\n' :: breaks, ?_⟩
      rw [emptyLines, Cursor.skipWhile_of_head (by simp [hc]), Cursor.lineBreak?_lineFeed hc]
      simp only [hboundary, heq]
      rfl

/-- The spaces of a gap are taken up to what is no space. -/
theorem gap_span {spaces : List Char} (hspaces : ∀ b ∈ spaces, b = ' ')
    (hc : c.rest = spaces ++ rest) (hrest : ∀ b ∈ rest.head?, b ≠ ' ') :
    c.span (· == ' ') = (spaces, c.skip spaces.length) :=
  Cursor.span_append hc (fun b hb => by simp [hspaces b hb]) fun b hb => by simp [hrest b hb]

/-- A gap in a line. -/
theorem gap_spaces {spaces : List Char} {ch : Char} (hspaces : ∀ b ∈ spaces, b = ' ')
    (hc : c.rest = spaces ++ ch :: rest) (hch : isClosing ch = true) :
    Plain.gap c = (spaces, false, c.skip spaces.length) := by
  have hink := (isInk_iff.1 (isInk_of_isClosing hch)).1
  have hrest := Cursor.rest_skip_append hc
  unfold Plain.gap
  rw [gap_span hspaces hc (by simpa using hink.1)]
  dsimp only
  rw [Cursor.lineBreak?_of_head (by rw [hrest]; simpa using hink.2.2)]

/-- A gap over the end of a line. -/
theorem gap_lines {spaces later : List Char} {ch : Char} (hcounted : c.Counted)
    (hspaces : ∀ b ∈ spaces, b = ' ') (hlater : IsLayout later)
    (hc : c.rest = spaces ++ '\n' :: (later ++ ch :: rest)) (hch : isClosing ch = true) :
    ∃ meant, Plain.gap c = (meant, true, c.skip (spaces ++ '\n' :: later).length) := by
  have hrest := Cursor.rest_skip_append hc
  have hnext : (c.skip spaces.length).next.rest = later ++ ch :: rest := Cursor.rest_next_cons hrest
  have hsteps := Cursor.length_rest_lt_steps
    (Cursor.counted_next (Cursor.counted_skip hcounted spaces.length))
  rw [hnext, List.length_append] at hsteps
  obtain ⟨breaks, hbreaks⟩ :=
    emptyLines_layout _ hlater hnext hch ((Nat.le_add_right _ _).trans_lt hsteps)
  refine ⟨fold '\n' breaks, ?_⟩
  unfold Plain.gap
  rw [gap_span hspaces hc (by simp)]
  dsimp only
  rw [Cursor.lineBreak?_lineFeed hrest]
  dsimp only
  rw [atBoundary_layout hlater hnext hch, if_neg (by decide), hbreaks, List.length_append,
    Cursor.skip_add]
  rfl

/-- The gap after a word is passed up to the next character. -/
theorem gap_layout {gap : List Char} {ch : Char} (hcounted : c.Counted) (hgap : IsLayout gap)
    (hc : c.rest = gap ++ ch :: rest) (hch : isClosing ch = true) :
    ∃ meant crossed, Plain.gap c = (meant, crossed, c.skip gap.length) := by
  obtain ⟨spaces, more, rfl, hspaces, rfl | ⟨later, rfl, hlater⟩⟩ := hgap.split
  · rw [List.append_nil] at hc ⊢
    exact ⟨spaces, false, gap_spaces hspaces hc hch⟩
  · rw [List.append_assoc] at hc
    obtain ⟨meant, heq⟩ := gap_lines hcounted hspaces hlater hc hch
    exact ⟨meant, true, heq⟩

/-- A word is a scalar, if a mark of the flow collection comes next. -/
theorem read_word (level : Nat) {word gap : List Char} {ch : Char} (hcounted : c.Counted)
    (hword : word.all inWord = true) (hgap : IsLayout gap)
    (hc : c.rest = word ++ (gap ++ ch :: rest)) (hch : isClosing ch = true) :
    ∃ crossed, read true level c = (word, crossed, c.skip (word ++ gap).length) := by
  have hrun : run true c.rest = word := by
    rw [hc]
    refine run_word hword fun b hb => ?_
    cases gap with
    | nil =>
      obtain rfl : ch = b := by simpa using hb
      simp only [isClosing, Bool.or_eq_true, beq_iff_eq] at hch
      obtain (rfl | rfl) | rfl := hch <;> decide
    | cons b' gap =>
      obtain rfl : b' = b := by simpa using hb
      obtain rfl | rfl := hgap b' List.mem_cons_self <;> decide
  have hrest := Cursor.rest_skip_append hc
  obtain ⟨meant, crossed, heq⟩ :=
    gap_layout (Cursor.counted_skip hcounted word.length) hgap hrest hch
  have hend := Cursor.rest_skip_append hrest
  -- No word comes after the gap, so the scalar ends, and what the gap stands for is dropped.
  have hmore (fuel : Nat) : more true level meant crossed fuel
      ((c.skip word.length).skip gap.length) =
        ([], crossed, (c.skip word.length).skip gap.length) := by
    cases fuel with
    | zero => rfl
    | succ n => simp [more, hend, run_closing hch]
  refine ⟨crossed, ?_⟩
  unfold read
  rw [hrun]
  dsimp only
  rw [heq]
  dsimp only
  rw [hmore, List.length_append, Cursor.skip_add]
  simp

end Plain

end Storyboard.Yaml
