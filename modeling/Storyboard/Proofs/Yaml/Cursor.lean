import Mathlib.Data.List.TakeWhile
import Storyboard.Yaml.Cursor

/-!
# Storyboard.Proofs.Yaml.Cursor

Where moving on in a text leads to.

* `Cursor.rest_skip_append` — what follows known characters is left after them;
* `Cursor.skip_of_line` — past characters that end no line one is on the same line;
* `Cursor.span_append` — a run of characters of a kind is taken as a whole;
* `isInk_iff` — which characters start something after a gap.
-/

namespace Storyboard.Yaml

namespace Cursor

variable {c : Cursor}

theorem rest_next_cons {ch : Char} {rest : List Char} (h : c.rest = ch :: rest) :
    c.next.rest = rest := by
  rw [rest_next, h]
  rfl

theorem rest_skip_append {cs rest : List Char} (h : c.rest = cs ++ rest) :
    (c.skip cs.length).rest = rest := by
  rw [rest_skip, h, List.drop_left]

theorem skip_add (m n : Nat) (c : Cursor) : c.skip (m + n) = (c.skip m).skip n := by
  induction m generalizing c with
  | zero => rw [Nat.zero_add]; rfl
  | succ m ih => rw [Nat.succ_add]; exact ih c.next

theorem index_next_le (c : Cursor) : c.next.index ≤ c.index + 1 := by
  unfold next
  repeat' split
  all_goals simp

theorem line_next {ch : Char} {rest : List Char} (h : c.rest = ch :: rest)
    (hch : isBreak ch = false) : c.next.line = c.line := by
  unfold next
  rw [h]
  dsimp only
  rw [if_neg (by simp [hch])]
  repeat' split
  all_goals rfl

/-- Past characters that end no line one is on the same line. -/
theorem skip_of_line {before rest : List Char} (h : c.rest = before ++ rest)
    (hbefore : ∀ ch ∈ before, isBreak ch = false) :
    (c.skip before.length).index ≤ c.index + before.length ∧
      (c.skip before.length).line = c.line := by
  induction before generalizing c with
  | nil => exact ⟨le_rfl, rfl⟩
  | cons ch before ih =>
    obtain ⟨hindex, hline⟩ := ih (rest_next_cons h) fun ch' h' =>
      hbefore ch' (List.mem_cons_of_mem _ h')
    have hnext := index_next_le c
    rw [line_next h (hbefore ch List.mem_cons_self)] at hline
    exact ⟨by rw [List.length_cons, skip]; omega, hline⟩

/-- There are more steps left than characters. -/
theorem length_rest_lt_steps (h : c.Counted) : c.rest.length < c.steps := by
  unfold Counted at h
  unfold steps
  omega

/-- A run of characters of a kind. -/
theorem span_append {p : Char → Bool} {run rest : List Char} (h : c.rest = run ++ rest)
    (hrun : ∀ ch ∈ run, p ch = true) (hrest : ∀ ch ∈ rest.head?, p ch = false) :
    c.span p = (run, c.skip run.length) := by
  have htaken : c.rest.takeWhile p = run := by
    rw [h, List.takeWhile_append_of_pos hrun]
    cases rest with
    | nil => simp
    | cons ch rest => simp [hrest ch rfl]
  simp only [span, htaken]

theorem skipWhile_append {p : Char → Bool} {run rest : List Char} (h : c.rest = run ++ rest)
    (hrun : ∀ ch ∈ run, p ch = true) (hrest : ∀ ch ∈ rest.head?, p ch = false) :
    c.skipWhile p = c.skip run.length := by
  rw [skipWhile, span_append h hrun hrest]

theorem skipWhile_cons {p : Char → Bool} {ch : Char} {rest : List Char} (h : c.rest = ch :: rest)
    (hch : p ch = true) : c.skipWhile p = c.next.skipWhile p := by
  simp only [skipWhile, span, h, List.takeWhile_cons, hch, if_true, rest_next_cons h,
    List.length_cons, skip]

theorem skipWhile_of_head {p : Char → Bool} (h : ∀ ch ∈ c.rest.head?, p ch = false) :
    c.skipWhile p = c :=
  skipWhile_append (List.nil_append _).symm (by simp) h

theorem lineBreak?_of_head (h : ∀ ch ∈ c.rest.head?, isBreak ch = false) : c.lineBreak? = none := by
  unfold lineBreak?
  split
  · next ch rest hrest => rw [if_neg (by simp [h ch (by simp [hrest])])]
  · rfl

theorem lineBreak?_lineFeed {rest : List Char} (h : c.rest = '\n' :: rest) :
    c.lineBreak? = some ('\n', c.next) := by
  unfold lineBreak?
  rw [h]
  rfl

theorem atTriple_of_head {ch : Char} (h : ∀ ch' ∈ c.rest.head?, ch' ≠ ch) :
    c.atTriple ch = false := by
  unfold atTriple
  split
  · next c₁ c₂ c₃ rest hrest =>
    have := h c₁ (by simp [hrest])
    simp [this]
  · simp

theorem atBoundary_of_head (h : ∀ ch ∈ c.rest.head?, ch ≠ '-' ∧ ch ≠ '.') :
    c.atBoundary = false := by
  rw [atBoundary, atTriple_of_head fun ch hch => (h ch hch).1,
    atTriple_of_head fun ch hch => (h ch hch).2]
  rfl

/-- Where no space is next and no comment starts, nothing is gone over. -/
theorem skipComment_of_head (h : ∀ ch ∈ c.rest.head?, ch ≠ ' ' ∧ ch ≠ '#') :
    c.skipComment = c := by
  unfold skipComment
  rw [skipWhile_of_head fun ch hch => by simpa using (h ch hch).1]
  dsimp only
  rw [if_neg]
  intro hsees
  exact (h '#' (by simpa [sees] using hsees)).2 rfl

theorem skipComment_space {rest : List Char} (h : c.rest = ' ' :: rest) :
    c.skipComment = c.next.skipComment := by
  unfold skipComment
  rw [skipWhile_cons h rfl]

end Cursor

/-! ## gaps -/

/-- Whether characters are spaces and line feeds only. -/
def IsLayout (cs : List Char) : Prop := ∀ c ∈ cs, c = ' ' ∨ c = '\n'

/-- The spaces up to the first line feed, and what is after that. -/
theorem IsLayout.split {cs : List Char} (h : IsLayout cs) :
    ∃ spaces more, cs = spaces ++ more ∧ (∀ c ∈ spaces, c = ' ') ∧
      (more = [] ∨ ∃ later, more = '\n' :: later ∧ IsLayout later) := by
  induction cs with
  | nil => exact ⟨[], [], rfl, nofun, .inl rfl⟩
  | cons c cs ih =>
    have hcs : IsLayout cs := fun c hc => h c (List.mem_cons_of_mem _ hc)
    obtain rfl | rfl := h c List.mem_cons_self
    · obtain ⟨spaces, more, rfl, hspaces, hmore⟩ := ih hcs
      exact ⟨' ' :: spaces, more, rfl, List.forall_mem_cons.2 ⟨rfl, hspaces⟩, hmore⟩
    · exact ⟨[], '\n' :: cs, rfl, nofun, .inr ⟨cs, rfl, hcs⟩⟩

/-- Whether a character ends a gap, and starts no comment. -/
def isInk (c : Char) : Bool := !isGap c && c != '#' && c != byteOrderMark

theorem isInk_iff {c : Char} : isInk c = true ↔
    (c ≠ ' ' ∧ c ≠ '\t' ∧ isBreak c = false) ∧ c ≠ '#' ∧ c ≠ byteOrderMark := by
  simp [isInk, isGap, isSpacing, and_assoc]

end Storyboard.Yaml
