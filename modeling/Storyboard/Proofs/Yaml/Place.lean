import Storyboard.Proofs.Yaml.Cursor
import Storyboard.Yaml.Lexer

/-!
# Storyboard.Proofs.Yaml.Place

Where the lexer has come to in a text that has no blocks, and the characters that build
flow collections.

* `Lexer.At` — what is the same at every place of such a text: the tokens so far, and one
  candidate for each depth, none of which has to become a key;
* `Lexer.At.step`, `At.stop` — a step goes over the blanks, and takes the token after them, or
  stops at the end of the text;
* `Lexer.Runs` — some steps lead from one place to a later one;
* `Lexer.At.openList`, `At.closeList`, `At.comma` — what the marks of a list lead to; the
  same for mappings.
-/

namespace Storyboard.Yaml

namespace Lexer

variable {s : Lexer}

/-- Spaces and line feeds are skipped up to the next character. -/
theorem skipGaps_layout (fuel : Nat) {gap rest : List Char} (hgap : IsLayout gap)
    (h : s.cursor.rest = gap ++ rest) (hrest : ∀ c ∈ rest.head?, isInk c = true)
    (hfuel : gap.length < fuel) :
    ∃ allowed, skipGaps fuel s =
        { s with cursor := s.cursor.skip gap.length, keyAllowed := allowed } ∧
      (s.inFlow = true → allowed = s.keyAllowed) := by
  induction gap generalizing fuel s with
  | nil =>
    obtain ⟨fuel, rfl⟩ : ∃ n, fuel = n + 1 := ⟨fuel - 1, by simp at hfuel; omega⟩
    have hhead : ∀ c ∈ s.cursor.rest.head?, (c ≠ ' ' ∧ c ≠ '\t' ∧ isBreak c = false) ∧ c ≠ '#' := by
      intro c hc
      rw [h] at hc
      have := isInk_iff.1 (hrest c hc)
      exact ⟨this.1, this.2.1⟩
    refine ⟨s.keyAllowed, ?_, fun _ => rfl⟩
    rw [skipGaps, Cursor.skipComment_of_head fun c hc => ⟨(hhead c hc).1.1, (hhead c hc).2⟩,
      Cursor.lineBreak?_of_head fun c hc => (hhead c hc).1.2.2]
    rfl
  | cons ch gap ih =>
    obtain ⟨fuel, rfl⟩ : ∃ n, fuel = n + 1 := ⟨fuel - 1, by simp at hfuel; omega⟩
    simp only [List.length_cons, Nat.add_lt_add_iff_right] at hfuel
    have hlayout : IsLayout gap := fun c hc => hgap c (List.mem_cons_of_mem _ hc)
    have hnext : s.cursor.next.rest = gap ++ rest := Cursor.rest_next_cons h
    obtain rfl | rfl := hgap ch List.mem_cons_self
    · obtain ⟨allowed, heq, hflow⟩ := ih (s := { s with cursor := s.cursor.next })
        (fuel + 1) hlayout hnext (by omega)
      refine ⟨allowed, ?_, hflow⟩
      rw [skipGaps] at heq ⊢
      rw [Cursor.skipComment_space h]
      exact heq
    · obtain ⟨allowed, heq, hflow⟩ := ih
        (s := { s with cursor := s.cursor.next, keyAllowed := s.keyAllowed || !s.inFlow })
        fuel hlayout hnext hfuel
      refine ⟨allowed, ?_, fun hin => by simp [hflow hin, hin]⟩
      rw [skipGaps, Cursor.skipComment_of_head (by simp [h]), Cursor.lineBreak?_lineFeed h]
      exact heq

theorem toNext_layout {gap rest : List Char} (hcounted : s.cursor.Counted) (hgap : IsLayout gap)
    (h : s.cursor.rest = gap ++ rest) (hrest : ∀ c ∈ rest.head?, isInk c = true) :
    ∃ allowed, s.toNext = { s with cursor := s.cursor.skip gap.length, keyAllowed := allowed } ∧
      (s.inFlow = true → allowed = s.keyAllowed) := by
  have hmark : s.cursor.sees byteOrderMark = false := by
    unfold Cursor.sees
    rw [h]
    cases gap with
    | nil =>
      cases rest with
      | nil => rfl
      | cons c rest => simpa using (isInk_iff.1 (hrest c rfl)).2.2
    | cons ch gap => obtain rfl | rfl := hgap ch List.mem_cons_self <;> rfl
  have hsteps := Cursor.length_rest_lt_steps hcounted
  rw [h, List.length_append] at hsteps
  have hskip := skipGaps_layout s.cursor.steps hgap h hrest (by omega)
  unfold toNext
  rw [if_neg (by simp [hmark])]
  exact hskip

/-! ## where reading has come to -/

/-- The lexer before some characters, perhaps with blanks before them, inside a number of flow
collections; no block has started, and no node has to be a key. -/
structure At (s : Lexer) (depth : Nat) (ts : List Token) (rest : List Char) : Prop where
  before : ∃ gap, IsLayout gap ∧ s.cursor.rest = gap ++ rest
  counted : s.cursor.Counted
  tokens : s.tokens = ts
  candidates : s.candidates.length = depth + 1
  free : ∀ k, some k ∈ s.candidates → k.required = false
  level : s.level = 0
  outer : s.outer = []

/-- The lexer right before some characters. -/
structure Ready (s : Lexer) (depth : Nat) (ts : List Token) (rest : List Char) : Prop
    extends At s depth ts rest where
  here : s.cursor.rest = rest

variable {depth : Nat} {ts : List Token} {rest : List Char}

theorem At.inFlow (h : At s depth ts rest) : s.inFlow = decide (0 < depth) := by
  rw [Lexer.inFlow, h.candidates]
  simp

/-- The candidates that are left where reading has come to. -/
def kept (s : Lexer) : List (Option Candidate) :=
  s.candidates.map fun k => if k.any fun k => !s.isFresh k then none else k

/-- Candidates that need not be keys are dropped without an error. -/
theorem dropStale_of_free (h : ∀ k, some k ∈ s.candidates → k.required = false) :
    s.dropStale = .ok { s with candidates := s.kept } := by
  unfold dropStale
  dsimp only
  rw [if_neg]
  · rfl
  · simp only [List.any_eq_true, not_exists, not_and, Bool.and_eq_true]
    rintro (_ | k) hk hstale
    · simp
    · simp [h k hk]

theorem mem_kept {k : Candidate} (h : some k ∈ s.kept) : some k ∈ s.candidates := by
  obtain ⟨k', hk', heq⟩ := List.mem_map.1 h
  split at heq
  · simp at heq
  · rwa [heq] at hk'

/-- Blocks that have not started do not end. -/
theorem endBlocks_of_outer (houter : s.outer = []) (n : Nat) :
    s.endBlocks n = s := by
  unfold endBlocks
  split
  · rfl
  · rw [houter]
    rfl

/-- Over the blanks one comes to what follows them; candidates that are too far away by then are
dropped. -/
theorem At.exists_ready (h : At s depth ts rest) (hrest : ∀ c ∈ rest.head?, isInk c = true) :
    ∃ s', Ready s' depth ts rest ∧ (0 < depth → s'.keyAllowed = s.keyAllowed) ∧
      (∀ gap, s.cursor.rest = gap ++ rest → s'.cursor = s.cursor.skip gap.length) ∧
      s'.candidates = { s' with candidates := s.candidates }.kept ∧ s'.count = s.count ∧
      s.toNext.dropStale = .ok s' := by
  obtain ⟨gap, hgap, hgaprest⟩ := h.before
  obtain ⟨allowed, hnext, hallowed⟩ := toNext_layout h.counted hgap hgaprest hrest
  have hhere := Cursor.rest_skip_append hgaprest
  let s₁ : Lexer := { s with cursor := s.cursor.skip gap.length, keyAllowed := allowed }
  have hready : Ready { s₁ with candidates := s₁.kept } depth ts rest :=
    { before := ⟨[], by simp [IsLayout], hhere⟩
      counted := Cursor.counted_skip h.counted _
      tokens := h.tokens
      candidates := (List.length_map _).trans h.candidates
      free := fun k hk => h.free k (mem_kept (s := s₁) hk)
      level := h.level
      outer := h.outer
      here := hhere }
  have hflow (hdepth : 0 < depth) : s.inFlow = true := by rw [h.inFlow]; simpa using hdepth
  refine ⟨_, hready, fun hdepth => hallowed (hflow hdepth), ?_, rfl, rfl, ?_⟩
  · intro gap' hgap'
    rw [List.append_cancel_right (hgap'.symm.trans hgaprest)]
  · rw [hnext]
    exact dropStale_of_free h.free

/-- The next token starts after the blanks. -/
theorem At.step {ch : Char} (h : At s depth ts (ch :: rest)) (hch : isInk ch = true) :
    ∃ s', Ready s' depth ts (ch :: rest) ∧ (0 < depth → s'.keyAllowed = s.keyAllowed) ∧
      (∀ gap, s.cursor.rest = gap ++ ch :: rest → s'.cursor = s.cursor.skip gap.length) ∧
      s'.candidates = { s' with candidates := s.candidates }.kept ∧ s'.count = s.count ∧
      s.step = (do return (true, ← s'.token ch rest)) := by
  obtain ⟨s', hready, hallowed, hcursor, hcandidates, hcount, hstale⟩ :=
    h.exists_ready (by simpa using hch)
  refine ⟨s', hready, hallowed, hcursor, hcandidates, hcount, ?_⟩
  unfold Lexer.step
  rw [hstale]
  simp only [bind, Except.bind]
  rw [endBlocks_of_outer hready.outer, hready.here]

/-! ## steps -/

/-- Some steps lead from one place to a later one, not more than there are characters between. -/
def Runs (s s' : Lexer) : Prop :=
  ∃ n, n + s'.cursor.rest.length ≤ s.cursor.rest.length ∧
    ∀ fuel, run (fuel + n) s = run fuel s'

theorem Runs.trans {s s' s'' : Lexer} (h : Runs s s') (h' : Runs s' s'') : Runs s s'' := by
  obtain ⟨n, hn, hrun⟩ := h
  obtain ⟨m, hm, hrun'⟩ := h'
  exact ⟨m + n, by omega, fun fuel => by rw [← Nat.add_assoc, hrun, hrun']⟩

theorem Runs.of_step {s' : Lexer} (h : s.step = .ok (true, s'))
    (hlength : s'.cursor.rest.length < s.cursor.rest.length) : Runs s s' :=
  ⟨1, by omega, fun fuel => by rw [run, h]⟩

/-- What a token leads to, a step leads to. -/
theorem At.runs {ch : Char} {P : Lexer → Prop} (h : At s depth ts (ch :: rest))
    (hch : isInk ch = true)
    (htoken : ∀ s₁, Ready s₁ depth ts (ch :: rest) → (0 < depth → s₁.keyAllowed = s.keyAllowed) →
      ∃ s', s₁.token ch rest = .ok s' ∧ s'.cursor.rest.length ≤ rest.length ∧ P s') :
    ∃ s', Runs s s' ∧ P s' := by
  obtain ⟨s₁, hready, hallowed, -, -, -, hstep⟩ := h.step hch
  obtain ⟨s', htoken, hlength, hP⟩ := htoken s₁ hready hallowed
  refine ⟨s', Runs.of_step (by rw [hstep, htoken]; rfl) ?_, hP⟩
  obtain ⟨gap, -, hrest⟩ := h.before
  rw [hrest, List.length_append, List.length_cons]
  omega

/-! ## the characters that build flow collections -/

theorem Ready.atTriple {ch ch' : Char} (h : Ready s depth ts (ch :: rest)) (hne : ch ≠ ch') :
    s.cursor.atTriple ch' = false :=
  Cursor.atTriple_of_head (by simpa [h.here] using hne)

/-- The place after the next character. -/
theorem Ready.skip {ch : Char} (h : Ready s depth ts (ch :: rest)) :
    (s.skip 1).cursor.rest = rest ∧ (s.skip 1).cursor.Counted :=
  ⟨Cursor.rest_next_cons h.here, Cursor.counted_next h.counted⟩

/-- A candidate that need not be a key is dropped without an error. -/
theorem At.dropCandidate (h : At s depth ts rest) :
    s.dropCandidate = .ok { s with candidates := none :: s.candidates.tail } := by
  unfold Lexer.dropCandidate
  have hlength := h.candidates
  split
  · next k around hk => rw [if_neg (by simp [h.free k (by simp [hk])]), hk]; rfl
  · next hnone =>
    cases hc : s.candidates with
    | nil => simp [hc] at hlength
    | cons k around =>
      cases k with
      | none =>
        change Except.ok s = Except.ok { s with candidates := none :: around }
        rw [← hc]
      | some k => exact absurd hc (hnone k around)

/-- The candidate for a key that starts here. -/
def here (s : Lexer) : Candidate :=
  ⟨s.count, false, s.cursor.index, s.cursor.line, s.cursor.column⟩

/-- Nothing has to be a key here. -/
theorem At.addCandidate (h : At s depth ts rest) :
    s.addCandidate = .ok (if s.keyAllowed then
      { s with candidates := some s.here :: s.candidates.tail } else s) := by
  unfold Lexer.addCandidate
  split
  · rw [h.dropCandidate]
    simp [bind, Except.bind, pure, Except.pure, here, h.level]
  · rfl

/-- The candidates after one more. -/
theorem At.withCandidate {k : Option Candidate} (h : At s depth ts rest)
    (hk : k.all (fun k => !k.required) = true) :
    At { s with candidates := k :: s.candidates.tail } depth ts rest where
  before := h.before
  counted := h.counted
  tokens := h.tokens
  candidates := by simp [h.candidates]
  free k' hk' := by
    obtain heq | hmem := List.mem_cons.1 hk'
    · simpa [← heq] using hk
    · exact h.free k' (List.mem_of_mem_tail hmem)
  level := h.level
  outer := h.outer

theorem At.exists_addCandidate (h : At s depth ts rest) :
    ∃ s', s.addCandidate = .ok s' ∧ At s' depth ts rest ∧ s'.cursor = s.cursor ∧
      s'.count = s.count ∧ (s.keyAllowed = true → s'.candidates.head? = some (some s.here)) := by
  refine ⟨_, h.addCandidate, ?_⟩
  split
  · exact ⟨h.withCandidate rfl, rfl, rfl, fun _ => rfl⟩
  · next hkey => exact ⟨h, rfl, rfl, fun h => absurd h hkey⟩

/-- The place after a token, right before what follows it. -/
theorem At.emit {before : List Char} (h : At s depth ts before) (t : Token) {c : Cursor}
    (hrest : c.rest = rest) (hcounted : c.Counted) (allowed : Bool) :
    At { s.emit t with cursor := c, keyAllowed := allowed } depth (t :: ts) rest where
  before := ⟨[], by simp [IsLayout], hrest⟩
  counted := hcounted
  tokens := congrArg (t :: ·) h.tokens
  candidates := h.candidates
  free := h.free
  level := h.level
  outer := h.outer

/-- A flow collection starts. -/
theorem Ready.flowStart {ch : Char} {t : Token} (h : Ready s depth ts (ch :: rest)) :
    ∃ s', s.flowStart t = .ok s' ∧ s'.cursor.rest = rest ∧ At s' (depth + 1) (t :: ts) rest ∧
      s'.keyAllowed = true := by
  obtain ⟨s₁, hadd, h₁, hcursor, -⟩ := h.toAt.exists_addCandidate
  obtain ⟨hrest, hcounted⟩ := h.skip
  have hskip : (s₁.skip 1).cursor = (s.skip 1).cursor := congrArg (Cursor.skip 1) hcursor
  rw [← hskip] at hrest hcounted
  have hat := h₁.emit t hrest hcounted true
  refine ⟨{ (s₁.skip 1).emit t with candidates := none :: s₁.candidates, keyAllowed := true },
    by rw [Lexer.flowStart, hadd]; rfl, hrest, ?_, rfl⟩
  exact
    { hat with
      candidates := congrArg (· + 1) hat.candidates
      free := fun k hk => h₁.free k (by simpa using hk) }

/-- A flow collection ends. -/
theorem Ready.flowEnd {ch : Char} {t : Token} (h : Ready s (depth + 1) ts (ch :: rest)) :
    ∃ s', s.flowEnd t = .ok s' ∧ s'.cursor.rest = rest ∧ At s' depth (t :: ts) rest := by
  obtain ⟨hrest, hcounted⟩ := h.skip
  have hlength := h.candidates
  obtain ⟨k, k', more, hk⟩ : ∃ k k' more, s.candidates = k :: k' :: more := by
    match hs : s.candidates with
    | [] => simp [hs] at hlength
    | [_] => simp [hs] at hlength
    | k :: k' :: more => exact ⟨k, k', more, rfl⟩
  rw [hk] at hlength
  refine ⟨{ (s.skip 1).emit t with candidates := k' :: more, keyAllowed := false }, ?_, hrest, ?_⟩
  · rw [Lexer.flowEnd, h.toAt.dropCandidate, hk]
    rfl
  · exact
      { h.toAt.emit t hrest hcounted false with
        candidates := by simpa using hlength
        free := fun k₁ hk₁ => h.free k₁ (by rw [hk]; exact List.mem_cons_of_mem _ hk₁) }

/-- The next item or entry of a flow collection comes. -/
theorem Ready.flowEntry {ch : Char} (h : Ready s depth ts (ch :: rest)) :
    ∃ s', s.flowEntry = .ok s' ∧ s'.cursor.rest = rest ∧ At s' depth (.flowEntry :: ts) rest ∧
      s'.keyAllowed = true := by
  obtain ⟨hrest, hcounted⟩ := h.skip
  let s₁ : Lexer := { s with candidates := none :: s.candidates.tail }
  have h₁ : At s₁ depth ts (ch :: rest) := h.toAt.withCandidate rfl
  refine ⟨{ (s₁.skip 1).emit .flowEntry with keyAllowed := true }, ?_, hrest,
    h₁.emit .flowEntry hrest hcounted true, rfl⟩
  rw [Lexer.flowEntry, h.toAt.dropCandidate]
  rfl

/-- The choice of a token by its first character. -/
theorem Ready.token_flow {ch : Char} (h : Ready s depth ts (ch :: rest))
    (hch : ch ∈ ['[', '{', ']', '}', ',']) :
    s.token ch rest =
      if ch = '[' then s.flowStart .flowSequenceStart
      else if ch = '{' then s.flowStart .flowMappingStart
      else if ch = ']' then s.flowEnd .flowSequenceEnd
      else if ch = '}' then s.flowEnd .flowMappingEnd
      else s.flowEntry := by
  have hne : ch ≠ '%' ∧ ch ≠ '-' ∧ ch ≠ '.' := by
    simp only [List.mem_cons, List.not_mem_nil, or_false] at hch
    obtain rfl | rfl | rfl | rfl | rfl := hch <;> decide
  unfold token
  rw [if_neg (fun hp => hne.1 hp.1), h.atTriple hne.2.1, h.atTriple hne.2.2]
  simp only [List.mem_cons, List.not_mem_nil, or_false] at hch
  obtain rfl | rfl | rfl | rfl | rfl := hch <;> rfl

theorem At.openList (h : At s depth ts ('[' :: rest)) :
    ∃ s', Runs s s' ∧ At s' (depth + 1) (.flowSequenceStart :: ts) rest ∧ s'.keyAllowed = true := by
  refine h.runs rfl fun s₁ h₁ _ => ?_
  obtain ⟨s', hs', hrest, hat⟩ := h₁.flowStart (t := .flowSequenceStart)
  exact ⟨s', by rw [h₁.token_flow (by simp)]; exact hs', by rw [hrest], hat⟩

theorem At.openMap (h : At s depth ts ('{' :: rest)) :
    ∃ s', Runs s s' ∧ At s' (depth + 1) (.flowMappingStart :: ts) rest ∧ s'.keyAllowed = true := by
  refine h.runs rfl fun s₁ h₁ _ => ?_
  obtain ⟨s', hs', hrest, hat⟩ := h₁.flowStart (t := .flowMappingStart)
  exact ⟨s', by rw [h₁.token_flow (by simp)]; exact hs', by rw [hrest], hat⟩

theorem At.closeList (h : At s (depth + 1) ts (']' :: rest)) :
    ∃ s', Runs s s' ∧ At s' depth (.flowSequenceEnd :: ts) rest := by
  refine h.runs rfl fun s₁ h₁ _ => ?_
  obtain ⟨s', hs', hrest, hat⟩ := h₁.flowEnd (t := .flowSequenceEnd)
  exact ⟨s', by rw [h₁.token_flow (by simp)]; exact hs', by rw [hrest], hat⟩

theorem At.closeMap (h : At s (depth + 1) ts ('}' :: rest)) :
    ∃ s', Runs s s' ∧ At s' depth (.flowMappingEnd :: ts) rest := by
  refine h.runs rfl fun s₁ h₁ _ => ?_
  obtain ⟨s', hs', hrest, hat⟩ := h₁.flowEnd (t := .flowMappingEnd)
  exact ⟨s', by rw [h₁.token_flow (by simp)]; exact hs', by rw [hrest], hat⟩

theorem At.comma (h : At s depth ts (',' :: rest)) :
    ∃ s', Runs s s' ∧ At s' depth (.flowEntry :: ts) rest ∧ s'.keyAllowed = true := by
  refine h.runs rfl fun s₁ h₁ _ => ?_
  obtain ⟨s', hs', hrest, hat⟩ := h₁.flowEntry
  exact ⟨s', by rw [h₁.token_flow (by simp)]; exact hs', by rw [hrest], hat⟩

/-- Blanks may be passed before what follows them. -/
theorem At.pass {gap : List Char} (h : At s depth ts (gap ++ rest)) (hgap : IsLayout gap) :
    At s depth ts rest := by
  obtain ⟨gap', hgap', hrest⟩ := h.before
  refine { h with before := ⟨gap' ++ gap, ?_, by rw [hrest, List.append_assoc]⟩ }
  intro c hc
  exact (List.mem_append.1 hc).elim (hgap' c) (hgap c)

/-- At the end of the text there is no further token. -/
theorem At.stop (h : At s depth ts []) : ∃ s', s.step = .ok (false, s') ∧ s'.tokens = ts := by
  obtain ⟨s₁, h₁, -, -, -, -, hstale⟩ := h.exists_ready (by simp)
  refine ⟨{ s₁ with candidates := none :: s₁.candidates.tail, keyAllowed := false }, ?_, h₁.tokens⟩
  unfold Lexer.step
  rw [hstale]
  simp only [bind, Except.bind]
  rw [endBlocks_of_outer h₁.outer, h₁.here]
  dsimp only
  rw [endDocument, endBlocks_of_outer h₁.outer, h₁.toAt.dropCandidate]
  rfl

end Lexer

end Storyboard.Yaml
