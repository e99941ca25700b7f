import Storyboard.Proofs.Yaml.Flow
import Storyboard.Proofs.Yaml.Place
import Storyboard.Proofs.Yaml.Quoted
import Storyboard.Proofs.Yaml.Word

/-!
# Storyboard.Proofs.Yaml.Scalar

The scalars of a text that has flow collections only: one step of the lexer for each.

* `Lexer.At.word` — a word is a plain scalar;
* `Lexer.At.string` — a JSON string is a quoted scalar, and a candidate for a key;
* `Lexer.At.key` — with a colon on the same line, and not too far away, it is a key.
-/

namespace Storyboard.Yaml

open Json

namespace Cursor

theorem atTriple_of_second {c : Cursor} {first second ch : Char} {rest : List Char}
    (h : c.rest = first :: second :: rest) (hne : second ≠ ch) : c.atTriple ch = false := by
  unfold atTriple
  rw [h]
  cases rest <;> simp [hne]

end Cursor

namespace Lexer

variable {s : Lexer} {depth : Nat} {ts : List Token} {rest : List Char}

/-! ## words -/

/-- A word is a plain scalar. -/
theorem Ready.token_word {ch : Char} (h : Ready s depth ts (ch :: rest))
    (hword : startsWord (ch :: rest) = true) : s.token ch rest = s.plain := by
  obtain ⟨c, more, heq, -, halpha | ⟨rfl, d, more', rfl, halpha⟩⟩ := startsWord_cases hword
  · obtain ⟨rfl, rfl⟩ := List.cons.inj heq
    have hmark := notMem_of_isAlphanum ('.' :: indicators) (by decide) halpha
    have hne (x : Char) (hx : x ∈ '.' :: indicators) : ch ≠ x := fun h => hmark (h ▸ hx)
    have hstarts : startsPlain s.inFlow ch rest = true := by
      have hgap : isGap ch = false := by
        have := (isInk_iff.1 (isInk_of_isAlphanum halpha)).1
        simp [isGap, isSpacing, this]
      have hcontains : indicators.contains ch = false := by
        simpa using fun hx => hmark (List.mem_cons_of_mem _ hx)
      rw [startsPlain, hgap, hcontains]
      rfl
    unfold token
    rw [h.atTriple (hne '-' (by decide)), h.atTriple (hne '.' (by decide))]
    simp only [hne '%' (by decide), hne '[' (by decide), hne '{' (by decide), hne ']' (by decide),
      hne '}' (by decide), hne ',' (by decide), hne '-' (by decide), hne '?' (by decide),
      hne ':' (by decide), hne '*' (by decide), hne '&' (by decide), hne '!' (by decide),
      hne '|' (by decide), hne '>' (by decide), hne '\'' (by decide), hne '"' (by decide), hstarts,
      false_and, if_false, if_true, Bool.false_eq_true]
  · obtain ⟨rfl, rfl⟩ := List.cons.inj heq
    have hgap : isGap d = false := by
      have := (isInk_iff.1 (isInk_of_isAlphanum halpha)).1
      simp [isGap, isSpacing, this]
    have hminus : d ≠ '-' := by
      rintro rfl
      exact absurd halpha (by decide)
    have halone : endsBefore isGap (d :: more') = false := hgap
    unfold token
    rw [Cursor.atTriple_of_second h.here hminus, h.atTriple (by decide)]
    simp [halone, startsPlain]

/-- A word in a flow collection is a token, if a mark of the collection comes next. -/
theorem At.word {word gap : List Char} {ch : Char}
    (h : At s (depth + 1) ts (word ++ (gap ++ ch :: rest))) (hword : isWord word = true)
    (hgap : IsLayout gap) (hch : isClosing ch = true) :
    ∃ s', Runs s s' ∧ At s' (depth + 1) (.scalar ⟨word, true⟩ :: ts) (ch :: rest) := by
  simp only [isWord, Bool.and_eq_true] at hword
  obtain ⟨c, more, rfl, hink, -⟩ := startsWord_cases hword.1
  refine h.runs hink fun s₁ h₁ _ => ?_
  have hstarts : startsWord (c :: (more ++ (gap ++ ch :: rest))) = true :=
    startsWord_append hword.1 _
  obtain ⟨s₂, hadd, h₂, hcursor, -⟩ := h₁.toAt.exists_addCandidate
  have hrest : s₂.cursor.rest = (c :: more) ++ (gap ++ ch :: rest) := by
    rw [hcursor, h₁.here]
    rfl
  obtain ⟨crossed, hread⟩ := Plain.read_word s₂.level h₂.counted hword.2 hgap hrest hch
  have hafter : (s₂.cursor.skip ((c :: more) ++ gap).length).rest = ch :: rest := by
    rw [← List.append_assoc] at hrest
    exact Cursor.rest_skip_append hrest
  have hflow : s₂.inFlow = true := by rw [h₂.inFlow]; simp
  refine ⟨{ s₂.emit (.scalar ⟨c :: more, true⟩) with
    cursor := s₂.cursor.skip ((c :: more) ++ gap).length, keyAllowed := crossed }, ?_, ?_, ?_⟩
  · rw [h₁.token_word hstarts, plain, hadd]
    simp only [bind, Except.bind, hflow, hread]
    rfl
  · show (s₂.cursor.skip _).rest.length ≤ (more ++ (gap ++ ch :: rest)).length
    rw [hafter]
    simp only [List.length_append]
    omega
  · exact h₂.emit _ hafter (Cursor.counted_skip h₂.counted _) crossed

/-! ## strings -/

theorem Ready.token_quote (h : Ready s depth ts ('"' :: rest)) :
    s.token '"' rest = s.quoted true := by
  unfold token
  rw [h.atTriple (by decide), h.atTriple (by decide)]
  rfl

/-- A string is one token.  If a key may stand there, the string is a candidate for one. -/
theorem At.string {ps : Pieces} (h : At s depth ts (ps.quoted ++ rest))
    (hflat : ∀ p ∈ ps, Quoted.isFlat p = true) :
    ∃ s', Runs s s' ∧ At s' depth (.scalar ⟨ps.flatMap Quoted.charsOf, false⟩ :: ts) rest ∧
      s'.cursor.rest = rest ∧ ∃ start : Lexer, start.cursor.rest = ps.quoted ++ rest ∧
        s'.cursor = start.cursor.skip ps.quoted.length ∧ s'.count = start.count + 1 ∧
        (0 < depth → s.keyAllowed = true → s'.candidates.head? = some (some start.here)) := by
  refine h.runs rfl fun start hstart hallowed => ?_
  let t : Token := .scalar ⟨ps.flatMap Quoted.charsOf, false⟩
  obtain ⟨s₂, hadd, h₂, hcursor, hcount, hcandidate⟩ := hstart.toAt.exists_addCandidate
  have hread := Quoted.read_quoted ps hflat h₂.counted (by rw [hcursor]; exact hstart.here)
  have hafter : (s₂.cursor.skip ps.quoted.length).rest = rest :=
    Cursor.rest_skip_append (by rw [hcursor]; exact hstart.here)
  refine ⟨{ s₂.emit t with cursor := s₂.cursor.skip ps.quoted.length, keyAllowed := false },
    ?_, ?_, ?_, hafter, start, hstart.here,
    congrArg (Cursor.skip ps.quoted.length) hcursor, congrArg (· + 1) hcount,
    fun hdepth hkey => hcandidate ((hallowed hdepth).trans hkey)⟩
  · rw [hstart.token_quote, quoted, node, hadd]
    simp only [bind, Except.bind, hread]
    rfl
  · show (s₂.cursor.skip _).rest.length ≤ ((ps.chars ++ ['"']).append rest).length
    rw [hafter]
    simp
    omega
  · exact h₂.emit t hafter (Cursor.counted_skip h₂.counted _) false

/-- A string whose parts end no line ends none. -/
theorem isBreak_of_mem_quoted {ps : Pieces} (hflat : ∀ p ∈ ps, Quoted.isFlat p = true)
    {c : Char} (hc : c ∈ ps.quoted) : isBreak c = false := by
  have hascii {c : Char} (h : 0x20 ≤ c.toNat ∧ c.toNat ≤ 0x7E) : isBreak c = false := by
    rw [← Bool.not_eq_true]
    intro hbreak
    simp only [isBreak, Bool.or_eq_true, beq_iff_eq] at hbreak
    obtain ((rfl | rfl) | rfl) | rfl := hbreak <;> exact absurd h (by decide)
  obtain ⟨h, hp⟩ | h := Pieces.cases_of_mem_quoted hc
  · simpa [Quoted.isFlat] using hflat _ hp
  · exact hascii h

/-! ## keys -/

/-- A candidate that is not too far away stays one. -/
theorem head?_kept {k : Candidate} (h : s.candidates.head? = some (some k))
    (hfresh : s.isFresh k = true) : s.kept.head? = some (some k) := by
  rw [kept, List.head?_map, h]
  simp [hfresh]

/-- The place after a colon that makes the token before it a key. -/
def keyed (s : Lexer) (t : Token) (ts : List Token) (around : List (Option Candidate)) : Lexer :=
  { s with
    cursor := s.cursor.next, tokens := .value :: t :: .key :: ts, count := s.count + 2
    candidates := none :: around, keyAllowed := false }

/-- A colon makes the token before it a key, if that token is a candidate for one. -/
theorem value_of_candidate {t : Token} {k : Candidate} {around : List (Option Candidate)}
    (hflow : s.inFlow = true) (hk : s.candidates = some k :: around)
    (hplace : s.count = k.place + 1) (htokens : s.tokens = t :: ts) :
    s.value = .ok (s.keyed t ts around) := by
  have hlater : s.count - k.place = 1 := by omega
  have hflow' : ({ s with candidates := none :: around } : Lexer).inFlow = true := by
    rw [Lexer.inFlow, hk] at hflow
    exact hflow
  unfold value
  rw [hk]
  dsimp only [emitAt, Lexer.inFlow] at hflow' ⊢
  simp only [hflow', if_true, hlater, htokens]
  rfl

/-- The colon after a string makes it a key, if the string is a candidate for one that is not too
far away. -/
theorem At.colon {t : Token} {k : Candidate} {gap : List Char}
    (h : At s (depth + 1) (t :: ts) (':' :: rest)) (hgap : s.cursor.rest = gap ++ ':' :: rest)
    (hspaces : ∀ c ∈ gap, c = ' ') (hk : s.candidates.head? = some (some k))
    (hplace : s.count = k.place + 1) (hline : k.line = s.cursor.line)
    (hnear : s.cursor.index + gap.length ≤ k.index + keyReach) :
    ∃ s', Runs s s' ∧ At s' (depth + 1) (.value :: t :: .key :: ts) rest := by
  obtain ⟨s₁, h₁, -, hcursor, hcandidates, hcount, hstep⟩ := h.step rfl
  obtain ⟨hindex, hline'⟩ := Cursor.skip_of_line hgap fun c hc => by rw [hspaces c hc]; rfl
  rw [← hcursor gap hgap] at hindex hline'
  have hfresh : s₁.isFresh k = true := by
    simp only [isFresh, hline, hline', beq_self_eq_true, Bool.true_and, decide_eq_true_eq]
    exact hindex.trans hnear
  obtain ⟨around, hk₁⟩ : ∃ around, s₁.candidates = some k :: around := by
    rw [hcandidates]
    exact List.head?_eq_some_iff.1 (head?_kept hk hfresh)
  obtain ⟨hrest, hcounted⟩ := h₁.skip
  have hflow : s₁.inFlow = true := by rw [h₁.toAt.inFlow]; simp
  have hvalue : s₁.value = .ok (s₁.keyed t ts around) :=
    value_of_candidate hflow hk₁ (hcount.trans hplace) h₁.tokens
  have htoken : s₁.token ':' rest = s₁.value := by
    unfold token
    rw [h₁.atTriple (by decide), h₁.atTriple (by decide), hflow]
    rfl
  refine ⟨s₁.keyed t ts around, Runs.of_step (by rw [hstep, htoken, hvalue]; rfl) ?_, ?_⟩
  · show s₁.cursor.next.rest.length < _
    rw [show s₁.cursor.next.rest = rest from hrest, hgap]
    simp only [List.length_append, List.length_cons]
    omega
  · exact
      { before := ⟨[], by simp [IsLayout], hrest⟩
        counted := hcounted
        tokens := rfl
        candidates := by
          have := h₁.candidates
          rw [hk₁] at this
          exact this
        free := fun k' hk' => h₁.free k' (by
          rw [hk₁]
          exact List.mem_cons_of_mem _ (by simpa [keyed] using hk'))
        level := h₁.level
        outer := h₁.outer }

/-- A string and the colon after it make up a key. -/
theorem At.key {ps : Pieces} {gap : List Char}
    (h : At s (depth + 1) ts (ps.quoted ++ (gap ++ ':' :: rest))) (hkey : s.keyAllowed = true)
    (hflat : ∀ p ∈ ps, Quoted.isFlat p = true) (hspaces : ∀ c ∈ gap, c = ' ')
    (hnear : ps.quoted.length + gap.length ≤ keyReach) :
    ∃ s', Runs s s' ∧
      At s' (depth + 1) (.value :: Flow.keyToken (ps.flatMap Quoted.charsOf) :: .key :: ts) rest := by
  obtain ⟨s₁, hruns, h₁, hrest, start, hstart, hcursor, hcount, hcandidate⟩ := h.string hflat
  obtain ⟨hindex, hline⟩ := Cursor.skip_of_line hstart fun c hc => isBreak_of_mem_quoted hflat hc
  rw [← hcursor] at hindex hline
  have hcolon : At s₁ (depth + 1) (Flow.keyToken (ps.flatMap Quoted.charsOf) :: ts) (':' :: rest) :=
    { h₁ with before := ⟨gap, fun c hc => .inl (hspaces c hc), hrest⟩ }
  obtain ⟨s₂, hruns', h₂⟩ := hcolon.colon hrest hspaces
    (hcandidate (Nat.succ_pos depth) hkey) hcount hline.symm
    (by simp only [here]; omega)
  exact ⟨s₂, hruns.trans hruns', h₂⟩

end Lexer

end Storyboard.Yaml
