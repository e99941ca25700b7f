import Storyboard.Proofs.Yaml.Compose
import Storyboard.Proofs.Yaml.Denote
import Storyboard.Proofs.Yaml.Scalar
import Storyboard.Proofs.Yaml.Spelling

/-!
# Storyboard.Proofs.Yaml.Reader

A JSON document that fits is read as its flow collection.

* `Json.Spelling.runs` — the lexer goes over a value, and leaves its tokens, by the recursion
  of spellings;
* `Json.Document.tokens_unixChars` — so the tokens of a document are those of its value;
* `Json.Document.read_unixChars` — and what is read is what they mean.
-/

namespace Storyboard

open Yaml

/-! ## tokens -/

namespace Yaml.Flow

/-- The tokens of items, up to the end of the list. -/
def innerTokens : List Flow → List Token
  | [] => [.flowSequenceEnd]
  | item :: items => item.tokens ++ itemTokens items

/-- The tokens of entries, up to the end of the mapping. -/
def innerEntryTokens : List (List Char × Flow) → List Token
  | [] => [.flowMappingEnd]
  | (key, value) :: entries =>
    .key :: keyToken key :: .value :: (value.tokens ++ entryTokens entries)

theorem tokens_list (items : List Flow) :
    (list items).tokens = .flowSequenceStart :: innerTokens items := by
  cases items <;> simp [tokens, innerTokens]

theorem tokens_map (entries : List (List Char × Flow)) :
    (map entries).tokens = .flowMappingStart :: innerEntryTokens entries := by
  cases entries <;> simp [tokens, innerEntryTokens]

theorem itemTokens_of_ne_nil {items : List Flow} (h : items ≠ []) :
    itemTokens items = .flowEntry :: innerTokens items := by
  cases items with
  | nil => exact absurd rfl h
  | cons item items => simp [itemTokens, innerTokens]

theorem entryTokens_of_ne_nil {entries : List (List Char × Flow)} (h : entries ≠ []) :
    entryTokens entries = .flowEntry :: innerEntryTokens entries := by
  cases entries with
  | nil => exact absurd rfl h
  | cons entry entries => simp [entryTokens, innerEntryTokens]

end Yaml.Flow

namespace Json

open Yaml.Lexer

variable {s : Lexer} {depth : Nat} {ts : List Token} {gap rest : List Char} {ch : Char}

theorem isFlat_of_fits {ps : Pieces} (h : ps.all Piece.fits = true) :
    ∀ p ∈ ps, Quoted.isFlat p = true := by
  intro p hp
  have := List.all_eq_true.1 h p hp
  cases p with
  | char c h =>
    simp only [Piece.fits, Bool.and_eq_true] at this
    exact this.2
  | escape => rfl
  | code => rfl

theorem Items.flows_ne_nil (items : Items) : items.flows ≠ [] := by
  cases items <;> simp [Items.flows]

theorem Members.flows_ne_nil (members : Members) : members.flows ≠ [] := by
  cases members <;> simp [Members.flows]

mutual

/-- A value inside a flow collection is read as its tokens. -/
theorem Spelling.runs (t : Spelling) (hfits : t.fits = true) {s : Lexer} {depth : Nat}
    {ts : List Token} {gap rest : List Char} {ch : Char}
    (h : At s (depth + 1) ts (t.unixChars ++ (gap ++ ch :: rest))) (hgap : IsLayout gap)
    (hch : isClosing ch = true) :
    ∃ s', Runs s s' ∧ At s' (depth + 1) (t.flow.tokens.reverse ++ ts) (ch :: rest) := by
  match t with
  | .word w => exact h.word w.isWord_chars hgap hch
  | .number n _ _ => exact h.word n.isWord_chars hgap hch
  | .string ps =>
    obtain ⟨s', hruns, h', -⟩ := h.string (isFlat_of_fits hfits)
    exact ⟨s', hruns, h'.pass hgap⟩
  | .noItems inner =>
    simp only [Spelling.unixChars, List.cons_append, List.append_assoc, List.nil_append] at h
    obtain ⟨s₁, hruns₁, h₁, -⟩ := h.openList
    obtain ⟨s₂, hruns₂, h₂⟩ := (h₁.pass (Gap.isLayout_unixChars hfits)).closeList
    exact ⟨s₂, hruns₁.trans hruns₂, h₂.pass hgap⟩
  | .list inner items =>
    simp only [Spelling.unixChars, List.cons_append, List.append_assoc] at h
    simp only [Spelling.fits, Bool.and_eq_true] at hfits
    obtain ⟨s₁, hruns₁, h₁, -⟩ := h.openList
    obtain ⟨s₂, hruns₂, h₂⟩ := items.runs hfits.2 (h₁.pass (Gap.isLayout_unixChars hfits.1))
    refine ⟨s₂, hruns₁.trans hruns₂, ?_⟩
    simp only [Spelling.flow, Flow.tokens_list, List.reverse_cons, List.append_assoc]
    exact h₂.pass hgap
  | .noMembers inner =>
    simp only [Spelling.unixChars, List.cons_append, List.append_assoc, List.nil_append] at h
    obtain ⟨s₁, hruns₁, h₁, -⟩ := h.openMap
    obtain ⟨s₂, hruns₂, h₂⟩ := (h₁.pass (Gap.isLayout_unixChars hfits)).closeMap
    exact ⟨s₂, hruns₁.trans hruns₂, h₂.pass hgap⟩
  | .object inner members =>
    simp only [Spelling.unixChars, List.cons_append, List.append_assoc] at h
    simp only [Spelling.fits, Bool.and_eq_true] at hfits
    obtain ⟨s₁, hruns₁, h₁, hkey⟩ := h.openMap
    obtain ⟨s₂, hruns₂, h₂⟩ :=
      members.runs hfits.2 (h₁.pass (Gap.isLayout_unixChars hfits.1)) hkey
    refine ⟨s₂, hruns₁.trans hruns₂, ?_⟩
    simp only [Spelling.flow, Flow.tokens_map, List.reverse_cons, List.append_assoc]
    exact h₂.pass hgap

/-- Items are read as their tokens, up to the end of the list. -/
theorem Items.runs (items : Items) (hfits : items.fits = true) {s : Lexer} {depth : Nat}
    {ts : List Token} {rest : List Char} (h : At s (depth + 1) ts (items.unixChars ++ rest)) :
    ∃ s', Runs s s' ∧ At s' depth ((Flow.innerTokens items.flows).reverse ++ ts) rest := by
  match items with
  | .last item gap =>
    simp only [Items.unixChars, List.cons_append, List.append_assoc, List.nil_append] at h
    simp only [Items.fits, Bool.and_eq_true] at hfits
    obtain ⟨s₁, hruns₁, h₁⟩ := item.runs hfits.1 h (Gap.isLayout_unixChars hfits.2) rfl
    obtain ⟨s₂, hruns₂, h₂⟩ := h₁.closeList
    refine ⟨s₂, hruns₁.trans hruns₂, ?_⟩
    simpa [Items.flows, Flow.innerTokens, Flow.itemTokens] using h₂
  | .more item gap next items =>
    simp only [Items.unixChars, List.cons_append, List.append_assoc] at h
    simp only [Items.fits, Bool.and_eq_true] at hfits
    obtain ⟨⟨⟨hitem, hgap⟩, hnext⟩, hitems⟩ := hfits
    obtain ⟨s₁, hruns₁, h₁⟩ := item.runs hitem h (Gap.isLayout_unixChars hgap) rfl
    obtain ⟨s₂, hruns₂, h₂, -⟩ := h₁.comma
    obtain ⟨s₃, hruns₃, h₃⟩ := items.runs hitems (h₂.pass (Gap.isLayout_unixChars hnext))
    refine ⟨s₃, (hruns₁.trans hruns₂).trans hruns₃, ?_⟩
    simpa [Items.flows, Flow.innerTokens, Flow.itemTokens_of_ne_nil items.flows_ne_nil] using h₃

/-- A member is read as its tokens. -/
theorem Member.runs (member : Member) (hfits : member.fits = true) {s : Lexer} {depth : Nat}
    {ts : List Token} {gap rest : List Char} {ch : Char}
    (h : At s (depth + 1) ts (member.unixChars ++ (gap ++ ch :: rest)))
    (hkey : s.keyAllowed = true) (hgap : IsLayout gap) (hch : isClosing ch = true) :
    ∃ s', Runs s s' ∧ At s' (depth + 1) (member.flow.2.tokens.reverse ++
      .value :: Flow.keyToken member.flow.1 :: .key :: ts) (ch :: rest) := by
  match member with
  | .mk name before after value =>
    simp only [Member.unixChars, List.cons_append, List.append_assoc] at h
    simp only [Member.fits, Bool.and_eq_true, decide_eq_true_eq] at hfits
    obtain ⟨⟨⟨⟨hname, hbefore⟩, hnear⟩, hafter⟩, hvalue⟩ := hfits
    rw [Gap.unixChars_of_isFlat hbefore] at h
    obtain ⟨s₁, hruns₁, h₁⟩ := h.key hkey (isFlat_of_fits hname)
      (fun c hc => List.eq_of_mem_replicate hc) (by rw [List.length_replicate]; exact hnear)
    obtain ⟨s₂, hruns₂, h₂⟩ := value.runs hvalue (h₁.pass (Gap.isLayout_unixChars hafter)) hgap hch
    exact ⟨s₂, hruns₁.trans hruns₂, h₂⟩

/-- Members are read as their tokens, up to the end of the mapping. -/
theorem Members.runs (members : Members) (hfits : members.fits = true) {s : Lexer} {depth : Nat}
    {ts : List Token} {rest : List Char} (h : At s (depth + 1) ts (members.unixChars ++ rest))
    (hkey : s.keyAllowed = true) :
    ∃ s', Runs s s' ∧ At s' depth ((Flow.innerEntryTokens members.flows).reverse ++ ts) rest := by
  match members with
  | .last member gap =>
    simp only [Members.unixChars, List.cons_append, List.append_assoc, List.nil_append] at h
    simp only [Members.fits, Bool.and_eq_true] at hfits
    obtain ⟨s₁, hruns₁, h₁⟩ := member.runs hfits.1 h hkey (Gap.isLayout_unixChars hfits.2) rfl
    obtain ⟨s₂, hruns₂, h₂⟩ := h₁.closeMap
    refine ⟨s₂, hruns₁.trans hruns₂, ?_⟩
    simpa [Members.flows, Flow.innerEntryTokens, Flow.entryTokens] using h₂
  | .more member gap next members =>
    simp only [Members.unixChars, List.cons_append, List.append_assoc] at h
    simp only [Members.fits, Bool.and_eq_true] at hfits
    obtain ⟨⟨⟨hmember, hgap⟩, hnext⟩, hmembers⟩ := hfits
    obtain ⟨s₁, hruns₁, h₁⟩ := member.runs hmember h hkey (Gap.isLayout_unixChars hgap) rfl
    obtain ⟨s₂, hruns₂, h₂, hkey₂⟩ := h₁.comma
    obtain ⟨s₃, hruns₃, h₃⟩ :=
      members.runs hmembers (h₂.pass (Gap.isLayout_unixChars hnext)) hkey₂
    refine ⟨s₃, (hruns₁.trans hruns₂).trans hruns₃, ?_⟩
    simpa [Members.flows, Flow.innerEntryTokens,
      Flow.entryTokens_of_ne_nil members.flows_ne_nil] using h₃

end

/-! ## documents -/

/-- An object is read as its tokens, also outside of flow collections. -/
theorem Spelling.runs_map {t : Spelling} {entries : Entries} (hmap : t.value = .map entries)
    (hfits : t.fits = true) (h : At s depth ts (t.unixChars ++ rest)) :
    ∃ s', Runs s s' ∧ At s' depth (t.flow.tokens.reverse ++ ts) rest := by
  match t with
  | .noMembers inner =>
    simp only [Spelling.unixChars, List.cons_append, List.append_assoc, List.nil_append] at h
    obtain ⟨s₁, hruns₁, h₁, -⟩ := h.openMap
    obtain ⟨s₂, hruns₂, h₂⟩ := (h₁.pass (Gap.isLayout_unixChars hfits)).closeMap
    exact ⟨s₂, hruns₁.trans hruns₂, h₂⟩
  | .object inner members =>
    simp only [Spelling.unixChars, List.cons_append, List.append_assoc] at h
    simp only [Spelling.fits, Bool.and_eq_true] at hfits
    obtain ⟨s₁, hruns₁, h₁, hkey⟩ := h.openMap
    obtain ⟨s₂, hruns₂, h₂⟩ :=
      members.runs hfits.2 (h₁.pass (Gap.isLayout_unixChars hfits.1)) hkey
    refine ⟨s₂, hruns₁.trans hruns₂, ?_⟩
    simp only [Spelling.flow, Flow.tokens_map, List.reverse_cons, List.append_assoc]
    exact h₂
  | .word w => cases w <;> simp [Spelling.value, Word.value] at hmap
  | .number n v hv =>
    obtain rfl : v = .map entries := hmap
    unfold Literal.value? at hv
    split at hv <;> simp at hv
  | .string _ | .noItems _ | .list _ _ => simp [Spelling.value] at hmap

/-- The tokens of a document are those of its flow collection. -/
theorem Document.tokens_unixChars {d : Document} {entries : Entries} (hmap : d.value = .map entries)
    (hfits : d.fits = true) : tokens d.unixChars = ⟨d.root.flow.tokens, none⟩ := by
  simp only [fits, Bool.and_eq_true] at hfits
  obtain ⟨⟨⟨hbefore, hroot⟩, hafter⟩, -⟩ := hfits
  have hstart : At { cursor := .ofChars d.unixChars } 0 []
      (d.root.unixChars ++ d.after.unixChars) :=
    { before := ⟨d.before.unixChars, Gap.isLayout_unixChars hbefore, rfl⟩
      counted := Cursor.counted_ofChars _
      tokens := rfl
      candidates := rfl
      free := by simp
      level := rfl
      outer := rfl }
  obtain ⟨s', ⟨n, hn, hrun⟩, h'⟩ := Spelling.runs_map hmap hroot hstart
  rw [← List.append_nil d.after.unixChars] at h'
  obtain ⟨s'', hstop, htokens⟩ := (h'.pass (Gap.isLayout_unixChars hafter)).stop
  -- There are as many steps as characters, and one more for the end.
  obtain ⟨fuel, hfuel⟩ : ∃ fuel, d.unixChars.length + 1 = fuel + 1 + n :=
    ⟨d.unixChars.length - n, by
      have : n + _ ≤ d.unixChars.length := hn
      omega⟩
  rw [Yaml.tokens, hfuel, hrun, run, hstop]
  simp [htokens]

/-- A document that fits is read as its flow collection. -/
theorem Document.read_unixChars {d : Document} {entries : Entries} (hmap : d.value = .map entries)
    (hfits : d.fits = true) : Yaml.read d.unixChars = .ok d.root.flow.value := by
  have htokens := d.tokens_unixChars hmap hfits
  simp only [fits, Bool.and_eq_true, decide_eq_true_eq] at hfits
  obtain ⟨⟨⟨hbefore, hroot⟩, hafter⟩, hdepth⟩ := hfits
  have hallowed : d.unixChars.all isAllowed = true := by
    simp [unixChars, Gap.all_isAllowed hbefore, Gap.all_isAllowed hafter,
      d.root.all_isAllowed hroot]
  unfold Yaml.read
  rw [if_pos hallowed, htokens, Document.Compose.ofTokens?_flow _ hdepth]
  exact Flow.value_document _

end Json

end Storyboard
