import Storyboard.Proofs.Program.Files
import Storyboard.Proofs.Yaml.Flow
import Storyboard.Proofs.Yaml.Number
import Storyboard.Proofs.Yaml.Quoted
import Storyboard.Yaml

/-!
# Storyboard.Proofs.Yaml.Spelling

A spelling of a JSON value as a flow collection, and the characters of its file.

* `Json.Spelling.flow` — the flow collection that a spelling is read as;
* `Json.Spelling.fits` — whether it is: in gaps no tab, between a name and its colon no line
  end and at most 1024 characters from the start of the name on, in strings only characters
  that a text may consist of, and none that ends a line;
* `Json.Spelling.unixLines_chars` — its characters, once every line ends with a line feed;
* `Json.Spelling.all_isAllowed` — they are characters that a text may consist of, if it fits.
-/

namespace Storyboard

open Yaml Content

namespace Json

/-! ## the flow collection of a spelling -/

/-- A word as a plain scalar. -/
def Word.leaf (w : Word) : Leaf := ⟨⟨w.chars, Bool.true⟩, w.yamlValue, w.read_plain⟩

/-- A number as a plain scalar. -/
def Literal.leaf (n : Literal) (v : Value) (h : n.value? = some v) : Leaf :=
  ⟨⟨n.chars, true⟩, n.yamlValue v, n.read_plain h⟩

/-- The text of a quoted scalar: two halves of a pair stay two. -/
def Pieces.yamlChars (ps : Pieces) : List Char := ps.flatMap Quoted.charsOf

/-- A string as a quoted scalar. -/
def Pieces.leaf (ps : Pieces) : Leaf :=
  ⟨⟨ps.yamlChars, false⟩, .text (String.ofList ps.yamlChars), rfl⟩

mutual

/-- The flow collection that a spelling is read as. -/
def Spelling.flow : Spelling → Flow
  | .word w => .leaf w.leaf
  | .number n v h => .leaf (n.leaf v h)
  | .string s => .leaf s.leaf
  | .noItems _ => .list []
  | .list _ items => .list items.flows
  | .noMembers _ => .map []
  | .object _ members => .map members.flows

/-- The flow collections of items. -/
def Items.flows : Items → List Flow
  | .last item _ => [item.flow]
  | .more item _ _ items => item.flow :: items.flows

/-- The key and the flow collection of a member. -/
def Member.flow : Member → List Char × Flow
  | .mk name _ _ value => (name.yamlChars, value.flow)

/-- The keys and the flow collections of members. -/
def Members.flows : Members → List (List Char × Flow)
  | .last member _ => [member.flow]
  | .more member _ _ members => member.flow :: members.flows

end

/-! ## the spellings that are read so -/

/-- Whether a gap has no tab. -/
def Gap.isLayout (g : Gap) : Bool := g.all (· != .tab)

/-- Whether a gap has spaces only. -/
def Gap.isFlat (g : Gap) : Bool := g.all (· == .space)

/-- Whether a part of a string is read by itself. -/
def Piece.fits : Piece → Bool
  | .char c _ => isAllowed c && !isBreak c
  | _ => true

mutual

/-- Whether a spelling is read as its flow collection. -/
def Spelling.fits : Spelling → Bool
  | .word _ | .number _ _ _ => true
  | .string s => s.all Piece.fits
  | .noItems gap | .noMembers gap => gap.isLayout
  | .list gap items => gap.isLayout && items.fits
  | .object gap members => gap.isLayout && members.fits

/-- The same for items. -/
def Items.fits : Items → Bool
  | .last item gap => item.fits && gap.isLayout
  | .more item gap next items => item.fits && gap.isLayout && next.isLayout && items.fits

/-- The same for a member: the colon has to be on the line of the name, and not too far away. -/
def Member.fits : Member → Bool
  | .mk name before after value =>
    name.all Piece.fits && before.isFlat &&
      decide (name.quoted.length + before.length ≤ keyReach) && after.isLayout && value.fits

/-- The same for members. -/
def Members.fits : Members → Bool
  | .last member gap => member.fits && gap.isLayout
  | .more member gap next members => member.fits && gap.isLayout && next.isLayout && members.fits

end

/-- Whether a document is read as a flow collection: it fits, and is not too deep. -/
def Document.fits (d : Document) : Bool :=
  d.before.isLayout && d.root.fits && d.after.isLayout &&
    decide (d.root.flow.depth ≤ Yaml.Document.depthLimit)

/-! ## line ends -/

theorem unixLines_append {cs rest : List Char} (h : ∀ c ∈ rest.head?, c ≠ '\n') :
    unixLines (cs ++ rest) = unixLines cs ++ unixLines rest := by
  induction cs using unixLines.induct with
  | case1 cs ih => simp [unixLines, ih]
  | case2 cs hne ih =>
    have hhead : ∀ more, cs ++ rest ≠ '\n' :: more := by
      intro more heq
      cases cs with
      | nil => exact h '\n' (by rw [List.nil_append] at heq; rw [heq]; rfl) rfl
      | cons c cs => exact hne cs (by rw [(List.cons.inj heq).1])
    rw [List.cons_append, unixLines_carriageReturn hne, unixLines_carriageReturn hhead, ih]
    rfl
  | case3 c cs hne hne' ih =>
    rw [List.cons_append, unixLines_cons hne', unixLines_cons hne', ih, List.cons_append]
  | case4 => rfl

/-- A gap with line feeds only at the ends of lines. -/
def Gap.unixChars (g : Gap) : List Char := unixLines g.chars

theorem isLayout_cons {c : Char} {cs : List Char} :
    IsLayout (c :: cs) ↔ (c = ' ' ∨ c = '\n') ∧ IsLayout cs := List.forall_mem_cons

theorem isLayout_unixLines {cs : List Char} (h : ∀ c ∈ cs, c = ' ' ∨ c = '\n' ∨ c = '\r') :
    IsLayout (unixLines cs) := by
  induction cs using unixLines.induct with
  | case1 cs ih =>
    rw [unixLines]
    exact isLayout_cons.2 ⟨.inr rfl, ih fun c hc => h c (by simp [hc])⟩
  | case2 cs hne ih =>
    rw [unixLines_carriageReturn hne]
    exact isLayout_cons.2 ⟨.inr rfl, ih fun c hc => h c (by simp [hc])⟩
  | case3 c cs hne hne' ih =>
    rw [unixLines_cons hne']
    have hc := h c List.mem_cons_self
    exact isLayout_cons.2 ⟨hc.imp_right fun hc => hc.resolve_right hne',
      ih fun c hc => h c (by simp [hc])⟩
  | case4 => exact fun c hc => by simp [unixLines] at hc

theorem Gap.isLayout_unixChars {g : Gap} (h : g.isLayout = true) : IsLayout g.unixChars := by
  refine isLayout_unixLines fun c hc => ?_
  obtain ⟨b, hb, rfl⟩ := List.mem_map.1 hc
  have htab := List.all_eq_true.1 h b hb
  cases b <;> simp [Blank.char] at htab ⊢

theorem Gap.unixChars_of_isFlat {g : Gap} (h : g.isFlat = true) :
    g.unixChars = List.replicate g.length ' ' := by
  induction g with
  | nil => rfl
  | cons b g ih =>
    simp only [Gap.isFlat, List.all_cons, Bool.and_eq_true, beq_iff_eq] at h
    obtain ⟨rfl, hg⟩ := h
    show unixLines (' ' :: Gap.chars g) = _
    rw [unixLines_cons (by decide), List.length_cons, List.replicate_succ]
    exact congrArg _ (ih hg)

theorem Gap.unixLines_append (g : Gap) {rest : List Char} (h : ∀ c ∈ rest.head?, isInk c = true) :
    unixLines (g.chars ++ rest) = g.unixChars ++ unixLines rest := by
  refine Json.unixLines_append fun c hc => ?_
  rintro rfl
  exact absurd (h _ hc) (by decide)

mutual

/-- The characters of a spelling with line feeds only at the ends of lines. -/
def Spelling.unixChars : Spelling → List Char
  | .word w => w.chars
  | .number n _ _ => n.chars
  | .string s => s.quoted
  | .noItems gap => '[' :: (gap.unixChars ++ [']'])
  | .list gap items => '[' :: (gap.unixChars ++ items.unixChars)
  | .noMembers gap => '{' :: (gap.unixChars ++ ['}'])
  | .object gap members => '{' :: (gap.unixChars ++ members.unixChars)

/-- The same for items. -/
def Items.unixChars : Items → List Char
  | .last item gap => item.unixChars ++ (gap.unixChars ++ [']'])
  | .more item gap next items =>
    item.unixChars ++ (gap.unixChars ++ ',' :: (next.unixChars ++ items.unixChars))

/-- The same for a member. -/
def Member.unixChars : Member → List Char
  | .mk name before after value =>
    name.quoted ++ (before.unixChars ++ ':' :: (after.unixChars ++ value.unixChars))

/-- The same for members. -/
def Members.unixChars : Members → List Char
  | .last member gap => member.unixChars ++ (gap.unixChars ++ ['}'])
  | .more member gap next members =>
    member.unixChars ++ (gap.unixChars ++ ',' :: (next.unixChars ++ members.unixChars))

end

mutual

/-- The line ends of a spelling are in its gaps. -/
theorem Spelling.unixLines_chars (t : Spelling) (rest : List Char) :
    unixLines (t.chars ++ rest) = t.unixChars ++ unixLines rest := by
  match t with
  | .word w => exact unixLines_append_of_notMem w.ne_carriageReturn rest
  | .number n _ _ => exact unixLines_append_of_notMem n.ne_carriageReturn rest
  | .string s => exact unixLines_append_of_notMem Pieces.ne_carriageReturn rest
  | .noItems gap =>
    simp only [Spelling.chars, Spelling.unixChars, List.cons_append, List.append_assoc,
      List.nil_append]
    rw [unixLines_cons (by decide), gap.unixLines_append (by simp [isInk]),
      unixLines_cons (by decide)]
  | .list gap items =>
    obtain ⟨c, cs, hitems, hink, -⟩ := items.exists_head rest
    simp only [Spelling.chars, Spelling.unixChars, List.cons_append, List.append_assoc]
    rw [unixLines_cons (by decide), gap.unixLines_append (by simp [hitems, hink]),
      items.unixLines_chars rest]
  | .noMembers gap =>
    simp only [Spelling.chars, Spelling.unixChars, List.cons_append, List.append_assoc,
      List.nil_append]
    rw [unixLines_cons (by decide), gap.unixLines_append (by simp [isInk]),
      unixLines_cons (by decide)]
  | .object gap members =>
    obtain ⟨cs, hmembers⟩ := members.exists_head rest
    simp only [Spelling.chars, Spelling.unixChars, List.cons_append, List.append_assoc]
    rw [unixLines_cons (by decide), gap.unixLines_append (by simp [hmembers, isInk]),
      members.unixLines_chars rest]

theorem Items.unixLines_chars (items : Items) (rest : List Char) :
    unixLines (items.chars ++ rest) = items.unixChars ++ unixLines rest := by
  match items with
  | .last item gap =>
    simp only [Items.chars, Items.unixChars, List.append_assoc, List.cons_append, List.nil_append]
    rw [item.unixLines_chars, gap.unixLines_append (by simp [isInk]), unixLines_cons (by decide)]
  | .more item gap next items =>
    obtain ⟨c, cs, hitems, hink, -⟩ := items.exists_head rest
    simp only [Items.chars, Items.unixChars, List.append_assoc, List.cons_append]
    rw [item.unixLines_chars, gap.unixLines_append (by simp [isInk]), unixLines_cons (by decide),
      next.unixLines_append (by simp [hitems, hink]), items.unixLines_chars rest]

theorem Member.unixLines_chars (member : Member) (rest : List Char) :
    unixLines (member.chars ++ rest) = member.unixChars ++ unixLines rest := by
  match member with
  | .mk name before after value =>
    obtain ⟨c, cs, hvalue, hink, -⟩ := value.exists_head rest
    simp only [Member.chars, Member.unixChars, List.append_assoc, List.cons_append]
    rw [unixLines_append_of_notMem Pieces.ne_carriageReturn,
      before.unixLines_append (by simp [isInk]), unixLines_cons (by decide),
      after.unixLines_append (by simp [hvalue, hink]),
      value.unixLines_chars rest]

theorem Members.unixLines_chars (members : Members) (rest : List Char) :
    unixLines (members.chars ++ rest) = members.unixChars ++ unixLines rest := by
  match members with
  | .last member gap =>
    simp only [Members.chars, Members.unixChars, List.append_assoc, List.cons_append,
      List.nil_append]
    rw [member.unixLines_chars, gap.unixLines_append (by simp [isInk]), unixLines_cons (by decide)]
  | .more member gap next members =>
    obtain ⟨cs, hmembers⟩ := members.exists_head rest
    simp only [Members.chars, Members.unixChars, List.append_assoc, List.cons_append]
    rw [member.unixLines_chars, gap.unixLines_append (by simp [isInk]), unixLines_cons (by decide),
      next.unixLines_append (by simp [hmembers, isInk]), members.unixLines_chars rest]

end

/-- The characters of a document with line feeds only at the ends of lines. -/
def Document.unixChars (d : Document) : List Char :=
  d.before.unixChars ++ (d.root.unixChars ++ d.after.unixChars)

theorem Document.unixLines_chars (d : Document) : unixLines d.chars = d.unixChars := by
  obtain ⟨c, cs, hroot, hink, -⟩ := d.root.exists_head d.after.chars
  rw [chars, d.before.unixLines_append (by simp [hroot, hink]), d.root.unixLines_chars]
  rfl

/-! ## the characters are allowed -/

theorem isAllowed_of_printable {c : Char} (h : 0x20 ≤ c.toNat ∧ c.toNat ≤ 0x7E) :
    isAllowed c = true := by
  simp [isAllowed, h]

theorem Gap.all_isAllowed {g : Gap} (h : g.isLayout = true) : g.unixChars.all isAllowed = true := by
  refine List.all_eq_true.2 fun c hc => ?_
  obtain rfl | rfl := Gap.isLayout_unixChars h c hc <;> decide

theorem Pieces.all_isAllowed {ps : Pieces} (h : ps.all Piece.fits = true) :
    ps.quoted.all isAllowed = true := by
  refine List.all_eq_true.2 fun c hc => ?_
  obtain ⟨hraw, hp⟩ | hc := cases_of_mem_quoted hc
  · have := List.all_eq_true.1 h _ hp
    simp only [Piece.fits, Bool.and_eq_true] at this
    exact this.1
  · exact isAllowed_of_printable hc

theorem Literal.all_isAllowed (n : Literal) : n.chars.all isAllowed = true := by
  refine List.all_eq_true.2 fun c hc => ?_
  obtain h | h := n.mem_chars hc
  · have hc := Number.toNat_of_isDigit h
    exact isAllowed_of_printable (by omega)
  · simp only [List.mem_cons, List.not_mem_nil, or_false] at h
    obtain rfl | rfl | rfl | rfl | rfl := h <;> decide

theorem Word.all_isAllowed (w : Word) : w.chars.all isAllowed = Bool.true := by
  cases w <;> decide

mutual

/-- A spelling that fits has no character that a text may not have. -/
theorem Spelling.all_isAllowed (t : Spelling) (h : t.fits = true) :
    t.unixChars.all isAllowed = true := by
  match t with
  | .word w => exact w.all_isAllowed
  | .number n _ _ => exact n.all_isAllowed
  | .string s => exact s.all_isAllowed h
  | .noItems gap =>
    simp only [Spelling.unixChars, List.all_cons, List.all_append, Gap.all_isAllowed h]
    decide
  | .list gap items =>
    simp only [Spelling.fits, Bool.and_eq_true] at h
    simp only [Spelling.unixChars, List.all_cons, List.all_append, Gap.all_isAllowed h.1,
      items.all_isAllowed h.2]
    decide
  | .noMembers gap =>
    simp only [Spelling.unixChars, List.all_cons, List.all_append, Gap.all_isAllowed h]
    decide
  | .object gap members =>
    simp only [Spelling.fits, Bool.and_eq_true] at h
    simp only [Spelling.unixChars, List.all_cons, List.all_append, Gap.all_isAllowed h.1,
      members.all_isAllowed h.2]
    decide

theorem Items.all_isAllowed (items : Items) (h : items.fits = true) :
    items.unixChars.all isAllowed = true := by
  match items with
  | .last item gap =>
    simp only [Items.fits, Bool.and_eq_true] at h
    simp only [Items.unixChars, List.all_cons, List.all_append, item.all_isAllowed h.1,
      Gap.all_isAllowed h.2]
    decide
  | .more item gap next items =>
    simp only [Items.fits, Bool.and_eq_true] at h
    obtain ⟨⟨⟨hitem, hgap⟩, hnext⟩, hitems⟩ := h
    simp only [Items.unixChars, List.all_cons, List.all_append, item.all_isAllowed hitem,
      Gap.all_isAllowed hgap, Gap.all_isAllowed hnext, items.all_isAllowed hitems]
    decide

theorem Member.all_isAllowed (member : Member) (h : member.fits = true) :
    member.unixChars.all isAllowed = true := by
  match member with
  | .mk name before after value =>
    simp only [Member.fits, Bool.and_eq_true] at h
    obtain ⟨⟨⟨⟨hname, hbefore⟩, -⟩, hafter⟩, hvalue⟩ := h
    have hspaces : before.unixChars.all isAllowed = true := by
      rw [Gap.unixChars_of_isFlat hbefore]
      exact List.all_eq_true.2 fun c hc => by rw [List.eq_of_mem_replicate hc]; decide
    simp only [Member.unixChars, List.all_cons, List.all_append, name.all_isAllowed hname, hspaces,
      Gap.all_isAllowed hafter, value.all_isAllowed hvalue]
    decide

theorem Members.all_isAllowed (members : Members) (h : members.fits = true) :
    members.unixChars.all isAllowed = true := by
  match members with
  | .last member gap =>
    simp only [Members.fits, Bool.and_eq_true] at h
    simp only [Members.unixChars, List.all_cons, List.all_append, member.all_isAllowed h.1,
      Gap.all_isAllowed h.2]
    decide
  | .more member gap next members =>
    simp only [Members.fits, Bool.and_eq_true] at h
    obtain ⟨⟨⟨hmember, hgap⟩, hnext⟩, hmembers⟩ := h
    simp only [Members.unixChars, List.all_cons, List.all_append, member.all_isAllowed hmember,
      Gap.all_isAllowed hgap, Gap.all_isAllowed hnext, members.all_isAllowed hmembers]
    decide

end

end Json

end Storyboard
