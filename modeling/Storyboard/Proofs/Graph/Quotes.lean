import Storyboard.Proofs.Graph.Caption

/-!
# Storyboard.Proofs.Graph.Quotes

The content of a drawn text never leaves its quotes.  The quotes are closed and opened again around
each single quote of the text, but while they are closed nothing stands bare, so whatever comes
after the content is read as if the content were not there.

* `content_eq_inTurn` — the four replacements of the escape, one after another, are one map of
  characters, although the later ones meet what the earlier ones put in;
* `original_content` — the text is found again in its content;
* `quoted_contentText` — what the reader of the graph makes of a content between its quotes.
-/

namespace Storyboard.Graph

namespace Escape

/-! ## one replacement after another -/

/-- A text with another in place of each occurrence of a character. -/
def replaced (c : Char) (text cs : List Char) : List Char :=
  cs.flatMap fun d => if d = c then text else [d]

/-- The content of a drawn text, by replacing one character after another. -/
def inTurn (cs : List Char) : List Char :=
  replaced '%' ['\\', '\\', '%'] <| replaced ':' ['\\', '\\', ':'] <|
    replaced '\'' ['\'', '\\', '\\', '\\', '\'', '\''] <|
    replaced '\\' ['\\', '\\', '\\', '\\'] cs

theorem replaced_append (c : Char) (text cs ds : List Char) :
    replaced c text (cs ++ ds) = replaced c text cs ++ replaced c text ds := by
  simp [replaced]

theorem inTurn_append (cs ds : List Char) : inTurn (cs ++ ds) = inTurn cs ++ inTurn ds := by
  simp only [inTurn, replaced_append]

theorem inTurn_singleton (c : Char) : inTurn [c] = contentChar c := by
  unfold contentChar
  by_cases hbackslash : c = '\\'
  · rw [hbackslash]
    rfl
  by_cases hquote : c = '\''
  · rw [hquote]
    rfl
  by_cases hcolon : c = ':'
  · rw [hcolon]
    rfl
  by_cases hpercent : c = '%'
  · rw [hpercent]
    rfl
  simp [inTurn, replaced, hbackslash, hquote, hcolon, hpercent]

/-- No replacement undoes or doubles what another one put in. -/
theorem content_eq_inTurn (cs : List Char) : content cs = inTurn cs := by
  induction cs with
  | nil => rfl
  | cons c cs ih =>
    have hcons : content (c :: cs) = contentChar c ++ content cs := rfl
    rw [hcons, ih, ← inTurn_singleton, ← inTurn_append, List.singleton_append]

/-! ## the text of a content -/

/-- The text that a content was made from. -/
def original : List Char → List Char
  | '\\' :: '\\' :: '\\' :: '\\' :: cs => '\\' :: original cs
  | '\\' :: '\\' :: c :: cs => c :: original cs
  | '\'' :: '\\' :: '\\' :: '\\' :: '\'' :: '\'' :: cs => '\'' :: original cs
  | c :: cs => c :: original cs
  | [] => []

theorem original_contentChar (c : Char) (cs : List Char) :
    original (contentChar c ++ cs) = c :: original cs := by
  unfold contentChar
  by_cases hbackslash : c = '\\'
  · rw [if_pos hbackslash, hbackslash]
    rfl
  by_cases hquote : c = '\''
  · rw [if_neg hbackslash, if_pos hquote, hquote]
    rfl
  by_cases hother : c = ':' ∨ c = '%'
  · rw [if_neg hbackslash, if_neg hquote, if_pos hother]
    rcases hother with rfl | rfl <;> rfl
  · rw [if_neg hbackslash, if_neg hquote, if_neg hother, List.singleton_append]
    exact original.eq_4 c cs (by simp_all) (by simp_all) (by simp_all)

/-- A text is found again in its content. -/
theorem original_content (cs : List Char) : original (content cs) = cs := by
  induction cs with
  | nil => rfl
  | cons c cs ih =>
    have hcons : content (c :: cs) = contentChar c ++ content cs := rfl
    rw [hcons, original_contentChar, ih]

theorem contentText_injective : Function.Injective contentText := by
  intro s t h
  have hcontent : content s.toList = content t.toList := String.ofList_injective h
  have horiginal := congrArg original hcontent
  rw [original_content, original_content] at horiginal
  exact String.toList_injective horiginal

end Escape

/-! ## between the quotes -/

/-- Of an escaped character nothing stands bare, not even where the quotes are closed. -/
theorem role_contentChar (c : Char) :
    ∀ m ∈ scan .quoted (Escape.contentChar c), m.role ≠ .bare := by
  unfold Escape.contentChar
  by_cases hbackslash : c = '\\'
  · rw [if_pos hbackslash]
    decide
  rw [if_neg hbackslash]
  by_cases hquote : c = '\''
  · rw [if_pos hquote]
    decide
  rw [if_neg hquote]
  by_cases hother : c = ':' ∨ c = '%'
  · rw [if_pos hother]
    rcases hother with rfl | rfl <;> decide
  · rw [if_neg hother]
    simp [Reading.role, hquote]

theorem role_content (cs : List Char) :
    ∀ m ∈ scan .quoted (Escape.content cs), m.role ≠ .bare := by
  induction cs with
  | nil => simp
  | cons c cs ih =>
    have hcons : Escape.content (c :: cs) = Escape.contentChar c ++ Escape.content cs := rfl
    rw [hcons, scan_append, (contentChar_quoted c).1, List.forall_mem_append]
    exact ⟨role_contentChar c, ih⟩

theorem role_quotedContent (cs : List Char) :
    ∀ m ∈ scan .plain (quotedContent cs), m.role ≠ .bare := by
  have hopen : scan .plain (quotedContent cs)
      = ⟨'\'', .guard⟩ :: scan .quoted (Escape.content cs ++ ['\'']) := rfl
  rw [hopen, scan_append, (content_quoted cs).1, List.forall_mem_cons, List.forall_mem_append]
  exact ⟨by simp, role_content cs, by simp [Reading.role]⟩

theorem toList_quoted (s : String) :
    ("'" ++ Escape.contentText s ++ "'").toList = quotedContent s.toList := by
  simp [quotedContent, Escape.contentText]

/-- A content between its quotes, which is made by replacing one character after another, ends
outside of quotes, so that the following text is read by itself; no character of it stands bare, a
separator or any other; and what it stands for is the text with a few characters protected.  Two
texts do not have the same content. -/
theorem quoted_contentText :
    (∀ (s : String) (rest : List Char),
      let quoted := ("'" ++ Escape.contentText s ++ "'").toList
      (Escape.contentText s).toList = Escape.inTurn s.toList ∧
      after .plain quoted = .plain ∧
      scan .plain (quoted ++ rest) = scan .plain quoted ++ scan .plain rest ∧
      (∀ m ∈ scan .plain quoted, m.role ≠ .bare) ∧
      decoded (scan .plain quoted) = s.toList.flatMap optionChar) ∧
    Function.Injective Escape.contentText := by
  refine ⟨fun s rest => ?_, Escape.contentText_injective⟩
  have hclosed := isClosed_quotedContent s.toList
  dsimp only
  rw [toList_quoted]
  refine ⟨?_, hclosed, hclosed.scan_append, role_quotedContent s.toList,
    unprotected_quotedContent s.toList⟩
  rw [Escape.contentText, String.toList_ofList, Escape.content_eq_inTurn]

/-- Around a single quote the quotes are closed and opened again, and the separator stays inside. -/
example : scan .plain (quotedContent ['\'', ';']) =
    [⟨'\'', .guard⟩, ⟨'\'', .guard⟩, ⟨'\\', .guard⟩, ⟨'\\', .kept⟩, ⟨'\\', .guard⟩, ⟨'\'', .kept⟩,
      ⟨'\'', .guard⟩, ⟨';', .kept⟩, ⟨'\'', .guard⟩] := by
  decide

end Storyboard.Graph
