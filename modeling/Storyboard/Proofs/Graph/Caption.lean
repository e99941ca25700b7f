import Storyboard.Proofs.Compile.Filters
import Storyboard.Proofs.Graph.Scan

/-!
# Storyboard.Proofs.Graph.Caption

What the engine draws for a text layer.  The content of a text goes through three readers:
the reader of the graph takes the outer protection away, the reader of the options takes
protection away once more and ends the value at the first bare colon, and the writer of the
text takes a backslash as protection for the last time and would expand what follows a bare
percent sign.

A backslash, a single quote and a percent sign come through as what they are.  A colon has
one backslash too many: the second reader takes the two in front of it for a backslash that
is drawn, and ends the caption at the colon.

* `caption_eq_some_iff` — a caption is drawn as it was given exactly if it has no colon.
-/

namespace Storyboard.Graph

/-! ## the three readers -/

/-- The text that the reader of the graph hands on. -/
def unprotected (cs : List Char) : List Char := decoded (scan .plain cs)

/-- The mark at which the reader of the options ends a value. -/
def colon : Mark := ⟨':', .bare⟩

/-- The value that the reader of the options finds, and what is left. -/
def optionValue (cs : List Char) : List Char × List Char :=
  (decoded ((scan .plain cs).takeWhile (· ≠ colon)), raw ((scan .plain cs).dropWhile (· ≠ colon)))

/-- The text that is drawn, unless an expansion starts in it. -/
def expanded : List Char → Option (List Char)
  | [] => some []
  | '\\' :: c :: cs => (expanded cs).map (c :: ·)
  | c :: cs => if c = '%' then none else (expanded cs).map (c :: ·)

/-- What is drawn for the value of a text option that starts a text, and what is left for
the other options. -/
def caption (cs : List Char) : Option (List Char) × List Char :=
  (expanded (optionValue (unprotected cs)).1, (optionValue (unprotected cs)).2)

/-! ## the reader of the graph -/

/-- What is left of a character of a content for the reader of the options. -/
def optionChar (c : Char) : List Char :=
  if c = '\\' then ['\\', '\\', '\\', '\\']
  else if c = '\'' then ['\\', '\'']
  else if c = ':' ∨ c = '%' then ['\\', '\\', c]
  else [c]

variable {c : Char} {cs ds : List Char}

theorem unprotected_append (h : IsClosed cs) :
    unprotected (cs ++ ds) = unprotected cs ++ unprotected ds := by
  rw [unprotected, h.scan_append, decoded_append]
  rfl

/-- An escaped character leaves the reader inside the quotes, and is handed on. -/
theorem contentChar_quoted (c : Char) :
    after .quoted (Escape.contentChar c) = .quoted ∧
      decoded (scan .quoted (Escape.contentChar c)) = optionChar c := by
  unfold Escape.contentChar optionChar
  by_cases hbackslash : c = '\\'
  · rw [if_pos hbackslash, if_pos hbackslash]
    decide
  rw [if_neg hbackslash, if_neg hbackslash]
  by_cases hquote : c = '\''
  · rw [if_pos hquote, if_pos hquote]
    decide
  rw [if_neg hquote, if_neg hquote]
  by_cases hother : c = ':' ∨ c = '%'
  · rw [if_pos hother]
    rcases hother with rfl | rfl <;> decide
  · rw [if_neg hother]
    simp [Reading.next, Reading.role, hquote, decoded, raw]

theorem content_quoted (cs : List Char) :
    after .quoted (Escape.content cs) = .quoted ∧
      decoded (scan .quoted (Escape.content cs)) = cs.flatMap optionChar := by
  induction cs with
  | nil => exact ⟨rfl, rfl⟩
  | cons c cs ih =>
    have hcons : Escape.content (c :: cs) = Escape.contentChar c ++ Escape.content cs := rfl
    obtain ⟨hafter, hdecoded⟩ := contentChar_quoted c
    rw [hcons, after_append, scan_append, decoded_append, hafter, hdecoded, ih.1, ih.2]
    exact ⟨rfl, rfl⟩

/-- The content of a text between its quotes. -/
def quotedContent (cs : List Char) : List Char := '\'' :: (Escape.content cs ++ ['\''])

theorem isClosed_quotedContent (cs : List Char) : IsClosed (quotedContent cs) := by
  have hopen : Reading.next .plain '\'' = .quoted := rfl
  rw [IsClosed, quotedContent, after_cons, hopen, after_append, (content_quoted cs).1]
  rfl

theorem unprotected_quotedContent (cs : List Char) :
    unprotected (quotedContent cs) = cs.flatMap optionChar := by
  have hopen : decoded (scan .plain (quotedContent cs))
      = decoded (scan .quoted (Escape.content cs ++ ['\''])) := rfl
  rw [unprotected, hopen, scan_append, decoded_append, (content_quoted cs).1, (content_quoted cs).2]
  simp [decoded, Reading.role]

/-! ## the reader of the options -/

/-- What is left of a character of a content, no colon, for what is drawn. -/
def drawnChar (c : Char) : List Char :=
  if c = '\\' then ['\\', '\\'] else if c = '%' then ['\\', '%'] else [c]

/-- A text without a bare colon belongs to the value. -/
theorem optionValue_append (hclosed : IsClosed cs) (hcolon : colon ∉ scan .plain cs) :
    optionValue (cs ++ ds)
      = (decoded (scan .plain cs) ++ (optionValue ds).1, (optionValue ds).2) := by
  have hall : ∀ m ∈ scan .plain cs, (decide (m ≠ colon)) = true := by
    intro m hm
    simpa using fun heq : m = colon => hcolon (heq ▸ hm)
  rw [optionValue, hclosed.scan_append, List.takeWhile_append_of_pos hall,
    List.dropWhile_append_of_pos hall, decoded_append]
  rfl

/-- A value ends at a colon. -/
theorem optionValue_colon (ds : List Char) : optionValue (':' :: ds) = ([], ':' :: ds) := by
  have hscan : scan .plain (':' :: ds) = colon :: scan .plain ds := rfl
  rw [optionValue, hscan, List.takeWhile_cons_of_neg (by simp),
    List.dropWhile_cons_of_neg (by simp), ← hscan, raw_scan]
  rfl

/-- A character that is no colon comes through. -/
theorem optionValue_optionChar (hc : c ≠ ':') (ds : List Char) :
    optionValue (optionChar c ++ ds) = (drawnChar c ++ (optionValue ds).1, (optionValue ds).2) := by
  have hchar : IsClosed (optionChar c) ∧ colon ∉ scan .plain (optionChar c) ∧
      decoded (scan .plain (optionChar c)) = drawnChar c := by
    unfold optionChar drawnChar
    by_cases hbackslash : c = '\\'
    · rw [if_pos hbackslash, if_pos hbackslash]
      decide
    rw [if_neg hbackslash, if_neg hbackslash]
    by_cases hquote : c = '\''
    · subst hquote
      decide
    by_cases hpercent : c = '%'
    · subst hpercent
      decide
    · simp [IsClosed, Reading.next, Reading.role, hbackslash, hquote, hpercent, hc, decoded, raw,
        colon, Ne.symm hc]
  rw [optionValue_append hchar.1 hchar.2.1, hchar.2.2]

/-- The backslashes before a colon are taken for one that is drawn, and the value ends. -/
theorem optionValue_optionChar_colon (ds : List Char) :
    optionValue (optionChar ':' ++ ds) = (['\\'], ':' :: ds) := by
  have hsplit : optionChar ':' ++ ds = ['\\', '\\'] ++ ':' :: ds := rfl
  rw [hsplit, optionValue_append (by decide) (by decide), optionValue_colon]
  rfl

/-- A content without a colon comes through. -/
theorem optionValue_content (hcs : ':' ∉ cs) (ds : List Char) :
    optionValue (cs.flatMap optionChar ++ ds)
      = (cs.flatMap drawnChar ++ (optionValue ds).1, (optionValue ds).2) := by
  induction cs with
  | nil => rfl
  | cons c cs ih =>
    obtain ⟨hc, hcs⟩ := not_or.1 fun h => hcs (List.mem_cons.2 h)
    rw [List.flatMap_cons, List.append_assoc, optionValue_optionChar (Ne.symm hc), ih hcs,
      List.flatMap_cons, List.append_assoc]

/-! ## what is drawn -/

theorem expanded_drawnChar (c : Char) (cs : List Char) :
    expanded (drawnChar c ++ cs) = (expanded cs).map (c :: ·) := by
  unfold drawnChar
  by_cases hbackslash : c = '\\'
  · rw [if_pos hbackslash, hbackslash]
    rfl
  rw [if_neg hbackslash]
  by_cases hpercent : c = '%'
  · rw [if_pos hpercent, hpercent]
    rfl
  · rw [if_neg hpercent, List.singleton_append, expanded, if_neg hpercent]
    intro d ds heq
    exact absurd heq hbackslash

theorem expanded_content (cs ds : List Char) :
    expanded (cs.flatMap drawnChar ++ ds) = (expanded ds).map (cs ++ ·) := by
  induction cs with
  | nil => simp
  | cons c cs ih =>
    rw [List.flatMap_cons, List.append_assoc, expanded_drawnChar, ih, Option.map_map]
    rfl

theorem unprotected_content (cs ds : List Char) :
    unprotected (quotedContent cs ++ ':' :: ds)
      = cs.flatMap optionChar ++ ':' :: unprotected ds := by
  rw [unprotected_append (isClosed_quotedContent cs), unprotected_quotedContent]
  rfl

/-- A content without a colon is drawn as it is, and all other options are left. -/
theorem caption_of_colon_notMem (hcs : ':' ∉ cs) (ds : List Char) :
    caption (quotedContent cs ++ ':' :: ds) = (some cs, ':' :: unprotected ds) := by
  rw [caption, unprotected_content, optionValue_content hcs, optionValue_colon, expanded_content]
  simp [expanded]

/-- A content is cut off at its first colon: a backslash is drawn there, and what comes after
is left for the other options. -/
theorem caption_of_colon (hcs : ':' ∉ cs) (after ds : List Char) :
    caption (quotedContent (cs ++ ':' :: after) ++ ':' :: ds)
      = (some (cs ++ ['\\']), ':' :: (after.flatMap optionChar ++ ':' :: unprotected ds)) := by
  rw [caption, unprotected_content, List.flatMap_append, List.flatMap_cons, List.append_assoc,
    List.append_assoc, optionValue_content hcs, optionValue_optionChar_colon, expanded_content]
  simp [expanded]

/-- A content is drawn as it is exactly if it has no colon. -/
theorem caption_content_iff (cs ds : List Char) :
    caption (quotedContent cs ++ ':' :: ds) = (some cs, ':' :: unprotected ds) ↔ ':' ∉ cs := by
  constructor
  · intro h hcolon
    obtain ⟨before, after, rfl, hbefore⟩ := List.eq_append_cons_of_mem hcolon
    rw [caption_of_colon hbefore] at h
    have hlength := congrArg (fun x => x.2.length) h
    simp only [List.length_cons, List.length_append] at hlength
    omega
  · intro hcolon
    exact caption_of_colon_notMem hcolon ds

/-! ## text layers -/

/-- The filter of a text layer starts with its content between quotes, and goes on with the
other options after a colon. -/
theorem text_eq_of_filter {layer : TextLayer} {base : String} {f : Filter}
    (h : layer.filter base = .ok f) :
    ∃ rest, f.text.toList
      = "drawtext=text=".toList ++ (quotedContent layer.content.toList ++ ':' :: rest) := by
  obtain ⟨size, outline, shadow, x, y, shadowed, window, -, -, -, -, -, rfl⟩ :=
    TextLayer.filter_forms h
  have hstyle : ∃ o os, layer.styleOptions base size outline shadow x y shadowed window
      = o :: os := ⟨_, _, rfl⟩
  obtain ⟨o, os, hstyle⟩ := hstyle
  rw [hstyle]
  refine ⟨(String.intercalate ":" ((o :: os).map FilterOption.text)).toList, ?_⟩
  simp [Filter.text, FilterOption.text, FilterOption.named, quotedContent, Escape.contentText,
    String.toList_intercalate]

/-- The caption of a text layer is drawn as it was given, and the other options are left for
their turn, exactly if the content has no colon. -/
theorem caption_eq_some_iff {layer : TextLayer} {base : String} {f : Filter}
    (h : layer.filter base = .ok f) :
    ∃ rest, f.text.toList
        = "drawtext=text=".toList ++ (quotedContent layer.content.toList ++ ':' :: rest) ∧
      (caption (quotedContent layer.content.toList ++ ':' :: rest)
          = (some layer.content.toList, ':' :: unprotected rest) ↔
        ':' ∉ layer.content.toList) := by
  obtain ⟨rest, htext⟩ := text_eq_of_filter h
  exact ⟨rest, htext, caption_content_iff layer.content.toList rest⟩

/-- A caption with quotes, backslashes and percent signs, but no colon. -/
def plainCaption : TextLayer := { content := "It's 50% \\o/ 'so'" }

theorem caption_plainCaption :
    ∃ f rest, plainCaption.filter "/job" = .ok f ∧ f.text.toList
        = "drawtext=text=".toList ++ (quotedContent plainCaption.content.toList ++ ':' :: rest) ∧
      caption (quotedContent plainCaption.content.toList ++ ':' :: rest)
        = (some plainCaption.content.toList, ':' :: unprotected rest) := by
  have hok : (plainCaption.filter "/job").isOk = true := by decide
  obtain ⟨f, hf⟩ := exists_of_isOk hok
  obtain ⟨rest, htext, hcaption⟩ := caption_eq_some_iff hf
  exact ⟨f, rest, hf, htext, hcaption.2 (by decide)⟩

/-- Of `at 7:30` only `at 7` is drawn, with a backslash after it. -/
theorem caption_cut_at_colon :
    ∃ f rest, TextLayer.filter { content := "at 7:30" } "/job" = .ok f ∧ f.text.toList
        = "drawtext=text=".toList ++ (quotedContent "at 7:30".toList ++ ':' :: rest) ∧
      caption (quotedContent "at 7:30".toList ++ ':' :: rest)
        = (some "at 7\\".toList, ":30:".toList ++ unprotected rest) := by
  have hok : (TextLayer.filter { content := "at 7:30" } "/job").isOk = true := by decide
  obtain ⟨f, hf⟩ := exists_of_isOk hok
  obtain ⟨rest, htext⟩ := text_eq_of_filter hf
  have hsplit : "at 7:30".toList = "at 7".toList ++ ':' :: "30".toList := by decide
  refine ⟨f, rest, hf, htext, ?_⟩
  rw [hsplit, caption_of_colon (by decide)]
  rfl

end Storyboard.Graph
