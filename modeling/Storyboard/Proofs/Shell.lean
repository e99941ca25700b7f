import Mathlib.Data.List.Basic
import Storyboard.Shell

/-!
# Storyboard.Proofs.Shell

A shell reads a command line character by character: blanks stand between the words, single
quotes hold any text, double quotes a text without `$`, grave accent and backslash, and quoted
and bare text next to each other are one word.  `words?` is that reader.  It refuses a line in
which a character outside the quotes asks the shell for more than words (an operator, an
expansion, a pattern, a comment, the end of the line), so a line it reads is one command whose
words are used as they stand; an assignment in front of a command is a word like any other.

* `readFrom_flatMap_quotedChar` — the text between single quotes, whatever it holds;
* `readFrom_word`     — one argument, from between two words to the end of its own;
* `readFrom_words`    — arguments one after another;
* `words?_commandLine` — a printed line is read as the arguments it was printed from.
-/

namespace Storyboard.Shell

/-- The blanks between words. -/
def isBlank (c : Char) : Bool := c = ' ' || c = '\t'

/-- The characters that outside the quotes are more to a shell than a part of a word: they end
the command, join commands, expand, match file names or begin a comment. -/
def active : List Char := "\n|&;<>()$`\\*?[]#~!\x7b\x7d".toList

/-- The characters that keep their meaning between double quotes. -/
def isExpanding (c : Char) : Bool := "$`\\".toList.contains c

/-- The quotes a reader stands between. -/
inductive Quotes where
  | none
  | single
  | double

/-- How far a line is read: the finished words, the word that is being read if one has begun,
and the quotes around the next character. -/
structure Reading where
  words : List (List Char)
  current : Option (List Char)
  quotes : Quotes

namespace Reading

/-- Between two words. -/
def between (words : List (List Char)) : Reading := ⟨words, none, .none⟩

/-- Inside a word, of which `cs` is read. -/
def inside (words : List (List Char)) (cs : List Char) (quotes : Quotes) : Reading :=
  ⟨words, some cs, quotes⟩

/-- The same words, with the word that is being read finished. -/
def finished (r : Reading) : List (List Char) :=
  match r.current with
  | none => r.words
  | some cs => r.words ++ [cs]

/-- One more character of the word, or its first. -/
def push (r : Reading) (c : Char) : Reading :=
  { r with current := some (r.current.getD [] ++ [c]) }

/-- Quotes open or close; a word has begun even if they hold nothing. -/
def turn (r : Reading) (quotes : Quotes) : Reading :=
  { r with current := some (r.current.getD []), quotes }

/-- One character of a line. -/
def step (r : Reading) (c : Char) : Option Reading :=
  match r.quotes with
  | .none =>
    if isBlank c then some (between r.finished)
    else if c = '\'' then some (r.turn .single)
    else if c = '"' then some (r.turn .double)
    else if active.contains c then none
    else some (r.push c)
  | .single => if c = '\'' then some (r.turn .none) else some (r.push c)
  | .double =>
    if c = '"' then some (r.turn .none)
    else if isExpanding c then none
    else some (r.push c)

/-- A text read from where the reader stands. -/
def readFrom (r : Reading) (cs : List Char) : Option Reading := cs.foldlM step r

/-- The words of a line that is read to its end; no quotes may be open. -/
def close (r : Reading) : Option (List String) :=
  match r.quotes with
  | .none => some (r.finished.map String.ofList)
  | _ => none

end Reading

open Reading

/-- The words of a line, if the shell reads nothing else in it. -/
def words? (line : String) : Option (List String) :=
  ((between []).readFrom line.toList).bind close

/-! ## One argument -/

namespace Reading

theorem readFrom_cons (r : Reading) (c : Char) (cs : List Char) :
    r.readFrom (c :: cs) = (r.step c).bind (readFrom · cs) := rfl

theorem readFrom_append (r : Reading) (cs ds : List Char) :
    r.readFrom (cs ++ ds) = (r.readFrom cs).bind (readFrom · ds) :=
  List.foldlM_append

theorem isHarmless_eq_false {c : Char} (h : c ∈ [' ', '\t', '\'', '"'] ++ active) :
    isHarmless c = false := by
  have hall : ([' ', '\t', '\'', '"'] ++ active).all (!isHarmless ·) = true := by decide
  simpa using List.all_eq_true.1 hall c h

/-- A harmless character is a part of the word it stands in, or begins one. -/
theorem step_harmless {r : Reading} {c : Char} (hquotes : r.quotes = .none)
    (hc : isHarmless c = true) : r.step c = some (r.push c) := by
  have hplain : c ∉ [' ', '\t', '\'', '"'] ++ active := fun hmem =>
    Bool.false_ne_true ((isHarmless_eq_false hmem).symm.trans hc)
  rw [List.mem_append, not_or] at hplain
  obtain ⟨hmarks, hactive⟩ := hplain
  simp only [List.mem_cons, List.not_mem_nil, or_false, not_or] at hmarks
  obtain ⟨hspace, htab, hsingle, hdouble⟩ := hmarks
  simp [step, hquotes, isBlank, hspace, htab, hsingle, hdouble, hactive]

/-- Harmless characters are read one by one. -/
theorem readFrom_harmless {cs : List Char} (words : List (List Char)) (ds : List Char)
    (hall : cs.all isHarmless = true) :
    (inside words ds .none).readFrom cs = some (inside words (ds ++ cs) .none) := by
  induction cs generalizing ds with
  | nil => rw [List.append_nil]; rfl
  | cons c cs ih =>
    obtain ⟨hc, hcs⟩ := Bool.and_eq_true_iff.1 (List.all_cons ▸ hall)
    rw [readFrom_cons, step_harmless rfl hc, Option.bind_some, List.append_cons]
    exact ih (ds ++ [c]) hcs

/-- Between single quotes a character stands for itself; the single quote leaves them, stands
between double quotes of its own, and enters them again. -/
theorem readFrom_quotedChar (words : List (List Char)) (ds : List Char) (c : Char) :
    (inside words ds .single).readFrom (quotedChar c)
      = some (inside words (ds ++ [c]) .single) := by
  by_cases hc : c = '\''
  · subst hc
    rfl
  · rw [quotedChar, if_neg hc, readFrom_cons]
    simp only [step, inside, hc, if_false]
    rfl

/-- The text between single quotes, whatever it holds. -/
theorem readFrom_flatMap_quotedChar (words : List (List Char)) (ds cs : List Char) :
    (inside words ds .single).readFrom (cs.flatMap quotedChar)
      = some (inside words (ds ++ cs) .single) := by
  induction cs generalizing ds with
  | nil => rw [List.append_nil]; rfl
  | cons c cs ih =>
    rw [List.flatMap_cons, readFrom_append, readFrom_quotedChar, Option.bind_some, ih,
      List.append_assoc, List.singleton_append]

/-- A reader between two words has read one argument more at the end of its word. -/
theorem readFrom_word (words : List (List Char)) (cs : List Char) :
    (between words).readFrom (word cs) = some (inside words cs .none) := by
  rw [word]
  split_ifs with hempty hall
  · rw [List.isEmpty_iff.1 hempty]
    rfl
  · -- the first character begins the word, the others are read inside it
    obtain ⟨c, cs, rfl⟩ := List.exists_cons_of_ne_nil fun h => hempty (List.isEmpty_iff.2 h)
    obtain ⟨hc, hcs⟩ := Bool.and_eq_true_iff.1 (List.all_cons ▸ hall)
    rw [readFrom_cons, step_harmless rfl hc, Option.bind_some]
    exact readFrom_harmless words [c] hcs
  · have hopen : (between words).step '\'' = some (inside words [] .single) := rfl
    have hclose : (inside words cs .single).readFrom ['\''] = some (inside words cs .none) := rfl
    rw [readFrom_cons, hopen, Option.bind_some, readFrom_append, readFrom_flatMap_quotedChar,
      List.nil_append, Option.bind_some, hclose]

/-! ## A command line -/

/-- Arguments one after another, from between two words to the end of the line. -/
theorem readFrom_words (words args : List (List Char)) :
    ((between words).readFrom ([' '].intercalate (args.map word))).bind close
      = some ((words ++ args).map String.ofList) := by
  induction args generalizing words with
  | nil => rw [List.append_nil]; rfl
  | cons cs args ih =>
    cases args with
    | nil =>
      rw [List.map_singleton, List.intercalate_singleton, readFrom_word]
      rfl
    | cons ds args =>
      have hblank : (inside words cs .none).readFrom [' '] = some (between (words ++ [cs])) := rfl
      rw [List.map_cons, List.map_cons, List.intercalate_cons_cons, ← List.map_cons,
        readFrom_append, readFrom_append, readFrom_word, Option.bind_some, hblank,
        Option.bind_some, ih, List.append_assoc, List.singleton_append]

end Reading

/-- A printed line is one command to a shell, and its words are the arguments: as many, in
their order, each with the text it had, also the empty one. -/
theorem words?_commandLine (args : List String) : words? (commandLine args) = some args := by
  have hchars : (commandLine args).toList
      = [' '].intercalate ((args.map String.toList).map word) := by
    have hwords : (args.map fun a => String.ofList (word a.toList)).map String.toList
        = (args.map String.toList).map word := by
      rw [List.map_map, List.map_map]
      exact List.map_congr_left fun a _ => String.toList_ofList
    rw [commandLine, String.toList_intercalate, hwords]
    rfl
  have hargs : (args.map String.toList).map String.ofList = args := by
    rw [List.map_map]
    exact (List.map_congr_left fun a _ => String.ofList_toList).trans (List.map_id args)
  rw [words?, hchars, Reading.readFrom_words, List.nil_append, hargs]

/-- A line is read in the shell's own quoting, so a filter's `'\''` inside an argument arrives
as it was planned. -/
example : commandLine ["ffmpeg", "", "text='it\\'s'"]
    = "ffmpeg '' 'text='\"'\"'it\\'\"'\"'s'\"'\"''" := by decide

end Storyboard.Shell
