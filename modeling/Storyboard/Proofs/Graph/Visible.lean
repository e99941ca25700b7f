import Storyboard.Compile.Scene
import Storyboard.Proofs.Graph.Footage

/-!
# Storyboard.Proofs.Graph.Visible

When the filters of a graph show something.  A filter is on at a time unless it has a condition
that comes to zero then; a condition is a product of comparisons with the time, each of which
counts as one where it holds and as zero where it does not.  A stream has pictures from one time
on and before another, and the filters cut and move this span.

* `Window.value?_text`, `Filter.isOn?_while` — a filter that is kept to a window is on inside it;
* `Filter.span?_cut`, `Filter.startOf?_shifted` — a stream is cut, and starts at a time.
-/

namespace Storyboard

/-! ## conditions -/

namespace Condition

/-- The number before the bracket that closes a comparison. -/
def bound? (cs : List Char) : Option ℚ :=
  if cs.getLast? = some ')' then Numeral.read? (String.ofList cs.dropLast) else none

/-- What a comparison with the time comes to. -/
def comparison? (t : ℚ) : List Char → Option ℚ
  | 'g' :: 't' :: 'e' :: '(' :: 't' :: ',' :: rest =>
    (bound? rest).map fun bound => if bound ≤ t then 1 else 0
  | 'l' :: 't' :: '(' :: 't' :: ',' :: rest =>
    (bound? rest).map fun bound => if t < bound then 1 else 0
  | _ => none

/-- What a product of comparisons comes to. -/
def product? (t : ℚ) (cs : List Char) : Option ℚ :=
  ((cs.splitOn '*').mapM (comparison? t)).map List.prod

/-- What a condition between quotes comes to. -/
def value? (t : ℚ) (s : String) : Option ℚ :=
  match s.toList with
  | '\'' :: cs => if cs.getLast? = some '\'' then product? t cs.dropLast else none
  | _ => none

variable {s : String} {p q t : ℚ}

theorem bound?_of_denotes (h : Numeral.Denotes s q) : bound? (s.toList ++ [')']) = some q := by
  rw [bound?, if_pos List.getLast?_concat, List.dropLast_concat, String.ofList_toList,
    Numeral.read?_of_denotes h]

/-- The comparison that holds from a time on. -/
def since (s : String) : List Char := ['g', 't', 'e', '(', 't', ','] ++ (s.toList ++ [')'])

/-- The comparison that holds before a time. -/
def before (s : String) : List Char := ['l', 't', '(', 't', ','] ++ (s.toList ++ [')'])

theorem comparison?_since (h : Numeral.Denotes s q) :
    comparison? t (since s) = some (if q ≤ t then 1 else 0) := by
  show (bound? (s.toList ++ [')'])).map _ = _
  rw [bound?_of_denotes h]
  rfl

theorem comparison?_before (h : Numeral.Denotes s q) :
    comparison? t (before s) = some (if t < q then 1 else 0) := by
  show (bound? (s.toList ++ [')'])).map _ = _
  rw [bound?_of_denotes h]
  rfl

theorem star_notMem_since (h : Numeral.Denotes s q) : '*' ∉ since s := by
  have hstar : '*' ∉ s.toList := Numeral.notMem_of_denotes h (by decide)
  simp [since, hstar]

theorem star_notMem_before (h : Numeral.Denotes s q) : '*' ∉ before s := by
  have hstar : '*' ∉ s.toList := Numeral.notMem_of_denotes h (by decide)
  simp [before, hstar]

/-- What is written between quotes, comparisons with stars between them, is read back. -/
theorem value?_of_comparisons {text : String} {cs : List (List Char)} (hne : cs ≠ [])
    (hstar : ∀ c ∈ cs, '*' ∉ c)
    (htext : text.toList = '\'' :: (List.intercalate ['*'] cs ++ ['\''])) :
    value? t text = (cs.mapM (comparison? t)).map List.prod := by
  simp only [value?, htext, List.getLast?_concat, List.dropLast_concat, if_true, product?,
    List.splitOn_intercalate '*' hstar hne]

end Condition

namespace Window

open Condition

variable {start stop : Decimal} {p q t : ℚ}

/-- A window without an end is on from its start. -/
theorem value?_text_open (hstart : Numeral.Denotes start.shortText p) :
    value? t (Window.mk start none).text = some (if p ≤ t then 1 else 0) := by
  have htext : (Window.mk start none).text.toList
      = '\'' :: (List.intercalate ['*'] [since start.shortText] ++ ['\'']) := by
    simp [text, since, List.intercalate]
  rw [value?_of_comparisons (by simp) ?_ htext]
  · simp [comparison?_since hstart]
  · simpa using star_notMem_since hstart

/-- A window is on from its start and before its end. -/
theorem value?_text (hstart : Numeral.Denotes start.shortText p)
    (hstop : Numeral.Denotes stop.shortText q) :
    value? t (Window.mk start (some stop)).text = some (if p ≤ t ∧ t < q then 1 else 0) := by
  have htext : (Window.mk start (some stop)).text.toList = '\'' ::
      (List.intercalate ['*'] [since start.shortText, before stop.shortText] ++ ['\'']) := by
    simp [text, since, before, List.intercalate]
  rw [value?_of_comparisons (by simp) ?_ htext]
  · by_cases hp : p ≤ t <;> by_cases hq : t < q <;>
      simp [comparison?_since hstart, comparison?_before hstop, hp, hq]
  · simpa using ⟨star_notMem_since hstart, star_notMem_before hstop⟩

end Window

/-! ## filters that are on -/

namespace FilterOption

variable {name : String} {o : FilterOption} {os others : List FilterOption}

/-- Options with other names do not count. -/
theorem value?_append_of_ne (h : ∀ o ∈ others, o.name? ≠ some name) :
    value? name (others ++ os) = value? name os := by
  have hnone : others.find? (fun o => o.name? == some name) = none := by
    simpa [List.find?_eq_none] using h
  rw [value?, List.find?_append, hnone, Option.none_or, value?]

end FilterOption

namespace Filter

open FilterOption

/-- Whether a filter is on at a time: it has no condition, or one that does not come to zero. -/
def isOn? (t : ℚ) : Filter → Option Bool
  | .call _ os =>
    match value? "enable" os with
    | none => some true
    | some condition => (Condition.value? t condition).map fun value => decide (value ≠ 0)
  | .literal _ => none

variable {name : String} {others : List FilterOption} {start stop : Decimal} {p q t : ℚ}

/-- A filter that is not kept to a window is on all the time. -/
theorem isOn?_always (hothers : ∀ o ∈ others, o.name? ≠ some "enable") :
    (call name (others ++ Window.options none)).isOn? t = some true := by
  rw [isOn?, value?_append_of_ne hothers]
  rfl

/-- A filter that is kept to a window is on where the condition of that does not come to zero. -/
theorem isOn?_while (hothers : ∀ o ∈ others, o.name? ≠ some "enable") (window : Window) :
    (call name (others ++ Window.options (some window))).isOn? t
      = (Condition.value? t window.text).map fun value => decide (value ≠ 0) := by
  rw [isOn?, value?_append_of_ne hothers, Window.options, Option.elim_some, value?_named_self]

end Filter

/-! ## streams that are cut and moved -/

/-- The times at which a stream has pictures: from `first` on and before `last`. -/
structure Span where
  first : ℚ
  last : ℚ
  deriving DecidableEq

namespace Filter

open FilterOption

/-- The time at which an expression lets a stream start: zero, or a number of seconds. -/
def startOf? (expression : String) : Option ℚ :=
  match "PTS-STARTPTS".toList.isPrefixOf? expression.toList with
  | some [] => some 0
  | some ('+' :: rest) =>
    if rest.dropWhile (· ≠ '/') = "/TB".toList then
      Numeral.read? (String.ofList (rest.takeWhile (· ≠ '/')))
    else none
  | _ => none

/-- The names of the filters that let the pictures of a stream be at their times. -/
def timeless : List String := ["scale", "format", "colorchannelmixer"]

/-- What a filter makes of the times of a stream, if it is known. -/
def span? (x : Span) : Filter → Option Span
  | .call name os =>
    if name = "trim" then do
      return ⟨max x.first (← number? "start" os), min x.last (← number? "end" os)⟩
    else if name = "setpts" then do
      let start ← (positionals os).head? >>= startOf?
      return ⟨start, start + (x.last - x.first)⟩
    else if name ∈ timeless then some x
    else none
  | .literal _ => none

variable {x : Span} {name text : String} {os : List FilterOption} {start stop : Decimal} {p q : ℚ}

theorem span?_of_timeless (h : name ∈ timeless) : (call name os).span? x = some x := by
  simp only [timeless, List.mem_cons, List.not_mem_nil, or_false] at h
  rcases h with rfl | rfl | rfl <;> rfl

/-- Of a stream that reaches beyond both times what is between them is kept. -/
theorem span?_cut (hstart : Numeral.Denotes start.shortText p)
    (hstop : Numeral.Denotes stop.shortText q) (hfirst : x.first ≤ p) (hlast : q ≤ x.last) :
    (Scene.cut start stop).span? x = some ⟨p, q⟩ := by
  have hread : number? "start" [time "start" start, time "end" stop] = some p ∧
      number? "end" [time "start" start, time "end" stop] = some q := by
    simp [time, Numeral.read?_of_denotes hstart, Numeral.read?_of_denotes hstop]
  simp [Scene.cut, span?, hread.1, hread.2, max_eq_right hfirst, min_eq_right hlast]

theorem span?_fromZero : Scene.fromZero.span? x = some ⟨0, x.last - x.first⟩ := by
  have hstart : startOf? "PTS-STARTPTS" = some 0 := by decide
  simp [Scene.fromZero, span?, hstart]

theorem startOf?_shifted (h : Numeral.Denotes text q) :
    startOf? ("PTS-STARTPTS+" ++ text ++ "/TB") = some q := by
  have hslash : ∀ c ∈ text.toList, decide (c ≠ '/') = true := by
    rintro c hc
    exact decide_eq_true fun heq => Numeral.notMem_of_denotes h (by decide) (heq ▸ hc)
  have hlist : "PTS-STARTPTS".toList.isPrefixOf? ("PTS-STARTPTS+" ++ text ++ "/TB").toList
      = some ('+' :: (text.toList ++ '/' :: ['T', 'B'])) := by
    simp [List.isPrefixOf?]
  simp only [startOf?, hlist, List.dropWhile_append_of_pos hslash,
    List.takeWhile_append_of_pos hslash]
  simp [Numeral.read?_of_denotes h]

end Filter

/-- What the filters of a statement make of the times of a stream that it reads. -/
def Node.span? (x : Span) (n : Node) : Option Span := n.filters.foldlM (fun x f => f.span? x) x

end Storyboard
