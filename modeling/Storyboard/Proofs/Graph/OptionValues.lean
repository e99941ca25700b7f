import Storyboard.Proofs.Graph.Harmless
import Storyboard.Proofs.Graph.Quotes

/-!
# Storyboard.Proofs.Graph.OptionValues

Plain option values beside each other.  A reader of options knows one kind of protection: a
backslash takes the next character literally.  A value comes to such a reader with a backslash
before each of its own backslashes, colons and single quotes, so the colons that are left bare in
a joined text are exactly those between its values:

* `value_eq_valueInTurn` — the three replacements of the escape, one after another, are one map of
  characters: backslashes come first, so none that was put in is doubled;
* `scanEscapes_value` — what the reader of options makes of a value, whatever comes after it;
* `splitOn_values` — joined values are told apart again.
-/

namespace Storyboard.Graph

namespace Escape

/-! ## one replacement after another -/

/-- A plain option value, by replacing one character after another. -/
def valueInTurn (cs : List Char) : List Char :=
  replaced '\'' ['\\', '\''] <| replaced ':' ['\\', ':'] <| replaced '\\' ['\\', '\\'] cs

theorem valueInTurn_append (cs ds : List Char) :
    valueInTurn (cs ++ ds) = valueInTurn cs ++ valueInTurn ds := by
  simp only [valueInTurn, replaced_append]

theorem valueInTurn_singleton (c : Char) : valueInTurn [c] = valueChar c := by
  unfold valueChar
  by_cases hbackslash : c = '\\'
  · rw [hbackslash]
    rfl
  by_cases hcolon : c = ':'
  · rw [hcolon]
    rfl
  by_cases hquote : c = '\''
  · rw [hquote]
    rfl
  simp [valueInTurn, replaced, hbackslash, hcolon, hquote]

/-- No replacement undoes or doubles what another one put in. -/
theorem value_eq_valueInTurn (cs : List Char) : value cs = valueInTurn cs := by
  induction cs with
  | nil => rfl
  | cons c cs ih =>
    have hcons : value (c :: cs) = valueChar c ++ value cs := rfl
    rw [hcons, ih, ← valueInTurn_singleton, ← valueInTurn_append, List.singleton_append]

end Escape

/-! ## the reader of options -/

/-- The marks of a text in which nothing but a backslash protects, and only the next character;
`escaped` tells whether the first character is protected already. -/
def scanEscapes (escaped : Bool) : List Char → List Mark
  | [] => []
  | c :: cs =>
    if escaped then ⟨c, .kept⟩ :: scanEscapes false cs
    else if c = '\\' then ⟨c, .guard⟩ :: scanEscapes true cs
    else ⟨c, .bare⟩ :: scanEscapes false cs

/-- The marks of one character of a plain option value. -/
def valueMarks (c : Char) : List Mark :=
  if c = '\\' ∨ c = ':' ∨ c = '\'' then [⟨'\\', .guard⟩, ⟨c, .kept⟩] else [bare c]

theorem scanEscapes_valueChar (c : Char) (rest : List Char) :
    scanEscapes false (Escape.valueChar c ++ rest) = valueMarks c ++ scanEscapes false rest := by
  unfold Escape.valueChar valueMarks
  by_cases hspecial : c = '\\' ∨ c = ':' ∨ c = '\''
  · rw [if_pos hspecial, if_pos hspecial]
    rfl
  · have hbackslash : c ≠ '\\' := fun heq => hspecial (.inl heq)
    rw [if_neg hspecial, if_neg hspecial]
    simp [scanEscapes, hbackslash, bare]

/-- A value leaves nothing open: what comes after it is read by itself. -/
theorem scanEscapes_value (cs rest : List Char) :
    scanEscapes false (Escape.value cs ++ rest) =
      cs.flatMap valueMarks ++ scanEscapes false rest := by
  induction cs with
  | nil => rfl
  | cons c cs ih =>
    have hcons : Escape.value (c :: cs) = Escape.valueChar c ++ Escape.value cs := rfl
    rw [hcons, List.append_assoc, scanEscapes_valueChar, ih, List.flatMap_cons, List.append_assoc]

theorem scanEscapes_colon (rest : List Char) :
    scanEscapes false (':' :: rest) = bare ':' :: scanEscapes false rest := rfl

/-! ## the marks of a value -/

theorem raw_valueMarks (cs : List Char) : raw (cs.flatMap valueMarks) = Escape.value cs := by
  induction cs with
  | nil => rfl
  | cons c cs ih =>
    have hchar : raw (valueMarks c) = Escape.valueChar c := by
      unfold valueMarks Escape.valueChar
      split <;> rfl
    rw [List.flatMap_cons, raw_append, ih, hchar]
    rfl

theorem decoded_valueMarks (cs : List Char) : decoded (cs.flatMap valueMarks) = cs := by
  induction cs with
  | nil => rfl
  | cons c cs ih =>
    have hchar : decoded (valueMarks c) = [c] := by
      unfold valueMarks
      split <;> rfl
    rw [List.flatMap_cons, decoded_append, ih, hchar, List.singleton_append]

/-- A colon or a single quote of a value is protected. -/
theorem role_valueMarks {cs : List Char} {m : Mark} (hm : m ∈ cs.flatMap valueMarks)
    (hchar : m.char = ':' ∨ m.char = '\'') : m.role = .kept := by
  obtain ⟨c, -, hm⟩ := List.mem_flatMap.1 hm
  unfold valueMarks at hm
  split at hm
  · rw [List.mem_cons, List.mem_singleton] at hm
    rcases hm with rfl | rfl
    · exact absurd hchar (by decide)
    · rfl
  · next hspecial =>
    obtain rfl := List.mem_singleton.1 hm
    exact absurd (.inr hchar) hspecial

theorem colon_notMem_valueMarks (cs : List Char) : bare ':' ∉ cs.flatMap valueMarks :=
  fun hm => absurd (role_valueMarks hm (.inl rfl)) (by decide)

/-- Where every single quote is protected, a reader that knows quotes too reads the same. -/
theorem scan_eq_scanEscapes {cs : List Char} {escaped : Bool}
    (h : ∀ m ∈ scanEscapes escaped cs, m.char = '\'' → m.role = .kept) :
    scan (if escaped then .escaped else .plain) cs = scanEscapes escaped cs := by
  induction cs generalizing escaped with
  | nil => exact scan_nil
  | cons c cs ih =>
    cases escaped with
    | true =>
      have htail : scan .plain cs = scanEscapes false cs :=
        ih fun m hm => h m (List.mem_cons_of_mem _ hm)
      exact congrArg (⟨c, .kept⟩ :: ·) htail
    | false =>
      by_cases hbackslash : c = '\\'
      · subst hbackslash
        have htail : scan .escaped cs = scanEscapes true cs :=
          ih fun m hm => h m (List.mem_cons_of_mem _ hm)
        exact congrArg (⟨'\\', .guard⟩ :: ·) htail
      · have hcons : scanEscapes false (c :: cs) = bare c :: scanEscapes false cs := by
          simp [scanEscapes, hbackslash, bare]
        rw [hcons] at h ⊢
        have hquote : c ≠ '\'' := fun heq =>
          absurd (h (bare c) List.mem_cons_self heq) (by simp [bare])
        have htail : scan .plain cs = scanEscapes false cs :=
          ih fun m hm => h m (List.mem_cons_of_mem _ hm)
        rw [← htail]
        simp [Reading.role, Reading.next, hquote, hbackslash, bare]

/-! ## values beside each other -/

/-- The text of escaped values with colons between them. -/
def joinedValues (values : List (List Char)) : List Char :=
  [':'].intercalate (values.map Escape.value)

/-- Joined values are read one after another, with a bare colon between them. -/
theorem scanEscapes_joinedValues (values : List (List Char)) :
    scanEscapes false (joinedValues values) =
      [bare ':'].intercalate (values.map (·.flatMap valueMarks)) := by
  unfold joinedValues
  induction values with
  | nil => rfl
  | cons cs values ih =>
    cases values with
    | nil => simpa [scanEscapes] using scanEscapes_value cs []
    | cons ds values =>
      rw [List.map_cons, List.map_cons, List.intercalate_cons_cons, List.append_assoc,
        scanEscapes_value, List.singleton_append, scanEscapes_colon, ← List.map_cons, ih,
        List.map_cons, List.map_cons, List.map_cons, List.intercalate_cons_cons,
        List.append_assoc, List.singleton_append]

/-- The bare colons of joined values are those between them. -/
theorem splitOn_joinedValues {values : List (List Char)} (h : values ≠ []) :
    (scanEscapes false (joinedValues values)).splitOn (bare ':') =
      values.map (·.flatMap valueMarks) := by
  rw [scanEscapes_joinedValues]
  refine List.splitOn_intercalate (bare ':') (fun ms hms => ?_) (by simpa using h)
  obtain ⟨cs, -, rfl⟩ := List.mem_map.1 hms
  exact colon_notMem_valueMarks cs

theorem role_joinedValues {values : List (List Char)} {m : Mark}
    (hm : m ∈ scanEscapes false (joinedValues values)) (hquote : m.char = '\'') :
    m.role = .kept := by
  rw [scanEscapes_joinedValues] at hm
  rcases mem_of_mem_intercalate hm with hm | ⟨ms, hms, hm⟩
  · obtain rfl := List.mem_singleton.1 hm
    exact absurd hquote (by decide)
  · obtain ⟨cs, -, rfl⟩ := List.mem_map.1 hms
    exact role_valueMarks hm (.inr hquote)

theorem toList_intercalate_valueText (values : List String) :
    (String.intercalate ":" (values.map Escape.valueText)).toList =
      joinedValues (values.map String.toList) := by
  simp [joinedValues, Escape.valueText, Function.comp_def]

/-- Escaped values, each made by replacing one character after another, are joined with colons.
Split at the colons that no backslash protects, the text gives back the escaped values, as many
and in the same order, and without the backslashes that protect, the values themselves.  Every
single quote is protected, so that a reader that knows quotes reads the text in the same way. -/
theorem splitOn_values (values : List String) (h : values ≠ []) :
    let text := (String.intercalate ":" (values.map Escape.valueText)).toList
    let marks := scanEscapes false text
    (∀ s, (Escape.valueText s).toList = Escape.valueInTurn s.toList) ∧
    (marks.splitOn (bare ':')).map raw = values.map (fun s => (Escape.valueText s).toList) ∧
    (marks.splitOn (bare ':')).map decoded = values.map String.toList ∧
    (∀ m ∈ marks, m.char = '\'' → m.role = .kept) ∧
    scan .plain text = marks := by
  have hlists : values.map String.toList ≠ [] := by simpa using h
  dsimp only
  rw [toList_intercalate_valueText, splitOn_joinedValues hlists]
  refine ⟨fun s => ?_, ?_, ?_, fun m hm => role_joinedValues hm,
    scan_eq_scanEscapes fun m hm => role_joinedValues hm⟩
  · rw [Escape.valueText, String.toList_ofList, Escape.value_eq_valueInTurn]
  · simp [raw_valueMarks, Escape.valueText]
  · simp [decoded_valueMarks]

/-- A backslash at the end of a value does not take the colon after it, and values may be empty or
hold nothing but what is escaped. -/
theorem splitOn_awkwardValues :
    ["a\\", ":'", ""] ≠ [] ∧
    String.intercalate ":" (["a\\", ":'", ""].map Escape.valueText) = "a\\\\:\\:\\':" ∧
    let marks := scanEscapes false "a\\\\:\\:\\':".toList
    (marks.splitOn (bare ':')).map raw = ["a\\\\".toList, "\\:\\'".toList, []] ∧
    (marks.splitOn (bare ':')).map decoded = ["a\\".toList, ":'".toList, []] := by
  have hvalues : ["a\\", ":'", ""] ≠ [] := List.cons_ne_nil _ _
  have htext : String.intercalate ":" (["a\\", ":'", ""].map Escape.valueText)
      = "a\\\\:\\:\\':" := by decide +kernel
  obtain ⟨-, hraw, hdecoded, -⟩ := splitOn_values ["a\\", ":'", ""] hvalues
  rw [htext] at hraw hdecoded
  exact ⟨hvalues, htext, hraw, hdecoded⟩

end Storyboard.Graph
