import Storyboard.Proofs.Graph.Scan

/-!
# Storyboard.Proofs.Graph.Harmless

Text beside other text.  A text is *whole* if no separator stands bare in it, and it is
harmless if it has neither separators nor anything that protects.

* `Harmless.scan` — harmless text is read as it is, and is closed and whole;
* `scan_intercalate` — closed texts keep their marks when they are joined.
-/

namespace Storyboard.Graph

variable {cs ds : List Char} {c : Char}

/-- The mark of a character that nothing protects. -/
def bare (c : Char) : Mark := ⟨c, .bare⟩

/-- The characters that separate statements, filters and pads. -/
def separators : List Char := [',', ';', '[', ']']

/-- A text in which no separator stands bare. -/
def IsWhole (cs : List Char) : Prop := ∀ c ∈ separators, bare c ∉ scan .plain cs

instance (cs : List Char) : Decidable (IsWhole cs) :=
  List.decidableBAll (fun c => bare c ∉ scan .plain cs) separators

/-- A text without separators, however it is protected. -/
def IsFree (cs : List Char) : Prop := ∀ c ∈ separators, c ∉ cs

instance (cs : List Char) : Decidable (IsFree cs) :=
  List.decidableBAll (fun c => c ∉ cs) separators

/-- A character that neither separates nor protects. -/
def isHarmless (c : Char) : Bool := c != '\'' && c != '\\' && !separators.contains c

theorem isHarmless_iff : isHarmless c = true ↔ c ∉ ['\'', '\\', ',', ';', '[', ']'] := by
  simp [isHarmless, separators, and_assoc]

/-- A class of characters is harmless if it has none of those that are not. -/
theorem isHarmless_of_class {inClass : Char → Bool} (hc : inClass c = true)
    (h : ['\'', '\\', ',', ';', '[', ']'].any inClass = false) : isHarmless c = true := by
  rw [isHarmless_iff]
  intro hmem
  rw [List.any_eq_false] at h
  exact h c hmem hc

/-- A text of such characters. -/
def Harmless (cs : List Char) : Prop := ∀ c ∈ cs, isHarmless c = true

instance (cs : List Char) : Decidable (Harmless cs) :=
  List.decidableBAll (fun c => isHarmless c = true) cs

theorem Harmless.append (hc : Harmless cs) (hd : Harmless ds) : Harmless (cs ++ ds) := by
  intro c hmem
  cases List.mem_append.1 hmem with
  | inl hmem => exact hc c hmem
  | inr hmem => exact hd c hmem

/-- Neither a quote nor a backslash is met in harmless text. -/
theorem Harmless.scan (h : Harmless cs) : scan .plain cs = cs.map bare ∧ IsClosed cs := by
  induction cs with
  | nil => exact ⟨rfl, rfl⟩
  | cons c cs ih =>
    obtain ⟨hc, hcs⟩ := List.forall_mem_cons.1 h
    simp only [isHarmless, Bool.and_eq_true, bne_iff_ne] at hc
    have hrole : Reading.role .plain c = .bare := by simp [Reading.role, hc.1.1, hc.1.2]
    have hnext : Reading.next .plain c = .plain := by simp [Reading.next, hc.1.1, hc.1.2]
    obtain ⟨hscan, hclosed⟩ := ih hcs
    constructor
    · rw [scan_cons, hrole, hnext, hscan, List.map_cons]
      rfl
    · rw [IsClosed, after_cons, hnext]
      exact hclosed

theorem Harmless.isClosed (h : Harmless cs) : IsClosed cs := h.scan.2

theorem Harmless.isWhole (h : Harmless cs) : IsWhole cs := by
  intro c hc hmem
  rw [h.scan.1, List.mem_map] at hmem
  obtain ⟨d, hd, heq⟩ := hmem
  obtain rfl : d = c := congrArg Mark.char heq
  have hharmless := h d hd
  simp only [isHarmless, Bool.and_eq_true, Bool.not_eq_true', List.contains_eq_mem,
    decide_eq_false_iff_not] at hharmless
  exact hharmless.2 hc

/-- Closed texts keep their marks when they are joined. -/
theorem scan_intercalate {sep : List Char} {texts : List (List Char)} (hsep : IsClosed sep)
    (h : ∀ cs ∈ texts, IsClosed cs) :
    scan .plain (sep.intercalate texts) = (scan .plain sep).intercalate (texts.map (scan .plain)) ∧
      IsClosed (sep.intercalate texts) := by
  induction texts with
  | nil => exact ⟨rfl, rfl⟩
  | cons cs texts ih =>
    obtain ⟨hcs, htexts⟩ := List.forall_mem_cons.1 h
    obtain ⟨hscan, hclosed⟩ := ih htexts
    cases texts with
    | nil => simpa using hcs
    | cons ds texts =>
      rw [List.intercalate_cons_cons, List.map_cons, List.map_cons, List.intercalate_cons_cons]
      constructor
      · rw [List.append_assoc, hcs.scan_append, hsep.scan_append, hscan, List.append_assoc]
        rfl
      · exact (hcs.append hsep).append hclosed

/-- What stands in joined lists stands in one of them or between them. -/
theorem mem_of_mem_intercalate {α : Type} {a : α} {sep : List α} {ls : List (List α)}
    (h : a ∈ sep.intercalate ls) : a ∈ sep ∨ ∃ l ∈ ls, a ∈ l := by
  induction ls with
  | nil => exact absurd h List.not_mem_nil
  | cons l ls ih =>
    cases ls with
    | nil => exact .inr ⟨l, List.mem_cons_self, by simpa using h⟩
    | cons l' ls =>
      rw [List.intercalate_cons_cons, List.mem_append, List.mem_append] at h
      rcases h with (h | h) | h
      · exact .inr ⟨l, List.mem_cons_self, h⟩
      · exact .inl h
      · rcases ih h with h | ⟨k, hk, h⟩
        · exact .inl h
        · exact .inr ⟨k, List.mem_cons_of_mem _ hk, h⟩

end Storyboard.Graph
