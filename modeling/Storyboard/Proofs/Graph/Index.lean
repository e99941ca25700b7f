import Storyboard.Proofs.Graph.Label

/-!
# Storyboard.Proofs.Graph.Index

The index of an input that a label names: the number before the first colon, if nothing but
decimal digits of any script stands there.  What stands there is first tested for digits, and
then read as a number.  The test is the wider of the two, as it lets marked digits through (a
superscript, a circled digit) and any number of digits, so there are heads that pass it and are no
number:

* `inputIndex?_outcome` — which labels name an index, which name none and which are a fault;
* `inputIndex?_input`, `inputIndex?_of_isInput_eq_false` — the labels of a graph.
-/

namespace Storyboard

open Number Text

namespace Pad

variable {text : String} {head : List Char} {answer : Option Nat} {k : Nat}

/-! ## what a label says -/

/-- The head of a text: what stands before its first colon, or all of it if it has none. -/
def IsHead (text : String) (head : List Char) : Prop :=
  ':' ∉ head ∧ (text.toList = head ∨ ∃ rest, text.toList = head ++ ':' :: rest)

/-- One decimal digit or more, of any scripts, denote an index. -/
def DenotesIndex (head : List Char) (k : Nat) : Prop :=
  head ≠ [] ∧ ∃ ds, List.Forall₂ IsDecimalDigit head ds ∧ Nat.ofDigits 10 ds.reverse = k

/-- What a head says about an input: the index that it denotes, or nothing if it denotes none. -/
def Names (head : List Char) : Option Nat → Prop
  | some k => DenotesIndex head k
  | none => ∀ k, ¬ DenotesIndex head k

/-- A head of digits that cannot be read: one of them is no decimal digit, or they are too many. -/
def Unreadable (head : List Char) : Prop :=
  (∀ c ∈ head, isDigit c = true) ∧
    ((∃ c ∈ head, ∀ d, ¬ IsDecimalDigit c d) ∨ digitLimit < head.length)

theorem exists_isHead (text : String) : ∃ head, IsHead text head := by
  by_cases hcolon : ':' ∈ text.toList
  · obtain ⟨head, rest, htext, hhead⟩ := List.eq_append_cons_of_mem hcolon
    exact ⟨head, hhead, .inr ⟨rest, htext⟩⟩
  · exact ⟨text.toList, hcolon, .inl rfl⟩

theorem IsHead.takeWhile_eq (h : IsHead text head) : text.toList.takeWhile (· ≠ ':') = head := by
  obtain ⟨hcolon, htext⟩ := h
  have hall : ∀ c ∈ head, decide (c ≠ ':') = true := fun c hc =>
    decide_eq_true fun heq => hcolon (heq ▸ hc)
  obtain ⟨rest, htext, hrest⟩ :
      ∃ rest, text.toList = head ++ rest ∧ rest.takeWhile (· ≠ ':') = [] := by
    obtain htext | ⟨rest, htext⟩ := htext
    · exact ⟨[], by rw [htext, List.append_nil], rfl⟩
    · exact ⟨':' :: rest, htext, List.takeWhile_cons_of_neg (by simp)⟩
  rw [htext, List.takeWhile_append_of_pos hall, hrest, List.append_nil]

theorem exists_names (head : List Char) : ∃ answer, Names head answer := by
  by_cases h : ∃ k, DenotesIndex head k
  · obtain ⟨k, hk⟩ := h
    exact ⟨some k, hk⟩
  · exact ⟨none, not_exists.1 h⟩

/-! ## heads of digits -/

theorem DenotesIndex.exists_decimalDigit (h : DenotesIndex head k) :
    ∀ c ∈ head, ∃ d, IsDecimalDigit c d := by
  obtain ⟨-, ds, hds, -⟩ := h
  intro c hc
  obtain ⟨d, -, hd⟩ := exists_of_mem_of_forall₂ hds c hc
  exact ⟨d, hd⟩

/-- What denotes an index passes the test for digits. -/
theorem DenotesIndex.isDigit (h : DenotesIndex head k) : ∀ c ∈ head, Text.isDigit c = true := by
  intro c hc
  obtain ⟨d, hd⟩ := h.exists_decimalDigit c hc
  exact isDigit_of_decimalValue? (decimalValue?_eq_some_iff.2 hd)

theorem exists_denotesIndex (hne : head ≠ []) (h : ∀ c ∈ head, ∃ d, IsDecimalDigit c d) :
    ∃ k, DenotesIndex head k := by
  choose! value hvalue using h
  exact ⟨_, hne, head.map value, List.forall₂_map_right_iff.2 (List.forall₂_same.2 hvalue), rfl⟩

/-- A head of digits is read as the index that it denotes, if it has no more of them than may be
read. -/
theorem readNatural?_head (hne : head ≠ []) (hdigit : ∀ c ∈ head, isDigit c = true) :
    readNatural? head = some k ↔ DenotesIndex head k ∧ head.length ≤ digitLimit := by
  have hunderscore : '_' ∉ head := fun hmem => absurd (hdigit _ hmem) (by decide)
  have hrun (ds : List Nat) : digitRun? head = some ds ↔ List.Forall₂ IsDecimalDigit head ds := by
    rw [digitRun?_of_notMem hunderscore, digitGroup?, if_neg (by simpa using hne),
      mapM_eq_some_iff]
    simp only [decimalValue?_eq_some_iff]
  rw [readNatural?, Option.bind_eq_some_iff]
  constructor
  · rintro ⟨ds, hds, hk⟩
    have hds := (hrun ds).1 hds
    split at hk
    · cases hk
    · next hlimit =>
      refine ⟨⟨hne, ds, hds, ?_⟩, ?_⟩
      · rw [← ofDigits_eq, Option.some.inj hk]
      · rw [hds.length_eq]
        exact Nat.not_lt.1 hlimit
  · rintro ⟨⟨-, ds, hds, rfl⟩, hlimit⟩
    rw [hds.length_eq] at hlimit
    exact ⟨ds, (hrun ds).2 hds, by rw [if_neg (Nat.not_lt.2 hlimit), ofDigits_eq]⟩

/-! ## the answer -/

theorem inputIndex?_of_digits (hhead : IsHead text head) (hne : head ≠ [])
    (hdigit : ∀ c ∈ head, isDigit c = true) :
    inputIndex? text = (readNatural? head).elim (.error .valueUnsuited) (.ok <| some ·) := by
  have hempty : head.isEmpty = false := by simpa using hne
  have hall : head.all isDigit = true := List.all_eq_true.2 hdigit
  simp only [inputIndex?, hhead.takeWhile_eq, hempty, hall]
  cases readNatural? head <;> rfl

theorem inputIndex?_of_not_digits (hhead : IsHead text head)
    (h : ¬ (head ≠ [] ∧ ∀ c ∈ head, isDigit c = true)) : inputIndex? text = .ok none := by
  have hskip : (head.isEmpty || !head.all isDigit) = true := by
    by_contra hskip
    exact h (by simpa using hskip)
  simp only [inputIndex?, hhead.takeWhile_eq]
  rw [if_pos hskip]

/-- A head that can be read gives what it says. -/
theorem inputIndex?_of_names (hhead : IsHead text head) (hread : ¬ Unreadable head)
    (h : Names head answer) : inputIndex? text = .ok answer := by
  by_cases hrun : head ≠ [] ∧ ∀ c ∈ head, isDigit c = true
  · obtain ⟨hne, hdigit⟩ := hrun
    obtain ⟨hdecimal, hlimit⟩ :
        (∀ c ∈ head, ∃ d, IsDecimalDigit c d) ∧ head.length ≤ digitLimit := by
      simpa using not_and.1 hread hdigit
    cases answer with
    | none =>
      obtain ⟨k, hk⟩ := exists_denotesIndex hne hdecimal
      exact absurd hk (h k)
    | some k =>
      rw [inputIndex?_of_digits hhead hne hdigit, (readNatural?_head hne hdigit).2 ⟨h, hlimit⟩]
      rfl
  · cases answer with
    | none => exact inputIndex?_of_not_digits hhead hrun
    | some k => exact absurd ⟨h.1, DenotesIndex.isDigit h⟩ hrun

/-- A head of digits that cannot be read is a fault, whether it denotes an index or not. -/
theorem inputIndex?_of_unreadable (hhead : IsHead text head) (h : Unreadable head) :
    inputIndex? text = .error .valueUnsuited := by
  obtain ⟨hdigit, hfault⟩ := h
  have hne : head ≠ [] := by
    rintro rfl
    simp at hfault
  have hnone : readNatural? head = none := by
    refine Option.eq_none_iff_forall_ne_some.2 fun k hk => ?_
    obtain ⟨hindex, hlimit⟩ := (readNatural?_head hne hdigit).1 hk
    obtain ⟨c, hc, hmarked⟩ | hlong := hfault
    · obtain ⟨d, hd⟩ := hindex.exists_decimalDigit c hc
      exact hmarked d hd
    · exact absurd hlimit (Nat.not_le.2 hlong)
  rw [inputIndex?_of_digits hhead hne hdigit, hnone]
  rfl

theorem inputIndex?_cases (hhead : IsHead text head) :
    Unreadable head ∧ inputIndex? text = .error .valueUnsuited ∨
      ¬ Unreadable head ∧ ∃ answer, Names head answer ∧ inputIndex? text = .ok answer := by
  by_cases hread : Unreadable head
  · exact .inl ⟨hread, inputIndex?_of_unreadable hhead hread⟩
  · obtain ⟨answer, hnames⟩ := exists_names head
    exact .inr ⟨hread, answer, hnames, inputIndex?_of_names hhead hread hnames⟩

theorem inputIndex?_eq_ok_iff (hhead : IsHead text head) :
    inputIndex? text = .ok answer ↔ ¬ Unreadable head ∧ Names head answer := by
  constructor
  · intro h
    obtain ⟨-, hfault⟩ | ⟨hread, answer', hnames, hanswer⟩ := inputIndex?_cases hhead
    · rw [hfault] at h
      cases h
    · rw [hanswer] at h
      cases h
      exact ⟨hread, hnames⟩
  · rintro ⟨hread, hnames⟩
    exact inputIndex?_of_names hhead hread hnames

theorem inputIndex?_eq_error_iff {fault : Fault} (hhead : IsHead text head) :
    inputIndex? text = .error fault ↔ Unreadable head ∧ fault = .valueUnsuited := by
  constructor
  · intro h
    obtain ⟨hread, hfault⟩ | ⟨-, answer, -, hanswer⟩ := inputIndex?_cases hhead
    · rw [hfault] at h
      cases h
      exact ⟨hread, rfl⟩
    · rw [hanswer] at h
      cases h
  · rintro ⟨hread, rfl⟩
    exact inputIndex?_of_unreadable hhead hread

/-! ## the labels of a graph -/

theorem isHead_input (i : Int) (stream : Stream) : IsHead (input i stream).label i.repr.toList := by
  refine ⟨notMem_repr i (by decide), .inr ⟨stream.letter.toList, ?_⟩⟩
  simp [label]

/-- The digits of an index denote it. -/
theorem denotesIndex_repr (k : Nat) : DenotesIndex k.repr.toList k := by
  have hdigit : ∀ c ∈ k.repr.toList, c.isDigit = true := fun c hc => isDigit_of_mem_repr hc
  refine ⟨toList_repr_ne_nil k, k.repr.toList.map (·.toNat - 48), ?_, ?_⟩
  · rw [List.forall₂_map_right_iff, List.forall₂_same]
    exact fun c hc => decimalValue?_eq_some_iff.1 (decimalValue?_of_isDigit (hdigit c hc))
  · rw [← ofDigits_eq, ofDigits_map_sub, Nat.toList_repr, Nat.ofDigitChars_ten_toDigits]

/-- The digits of an index can be read if the index is not too great. -/
theorem unreadable_repr_iff : Unreadable k.repr.toList ↔ tens digitLimit ≤ k := by
  have hindex := denotesIndex_repr k
  rw [← Nat.not_lt, ← length_repr_le_iff (by decide), Nat.not_le]
  constructor
  · rintro ⟨-, ⟨c, hc, hmarked⟩ | hlong⟩
    · obtain ⟨d, hd⟩ := hindex.exists_decimalDigit c hc
      exact absurd hd (hmarked d)
    · exact hlong
  · exact fun hlong => ⟨hindex.isDigit, .inr hlong⟩

/-- The label of an input names its index, as long as the index may be read. -/
theorem inputIndex?_input (h : k < tens digitLimit) (stream : Stream) :
    inputIndex? (input k stream).label = .ok (some k) :=
  inputIndex?_of_names (isHead_input k stream)
    (fun hread => absurd (unreadable_repr_iff.1 hread) (Nat.not_le.2 h)) (denotesIndex_repr k)

/-- A label that starts with no digit names no index. -/
theorem inputIndex?_of_head {c : Char} {cs : List Char} (h : text.toList = c :: cs)
    (hcolon : c ≠ ':') (hc : isDigit c = false) : inputIndex? text = .ok none := by
  simp [inputIndex?, h, hcolon, hc]

/-- No other pad of a graph has a label that names an index. -/
theorem inputIndex?_of_isInput_eq_false {p : Pad} (hkind : p.kind?.isSome = true)
    (h : p.isInput = false) : inputIndex? p.label = .ok none := by
  cases p with
  | input k stream => simp [isInput] at h
  | background i | layer i j | media i j =>
    exact inputIndex?_of_head (by simp [label]; exact ⟨rfl, rfl⟩) (by decide) (by decide)
  | transition i | track i =>
    exact inputIndex?_of_head (by simp [label]; exact ⟨rfl, rfl⟩) (by decide) (by decide)
  | mix | silence => exact inputIndex?_of_head (by rfl) (by decide) (by decide)
  | named text => simp [kind?] at hkind

/-- Neither has an input whose index is below zero: a sign is no digit. -/
theorem inputIndex?_input_of_neg {i : Int} (h : i < 0) (stream : Stream) :
    inputIndex? (input i stream).label = .ok none := by
  have hsign : '-' ∈ i.repr.toList := by
    rw [Int.repr_eq_if, if_neg (Int.not_le.2 h)]
    simp
  exact inputIndex?_of_not_digits (isHead_input i stream)
    fun ⟨_, hdigit⟩ => absurd (hdigit _ hsign) (by decide)

/-! ## every label -/

/-- A text gives the index that its head denotes, or none if the head denotes none, unless the
head is of digits that cannot be read, which is a fault.  So an input's label gives its index, up to
the number of digits that may be read, and all other labels of a graph give none. -/
theorem inputIndex?_outcome (text : String) :
    (∃ head, IsHead text head ∧
      (∀ answer, inputIndex? text = .ok answer ↔ ¬ Unreadable head ∧ Names head answer) ∧
      ∀ fault, inputIndex? text = .error fault ↔ Unreadable head ∧ fault = .valueUnsuited) ∧
    (∀ (k : Nat) (stream : Stream), text = (input k stream).label →
      inputIndex? text = if k < tens digitLimit then .ok (some k) else .error .valueUnsuited) ∧
    ∀ p : Pad, p.kind?.isSome = true → text = p.label →
      (∀ (k : Nat) (stream : Stream), p ≠ input k stream) → inputIndex? text = .ok none := by
  refine ⟨?_, ?_, ?_⟩
  · obtain ⟨head, hhead⟩ := exists_isHead text
    exact ⟨head, hhead, fun _ => inputIndex?_eq_ok_iff hhead,
      fun _ => inputIndex?_eq_error_iff hhead⟩
  · rintro k stream rfl
    split
    · next hlimit => exact inputIndex?_input hlimit stream
    · next hlimit =>
      exact inputIndex?_of_unreadable (isHead_input k stream)
        (unreadable_repr_iff.2 (Nat.not_lt.1 hlimit))
  · rintro p hkind rfl hother
    by_cases hinput : p.isInput = true
    · cases p with
      | input i stream =>
        refine inputIndex?_input_of_neg (Int.not_le.1 fun hi => ?_) stream
        obtain ⟨k, rfl⟩ := Int.eq_ofNat_of_zero_le hi
        exact hother k stream rfl
      | _ => cases hinput
    · exact inputIndex?_of_isInput_eq_false hkind (Bool.eq_false_iff.2 hinput)

/-- Every script has digits. -/
example : inputIndex? "٣:v" = .ok (some 3) := rfl

/-- An image and an input with the same number: in the first label it stands behind a word, and in
the second it is all that stands before the colon. -/
theorem inputIndex?_eleven :
    (media 0 11).kind?.isSome = true ∧ "scene0_media11" = (media 0 11).label ∧
      (∀ (k : Nat) (stream : Stream), media 0 11 ≠ input k stream) ∧
      inputIndex? "scene0_media11" = .ok none ∧
      "11:v" = (input (11 : Nat) .video).label ∧ inputIndex? "11:v" = .ok (some 11) := by
  have hother : ∀ (k : Nat) (stream : Stream), media 0 11 ≠ input k stream := by
    intro k stream heq
    cases heq
  have hmedia : "scene0_media11" = (media 0 11).label := by decide
  have hinput : "11:v" = (input (11 : Nat) .video).label := by decide
  have hlimit : 11 < tens digitLimit :=
    (by decide : 11 < tens 2).trans_le (tens_le_tens (by decide))
  refine ⟨rfl, hmedia, hother, ?_, hinput, ?_⟩
  · exact (inputIndex?_outcome "scene0_media11").2.2 (media 0 11) rfl hmedia hother
  · rw [(inputIndex?_outcome "11:v").2.1 11 .video hinput, if_pos hlimit]

/-- A superscript denotes no index, but it is a digit, and so it is a fault and not none. -/
theorem inputIndex?_superscript :
    IsHead "²:v" ['²'] ∧ Names ['²'] none ∧ inputIndex? "²:v" = .error .valueUnsuited := by
  have hhead : IsHead "²:v" ['²'] := ⟨by decide, .inr ⟨['v'], rfl⟩⟩
  have hmarked : ∀ d, ¬ IsDecimalDigit '²' d := fun d hd =>
    absurd (decimalValue?_eq_some_iff.2 hd) (by simp [show decimalValue? '²' = none by decide])
  have hdigit : ∀ c ∈ ['²'], isDigit c = true := List.forall_mem_singleton.2 (by decide)
  refine ⟨hhead, fun k hk => ?_, ?_⟩
  · obtain ⟨d, hd⟩ := hk.exists_decimalDigit '²' List.mem_cons_self
    exact hmarked d hd
  · exact inputIndex?_of_unreadable hhead ⟨hdigit, .inl ⟨'²', List.mem_cons_self, hmarked⟩⟩

end Pad

end Storyboard
