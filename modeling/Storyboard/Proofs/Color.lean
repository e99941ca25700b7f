import Storyboard.Proofs.Value.Harmless

/-!
# Storyboard.Proofs.Color

The texts that may be used as a color.  Meant are six or eight digits of base sixteen after `#` or
`0x`, and the names of the table in any case.  Two kinds of text pass besides: digits with a line
end after them, because the end of a text is looked for before its last line end, and names that
have a Kelvin sign in place of a `k`, because its lower case is that letter.

* `isColor_iff` — nothing else passes;
* `not_isDocumented_of_isLineForm`, `not_isDocumented_of_isKelvinForm` — and these are not meant.
-/

namespace Storyboard.Color

open Text

/-! ## the forms -/

/-- A digit of base sixteen: an ASCII digit, or one of the first six letters in either case. -/
def IsBaseSixteen (c : Char) : Prop :=
  ('0' ≤ c ∧ c ≤ '9') ∨ ('a' ≤ c ∧ c ≤ 'f') ∨ ('A' ≤ c ∧ c ≤ 'F')

/-- Six or eight digits of base sixteen after `#` or `0x`. -/
def IsDigitForm (cs : List Char) : Prop :=
  ∃ mark digits, mark ∈ [['#'], ['0', 'x']] ∧ (digits.length = 6 ∨ digits.length = 8) ∧
    (∀ c ∈ digits, IsBaseSixteen c) ∧ cs = mark ++ digits

/-- ASCII characters that are a name of the table up to the case of their letters. -/
def IsNameForm (cs : List Char) : Prop :=
  (∀ c ∈ cs, c.toNat < 128) ∧ ∃ p ∈ names, cs.map Char.toLower = p.1.toList

/-- What is meant to be used as a color. -/
def IsDocumented (s : String) : Prop := IsDigitForm s.toList ∨ IsNameForm s.toList

/-- Digits with a line end after them. -/
def IsLineForm (s : String) : Prop := ∃ cs, IsDigitForm cs ∧ s.toList = cs ++ ['\n']

/-- A letter `k` for the Kelvin sign, and any other character for itself. -/
def plainK (c : Char) : Char := if c = kelvinSign then 'k' else c

/-- A name with a Kelvin sign in it. -/
def IsKelvinForm (s : String) : Prop :=
  kelvinSign ∈ s.toList ∧ IsNameForm (s.toList.map plainK)

/-- A character that the documented forms are made of: `#`, an ASCII letter or an ASCII digit. -/
def InColor (c : Char) : Prop := c = '#' ∨ c.isAlphanum = true

instance (c : Char) : Decidable (InColor c) := inferInstanceAs (Decidable (_ ∨ _))

variable {c : Char} {cs : List Char} {s : String}

/-! ## letters -/

theorem isUpper_iff : c.isUpper = true ↔ 'A' ≤ c ∧ c ≤ 'Z' := decide_eq_true_iff

theorem isLower_iff : c.isLower = true ↔ 'a' ≤ c ∧ c ≤ 'z' := by
  show (decide _ && decide _) = true ↔ _
  rw [Bool.and_eq_true, decide_eq_true_eq, decide_eq_true_eq]
  exact Iff.rfl

theorem isAlpha_iff : c.isAlpha = true ↔ ('A' ≤ c ∧ c ≤ 'Z') ∨ ('a' ≤ c ∧ c ≤ 'z') := by
  show (Char.isUpper c || Char.isLower c) = true ↔ _
  rw [Bool.or_eq_true, isUpper_iff, isLower_iff]

/-! ## digits -/

theorem isHexDigit_iff : isHexDigit c = true ↔ IsBaseSixteen c := by
  unfold isHexDigit hexValue? IsBaseSixteen
  split
  · next h => simp [h]
  · next hdigit =>
    split
    · next h => simp [h]
    · next hsmall =>
      split
      · next h => simp [h]
      · next hcapital => simp [hdigit, hsmall, hcapital]

theorem inColor_of_isBaseSixteen (h : IsBaseSixteen c) : InColor c := by
  refine .inr ?_
  rw [Char.isAlphanum, Bool.or_eq_true, isAlpha_iff]
  rcases h with h | ⟨ha, hf⟩ | ⟨hA, hF⟩
  · refine .inr ?_
    simp only [Char.isDigit, Bool.and_eq_true, decide_eq_true_eq]
    exact h
  · exact .inl (.inr ⟨ha, UInt32.le_trans hf (by decide)⟩)
  · exact .inl (.inl ⟨hA, UInt32.le_trans hF (by decide)⟩)

theorem IsDigitForm.inColor (h : IsDigitForm cs) : ∀ c ∈ cs, InColor c := by
  obtain ⟨mark, digits, hmark, -, hdigits, rfl⟩ := h
  intro c hc
  rcases List.mem_append.1 hc with hc | hc
  · rw [List.mem_cons, List.mem_singleton] at hmark
    rcases hmark with rfl | rfl
    · rw [List.mem_singleton.1 hc]
      decide
    · rw [List.mem_cons, List.mem_singleton] at hc
      rcases hc with rfl | rfl <;> decide
  · exact inColor_of_isBaseSixteen (hdigits c hc)

theorem newline_notMem_of_inColor (h : ∀ c ∈ cs, InColor c) : '\n' ∉ cs :=
  fun hmem => absurd (h _ hmem) (by decide)

/-- The check for digits, on the text before its line end. -/
theorem isHex_iff : isHex s = true ↔ IsDigitForm (dropLineEnd s.toList) := by
  have hdigits {ds : List Char} :
      ((ds.length == 6 || ds.length == 8) && ds.all isHexDigit) = true ↔
        (ds.length = 6 ∨ ds.length = 8) ∧ ∀ c ∈ ds, IsBaseSixteen c := by
    simp [List.all_eq_true, isHexDigit_iff]
  unfold isHex
  dsimp only
  split
  · next ds heq =>
    rw [heq, Option.elim_some, hdigits]
    constructor
    · rintro ⟨hlength, hall⟩
      exact ⟨['#'], ds, by simp, hlength, hall, rfl⟩
    · rintro ⟨mark, digits, hmark, hlength, hall, h⟩
      rw [List.mem_cons, List.mem_singleton] at hmark
      rcases hmark with rfl | rfl
      · obtain rfl := (List.cons.inj h).2
        exact ⟨hlength, hall⟩
      · cases h
  · next ds heq =>
    rw [heq, Option.elim_some, hdigits]
    constructor
    · rintro ⟨hlength, hall⟩
      exact ⟨['0', 'x'], ds, by simp, hlength, hall, rfl⟩
    · rintro ⟨mark, digits, hmark, hlength, hall, h⟩
      rw [List.mem_cons, List.mem_singleton] at hmark
      rcases hmark with rfl | rfl
      · cases h
      · obtain rfl := (List.cons.inj (List.cons.inj h).2).2
        exact ⟨hlength, hall⟩
  · next hsharp hzero =>
    refine ⟨fun h => absurd h Bool.false_ne_true, ?_⟩
    rintro ⟨mark, digits, hmark, -, -, h⟩
    rw [List.mem_cons, List.mem_singleton] at hmark
    rcases hmark with rfl | rfl
    · exact absurd h (hsharp digits)
    · exact absurd h (hzero digits)

/-- The digits may have a line end after them. -/
theorem isDigitForm_dropLineEnd :
    IsDigitForm (dropLineEnd cs) ↔ IsDigitForm cs ∨ ∃ ds, IsDigitForm ds ∧ cs = ds ++ ['\n'] := by
  unfold dropLineEnd
  split
  · next hlast =>
    obtain ⟨before, rfl⟩ := List.getLast?_eq_some_iff.1 hlast
    rw [List.dropLast_concat]
    constructor
    · intro h
      exact .inr ⟨before, h, rfl⟩
    · rintro (h | ⟨ds, h, heq⟩)
      · exact absurd (by simp) (newline_notMem_of_inColor h.inColor)
      · rwa [List.append_cancel_right heq]
  · next hlast =>
    constructor
    · exact .inl
    · rintro (h | ⟨ds, -, rfl⟩)
      · exact h
      · exact absurd (by simp) hlast

/-! ## names -/

/-- The case of a character is that of the letter it counts as. -/
theorem lowerChar_eq (c : Char) : lowerChar c = (plainK c).toLower := by
  unfold lowerChar
  split
  · next h =>
    have hkelvin : c ≠ kelvinSign := by
      rintro rfl
      exact absurd h (by decide)
    rw [plainK, if_neg hkelvin]
    have hall : ∀ n < 91, 65 ≤ n → Char.ofNat (n + 32) = (Char.ofNat n).toLower := by decide
    have hlower := hall c.toNat (Nat.lt_succ_of_le h.2) h.1
    rwa [Char.ofNat_toNat] at hlower
  · next h =>
    split
    · next hkelvin =>
      rw [hkelvin]
      rfl
    · next hkelvin =>
      have hlower : c.toLower = c := dif_neg h
      rw [plainK, if_neg hkelvin, hlower]

/-- A character whose lower case is a small letter is an ASCII letter. -/
theorem isAlpha_of_isLower_toLower (h : c.toLower.isLower = true) : c.isAlpha = true := by
  rw [isAlpha_iff]
  by_cases hupper : 'A' ≤ c ∧ c ≤ 'Z'
  · exact .inl hupper
  · have heq : c.toLower = c := dif_neg hupper
    rw [heq] at h
    exact .inr (isLower_iff.1 h)

theorem toNat_lt_of_isAlpha (h : c.isAlpha = true) : c.toNat < 128 := by
  rcases isAlpha_iff.1 h with ⟨-, h⟩ | ⟨-, h⟩
  · have hle : c.toNat ≤ 90 := h
    omega
  · have hle : c.toNat ≤ 122 := h
    omega

theorem InColor.toNat_lt (h : InColor c) : c.toNat < 128 := by
  obtain rfl | h := h
  · decide
  · rw [Char.isAlphanum, Bool.or_eq_true] at h
    obtain h | h := h
    · exact toNat_lt_of_isAlpha h
    · exact (Char.isDigit_iff_toNat.1 h).2.trans_lt (by decide)

/-- What is a name in lower case has nothing but letters. -/
theorem isAlpha_of_map_toLower {p : String × Nat} (hp : p ∈ names)
    (h : cs.map Char.toLower = p.1.toList) : ∀ c ∈ cs, c.isAlpha = true := by
  intro c hc
  have hlower := isLower_of_mem_names p hp
  rw [← h, List.all_map, List.all_eq_true] at hlower
  exact isAlpha_of_isLower_toLower (hlower c hc)

theorem IsNameForm.inColor (h : IsNameForm cs) : ∀ c ∈ cs, InColor c := by
  obtain ⟨-, p, hp, hname⟩ := h
  intro c hc
  exact .inr (by rw [Char.isAlphanum, isAlpha_of_map_toLower hp hname c hc, Bool.true_or])

/-- The check for names, on the text without Kelvin signs. -/
theorem named?_isSome_iff : (named? s).isSome = true ↔ IsNameForm (s.toList.map plainK) := by
  have hlower : (lower s).toList = (s.toList.map plainK).map Char.toLower := by
    simp [lower, lowerChar_eq]
  rw [named?, List.lookup_isSome_iff, IsNameForm]
  constructor
  · rintro ⟨p, hp, hname⟩
    rw [beq_iff_eq] at hname
    have hmap : (s.toList.map plainK).map Char.toLower = p.1.toList := by rw [← hlower, hname]
    exact ⟨fun c hc => toNat_lt_of_isAlpha (isAlpha_of_map_toLower hp hmap c hc), p, hp, hmap⟩
  · rintro ⟨-, p, hp, hmap⟩
    exact ⟨p, hp, beq_iff_eq.2 (String.toList_injective (by rw [hlower, hmap]))⟩

theorem map_plainK (h : kelvinSign ∉ cs) : cs.map plainK = cs := by
  refine (List.map_congr_left fun c hc => ?_).trans (List.map_id cs)
  have hne : c ≠ kelvinSign := fun heq => h (heq ▸ hc)
  exact if_neg hne

theorem IsNameForm.kelvinSign_notMem (h : IsNameForm cs) : kelvinSign ∉ cs :=
  fun hmem => absurd (h.1 _ hmem) (by decide)

/-- A name that counts as one without its Kelvin signs has none, or is no name. -/
theorem isNameForm_map_plainK :
    IsNameForm (cs.map plainK) ↔ IsNameForm cs ∨ (kelvinSign ∈ cs ∧ IsNameForm (cs.map plainK)) := by
  by_cases hkelvin : kelvinSign ∈ cs
  · exact ⟨fun h => .inr ⟨hkelvin, h⟩,
      fun h => h.elim (fun h => absurd hkelvin h.kelvinSign_notMem) And.right⟩
  · simp [hkelvin, map_plainK hkelvin]

/-! ## what passes -/

/-- What may be used as a color is of a form that is meant, or of one of the two others. -/
theorem isColor_iff : isColor s = true ↔ IsDocumented s ∨ IsLineForm s ∨ IsKelvinForm s := by
  rw [isColor, Bool.or_eq_true, isHex_iff, isDigitForm_dropLineEnd, named?_isSome_iff,
    isNameForm_map_plainK, or_assoc, or_left_comm (b := IsNameForm s.toList), ← or_assoc]
  rfl

/-- The Kelvin sign at the end of this name looks like a `K`, and counts as a `k`. -/
example : isColor (String.ofList ['B', 'l', 'a', 'c', kelvinSign]) = true := by
  decide +kernel

theorem IsDocumented.inColor (h : IsDocumented s) : ∀ c ∈ s.toList, InColor c :=
  h.elim IsDigitForm.inColor IsNameForm.inColor

theorem not_isDocumented_of_isLineForm (h : IsLineForm s) : ¬ IsDocumented s := by
  obtain ⟨cs, -, hs⟩ := h
  intro hdocumented
  exact newline_notMem_of_inColor hdocumented.inColor (by simp [hs])

theorem not_isDocumented_of_isKelvinForm (h : IsKelvinForm s) : ¬ IsDocumented s :=
  fun hdocumented => absurd (hdocumented.inColor _ h.1) (by decide)

/-- Whatever passes, nothing stands in it but characters of the documented forms, line ends and
Kelvin signs. -/
theorem inColor_of_isColor (h : isColor s = true) :
    ∀ c ∈ s.toList, InColor c ∨ c = '\n' ∨ c = kelvinSign := by
  intro c hc
  rcases isColor_iff.1 h with h | ⟨cs, h, hs⟩ | ⟨-, h⟩
  · exact .inl (h.inColor c hc)
  · rw [hs, List.mem_append, List.mem_singleton] at hc
    exact hc.imp (h.inColor c) .inl
  · have hplain := h.inColor (plainK c) (List.mem_map_of_mem hc)
    unfold plainK at hplain
    split at hplain
    · next hkelvin => exact .inr (.inr hkelvin)
    · exact .inl hplain

end Storyboard.Color
