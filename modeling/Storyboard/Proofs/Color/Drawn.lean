import Storyboard.Proofs.Color

/-!
# Storyboard.Proofs.Color.Drawn

The color that a card is drawn in.  What a specification may use as a color and what can be drawn
are two languages: only the first has `0x`, and only the second has three or four digits.  Every
color that is meant stands for a red, a green and a blue, and that is what is drawn, however the
color is spelled.

* `IsDocumented.exists_standsFor` — every color that is meant stands for one;
* `StandsFor.rgb?_forCard`        — and is drawn as it;
* `StandsFor.eq_of_plainForm_eq`  — the mark and the case of letters make no difference.
-/

namespace Storyboard.Color

open Text

/-- The value of a digit of base sixteen: its place among the sixteen. -/
def digitValue (c : Char) : Nat := "0123456789abcdef".toList.idxOf c.toLower

/-- The red, green and blue that a color stands for: the first six digits, two for each, or the
entry of the table for the name in small letters. -/
inductive StandsFor : List Char → RGB → Prop
  | digits {mark opacity : List Char} {r r' g g' b b' : Char} (hmark : mark ∈ [['#'], ['0', 'x']])
      (hopacity : opacity.length = 0 ∨ opacity.length = 2)
      (hdigits : ∀ c ∈ r :: r' :: g :: g' :: b :: b' :: opacity, IsBaseSixteen c) :
      StandsFor (mark ++ r :: r' :: g :: g' :: b :: b' :: opacity)
        ⟨digitValue r * 16 + digitValue r', digitValue g * 16 + digitValue g',
          digitValue b * 16 + digitValue b'⟩
  | name {cs : List Char} {name : String} {n : Nat} (hascii : ∀ c ∈ cs, c.toNat < 128)
      (hname : cs.map Char.toLower = name.toList) (hn : names.lookup name = some n) :
      StandsFor cs (.ofNat n)

/-- A color with `#` for its mark and with small letters. -/
def plainForm : List Char → List Char
  | '0' :: 'x' :: ds => '#' :: ds.map Char.toLower
  | cs => cs.map Char.toLower

variable {c : Char} {cs ds : List Char} {s : String} {color other : RGB}

/-! ## digits -/

/-- The digits of base sixteen, in both cases. -/
theorem IsBaseSixteen.mem (h : IsBaseSixteen c) : c ∈ "0123456789abcdefABCDEF".toList := by
  have hlt : c.toNat < 128 := by
    obtain ⟨-, h⟩ | ⟨-, h⟩ | ⟨-, h⟩ := h
    · have hle : c.toNat ≤ 57 := h
      omega
    · have hle : c.toNat ≤ 102 := h
      omega
    · have hle : c.toNat ≤ 70 := h
      omega
  have hall : ∀ n < 128, IsBaseSixteen (Char.ofNat n) →
      Char.ofNat n ∈ "0123456789abcdefABCDEF".toList := by
    unfold IsBaseSixteen
    decide +kernel
  have hmem := hall c.toNat hlt
  rw [Char.ofNat_toNat] at hmem
  exact hmem h

theorem hexValue?_eq (h : IsBaseSixteen c) : hexValue? c = some (digitValue c) := by
  have hall : "0123456789abcdefABCDEF".toList.all
      (fun c => hexValue? c = some (digitValue c)) = true := by decide
  exact of_decide_eq_true (List.all_eq_true.1 hall c h.mem)

/-- A digit is one, and has its value, in small letters too. -/
theorem IsBaseSixteen.toLower (h : IsBaseSixteen c) :
    IsBaseSixteen c.toLower ∧ digitValue c.toLower = digitValue c := by
  have hall : "0123456789abcdefABCDEF".toList.all
      (fun c => isHexDigit c.toLower && digitValue c.toLower == digitValue c) = true := by decide
  have hc := List.all_eq_true.1 hall c h.mem
  rw [Bool.and_eq_true, isHexDigit_iff, beq_iff_eq] at hc
  exact hc

theorem mapM_hexValue? (h : ∀ c ∈ ds, IsBaseSixteen c) :
    ds.mapM hexValue? = some (ds.map digitValue) :=
  mapM_of_forall fun c hc => hexValue?_eq (h c hc)

/-! ## what a color stands for -/

theorem named?_eq (hascii : ∀ c ∈ s.toList, c.toNat < 128) :
    named? s = names.lookup (String.ofList (s.toList.map Char.toLower)) := by
  have hkelvin : kelvinSign ∉ s.toList := fun hmem => absurd (hascii _ hmem) (by decide)
  have hlower : s.toList.map lowerChar = (s.toList.map plainK).map Char.toLower := by
    rw [List.map_map]
    exact List.map_congr_left fun c _ => lowerChar_eq c
  rw [named?, lower, hlower, map_plainK hkelvin]

/-- A text with a mark is no name. -/
theorem named?_eq_none (h : s.toList = '#' :: ds) : named? s = none := by
  rw [← Option.not_isSome_iff_eq_none, named?_isSome_iff, h, List.map_cons]
  rintro ⟨-, p, hp, hname⟩
  exact absurd (isAlpha_of_map_toLower hp hname _ List.mem_cons_self) (by decide)

theorem dropLineEnd_eq (h : '\n' ∉ cs) : dropLineEnd cs = cs :=
  if_neg fun hlast => h (List.mem_of_getLast? hlast)

/-- A color that is meant stands for a red, a green and a blue. -/
theorem IsDocumented.exists_standsFor (h : IsDocumented s) : ∃ color, StandsFor s.toList color := by
  obtain ⟨mark, digits, hmark, hlength, hdigits, hs⟩ | ⟨hascii, p, hp, hname⟩ := h
  · obtain ⟨r, r', g, g', b, b', opacity, rfl⟩ : ∃ r r' g g' b b' opacity,
        digits = r :: r' :: g :: g' :: b :: b' :: opacity := by
      match digits with
      | r :: r' :: g :: g' :: b :: b' :: opacity => exact ⟨r, r', g, g', b, b', opacity, rfl⟩
      | [] | [_] | [_, _] | [_, _, _] | [_, _, _, _] | [_, _, _, _, _] => simp at hlength
    rw [hs]
    exact ⟨_, .digits hmark (by simpa using hlength) hdigits⟩
  · have hsome : (names.lookup p.1).isSome = true := List.lookup_isSome_iff.2 ⟨p, hp, by simp⟩
    obtain ⟨n, hn⟩ := Option.isSome_iff_exists.1 hsome
    exact ⟨_, .name hascii hname hn⟩

theorem toList_forCard_digits {mark : List Char} (hmark : mark ∈ [['#'], ['0', 'x']])
    (h : s.toList = mark ++ ds) : (forCard s).toList = '#' :: ds := by
  rw [List.mem_cons, List.mem_singleton] at hmark
  obtain rfl | rfl := hmark <;> simp [forCard, h]

theorem forCard_name (h : ∀ c ∈ s.toList, c.isAlpha = true) : forCard s = s := by
  unfold forCard
  split
  · next hzero =>
    rw [hzero] at h
    exact absurd (h '0' List.mem_cons_self) (by decide)
  · rfl

theorem mem_names {name : String} {n : Nat} (h : names.lookup name = some n) :
    (name, n) ∈ names := by
  obtain ⟨before, after, hnames, -⟩ := List.lookup_eq_some_iff.1 h
  simp [hnames]

/-- A color is shown with the characters of the documented forms. -/
theorem StandsFor.inColor_forCard (h : StandsFor s.toList color) :
    ∀ c ∈ (forCard s).toList, InColor c := by
  generalize hcs : s.toList = cs at h
  cases h with
  | digits hmark _ hdigits =>
    rw [toList_forCard_digits hmark hcs]
    exact List.forall_mem_cons.2 ⟨.inl rfl, fun c hc => inColor_of_isBaseSixteen (hdigits c hc)⟩
  | name _ hname hn =>
    have halpha := isAlpha_of_map_toLower (mem_names hn) hname
    rw [← hcs] at halpha
    rw [forCard_name halpha]
    exact fun c hc => .inr (by rw [Char.isAlphanum, halpha c hc, Bool.true_or])

/-- So it can be printed. -/
theorem StandsFor.hasHalf_forCard (h : StandsFor s.toList color) : hasHalf (forCard s) = false :=
  hasHalf_of_forall_lt fun c hc => (h.inColor_forCard c hc).toNat_lt.trans (by decide)

/-- A color is drawn as what it stands for. -/
theorem StandsFor.rgb?_forCard (h : StandsFor s.toList color) : rgb? (forCard s) = some color := by
  have hcolor := h.inColor_forCard
  generalize hcs : s.toList = cs at h
  cases h with
  | @digits mark opacity r r' g g' b b' hmark hopacity hdigits =>
    have hdrawn := toList_forCard_digits hmark hcs
    have hline := newline_notMem_of_inColor hcolor
    rw [rgb?, named?_eq_none hdrawn, dropLineEnd_eq hline, hdrawn]
    simp only [mapM_hexValue? hdigits]
    match opacity with
    | [] | [_, _] => rfl
    | [_] | _ :: _ :: _ :: _ => simp at hopacity
  | @name _ name n hascii hname hn =>
    rw [← hcs] at hascii hname
    rw [forCard_name (isAlpha_of_map_toLower (mem_names hn) hname), rgb?, named?_eq hascii, hname,
      String.ofList_toList, hn]

/-! ## spellings -/

theorem StandsFor.plain (h : StandsFor cs color) : StandsFor (plainForm cs) color := by
  cases h with
  | @digits mark opacity r r' g g' b b' hmark hopacity hdigits =>
    have hplain : plainForm (mark ++ r :: r' :: g :: g' :: b :: b' :: opacity)
        = ['#'] ++ (r :: r' :: g :: g' :: b :: b' :: opacity).map Char.toLower := by
      rw [List.mem_cons, List.mem_singleton] at hmark
      obtain rfl | rfl := hmark <;> rfl
    have hlower : ∀ c ∈ (r :: r' :: g :: g' :: b :: b' :: opacity).map Char.toLower,
        IsBaseSixteen c := by
      intro c hc
      obtain ⟨d, hd, rfl⟩ := List.mem_map.1 hc
      exact (hdigits d hd).toLower.1
    have hvalue {d : Char} (hd : d ∈ r :: r' :: g :: g' :: b :: b' :: opacity) :
        digitValue d.toLower = digitValue d := (hdigits d hd).toLower.2
    have hmark' : ['#'] ∈ [['#'], ['0', 'x']] := List.mem_cons_self
    have hstands := StandsFor.digits hmark' (by simpa using hopacity) hlower
    simp only [hvalue, List.mem_cons, true_or, or_true] at hstands
    rwa [hplain]
  | @name _ name n hascii hname hn =>
    have halpha := isAlpha_of_map_toLower (mem_names hn) hname
    have hplain : plainForm cs = cs.map Char.toLower := by
      unfold plainForm
      split
      · exact absurd (halpha '0' List.mem_cons_self) (by decide)
      · rfl
    have hsmall : (cs.map Char.toLower).map Char.toLower = name.toList := by
      rw [hname]
      refine (List.map_congr_left fun d hd => ?_).trans (List.map_id _)
      have hlower := isLower_iff.1 (List.all_eq_true.1 (isLower_of_mem_names _ (mem_names hn)) d hd)
      exact dif_neg fun hupper => absurd (UInt32.le_trans hlower.1 hupper.2) (by decide)
    rw [hplain]
    refine .name (fun c hc => ?_) hsmall hn
    exact toNat_lt_of_isAlpha (isAlpha_of_map_toLower (mem_names hn) hsmall c hc)

/-- Two spellings of one color stand for one color. -/
theorem StandsFor.eq_of_plainForm_eq (h : StandsFor cs color) (h' : StandsFor ds other)
    (heq : plainForm cs = plainForm ds) : color = other := by
  have hplain := h.plain
  have hother := h'.plain
  rw [heq] at hplain
  rw [← String.toList_ofList (l := plainForm ds)] at hplain hother
  exact Option.some.inj (hplain.rgb?_forCard.symm.trans hother.rgb?_forCard)

end Storyboard.Color
