import Storyboard.Proofs.Number.Numeral

/-!
# Storyboard.Proofs.Number.Printed

The number that a decimal stands for once it is written into a filter.  Whatever the decimal is,
it is rounded to millionths then; one that is some millionths is written as it is.

* `Decimal.denotes_iff` — filter text denotes the printed number and no other;
* `Decimal.printed_of_isMicro` — which is the decimal itself if it is some millionths;
* `Numeral.read?_of_denotes` — the number is read off the text.
-/

namespace Storyboard

namespace Decimal

open Number

variable {x y z : Decimal} {p q : ℚ}

/-- The number that the filter text of a finite decimal denotes. -/
def printed : Decimal → ℚ
  | .finite negative c e => withSign negative (millionths c e) / 10 ^ 6
  | _ => 0

theorem denotes_printed (hx : x.toRat? = some q) : Numeral.Denotes x.shortText x.printed := by
  obtain ⟨negative, c, e, rfl, -⟩ := exists_of_toRat? hx
  exact ⟨Numeral.ofMillionths negative (millionths c e), Numeral.text_ofMillionths ..,
    Numeral.value_ofMillionths ..⟩

theorem denotes_iff (hx : x.toRat? = some q) : Numeral.Denotes x.shortText p ↔ p = x.printed := by
  constructor
  · intro hp
    exact hp.unique (denotes_printed hx)
  · rintro rfl
    exact denotes_printed hx

theorem printed_of_isMicro (hx : x.toRat? = some q) (hq : IsMicro q) : x.printed = q :=
  (denotes_printed hx).unique (Numeral.denotes_shortText hx hq)

/-- An integer is written without a point. -/
theorem shortText_ofInt (i : Int) : (ofInt i).shortText = i.repr := by
  have hmillionths : millionths i.natAbs 0 = i.natAbs * tens places := by
    rw [millionths_eq, if_pos (by decide)]
    rfl
  have hsign : (decide (i < 0) && i.natAbs * tens places != 0) = decide (i < 0) := by
    by_cases hi : i < 0
    · have hne : i.natAbs * tens places ≠ 0 := Nat.mul_ne_zero (by omega) (tens_pos _).ne'
      simp [hi, hne]
    · simp [hi]
  have hfraction : fractionDigits 0 = [] := by decide
  rw [ofInt, shortText, hmillionths, millionthsText, hsign, Nat.mul_div_cancel _ (tens_pos _),
    Nat.mul_mod_left, hfraction, ← Numeral.text_ofInt, Numeral.text]
  dsimp only [Numeral.unsigned, Numeral.ofInt, List.isEmpty_nil]
  rw [if_pos rfl, if_pos rfl, List.append_nil, String.ofList_toList, String.append_empty]

/-- What is rounded is finite; its sign stays, and so does zero. -/
theorem exists_of_fit {negative : Bool} {c : Nat} {e : Int} (h : fit negative c e = .ok z) :
    ∃ c' e', z = .finite negative c' e' ∧ (c = 0 → c' = 0) := by
  by_cases hc : c = 0
  · rw [fit, if_pos hc] at h
    exact ⟨0, _, (Except.ok.inj h).symm, fun _ => rfl⟩
  · rw [fit_of_ne_zero hc] at h
    split at h
    · cases h
    · exact ⟨_, _, (Except.ok.inj h).symm, fun hzero => absurd hzero hc⟩

/-- A sum of finite decimals is finite. -/
theorem toRat?_of_add (hx : x.toRat? = some p) (hy : y.toRat? = some q) (h : x.add y = .ok z) :
    ∃ r, z.toRat? = some r := by
  obtain ⟨negative, c, e, hadd, -⟩ := add_eq_fit hx hy
  obtain ⟨c', e', rfl, -⟩ := exists_of_fit (hadd ▸ h)
  exact ⟨_, toRat?_finite ..⟩

theorem toRat?_of_sub (hx : x.toRat? = some p) (hy : y.toRat? = some q) (h : x.sub y = .ok z) :
    ∃ r, z.toRat? = some r :=
  toRat?_of_add hx (toRat?_neg hy) (sub_eq_add_of_toRat? hx hy ▸ h)

/-- However a sum is rounded, it does not fall below zero. -/
theorem nonneg_of_add (hx : x.toRat? = some p) (hy : y.toRat? = some q)
    (hsum : 0 ≤ p + q) (h : x.add y = .ok z) : ∃ r, z.toRat? = some r ∧ 0 ≤ r := by
  obtain ⟨negative, c, e, hadd, hvalue⟩ := add_eq_fit hx hy
  obtain ⟨c', e', rfl, hzero⟩ := exists_of_fit (hadd ▸ h)
  refine ⟨_, toRat?_finite .., ?_⟩
  cases negative with
  | false =>
    rw [withSign, if_neg Bool.false_ne_true, Int.cast_natCast]
    positivity
  | true =>
    rw [hzero (eq_zero_of_sign (hvalue ▸ hsum) rfl)]
    simp [withSign]

end Decimal

namespace Numeral

theorem inText_of_denotes {s : String} {q : ℚ} (h : Denotes s q) {c : Char} (hc : c ∈ s.toList) :
    InText c := by
  obtain ⟨n, rfl, -⟩ := h
  rw [text, String.toList_append, String.toList_ofList, List.mem_append] at hc
  exact hc.elim inText_of_mem_signText n.inText_of_mem_unsigned

instance : DecidablePred InText := fun c =>
  inferInstanceAs (Decidable (c.isDigit = true ∨ c ∈ ['-', '+', '.', 'e']))

/-- Other characters do not stand in a numeral. -/
theorem notMem_of_denotes {s : String} {q : ℚ} (h : Denotes s q) {c : Char} (hc : ¬ InText c) :
    c ∉ s.toList :=
  fun hmem => hc (inText_of_denotes h hmem)

/-! ## reading -/

open Decimal

/-- The number of a text that is a numeral: digits, a point with digits after it if there is one,
and a sign before them if there is one. -/
def read? (s : String) : Option ℚ :=
  let (negative, cs) := splitSign s.toList
  let (whole, rest) := spanDigits cs
  let (fraction, rest) :=
    match rest with
    | '.' :: rest => spanDigits rest
    | rest => ([], rest)
  if whole = [] ∨ rest ≠ [] then none
  else some (withSign negative (digitsValue (whole ++ fraction)) / 10 ^ fraction.length)

/-- What a text denotes is read off it. -/
theorem read?_of_denotes {s : String} {q : ℚ} (h : Denotes s q) : read? s = some q := by
  obtain ⟨n, rfl, rfl⟩ := h
  have hspan : spanDigits (n.fraction ++ []) = (n.fraction, []) :=
    spanDigits_append (fun c hc => n.isDigit c (List.mem_append_right _ hc)) (by simp)
  rw [List.append_nil] at hspan
  rw [read?, splitSign_text]
  dsimp only
  rw [spanDigits_unsigned]
  dsimp only
  cases hfraction : n.fraction with
  | nil => simp [n.whole_ne_nil, value, coefficient, hfraction]
  | cons c cs =>
    rw [hfraction] at hspan
    simp [n.whole_ne_nil, value, coefficient, hfraction, hspan]

end Numeral

end Storyboard
