import Storyboard.Proofs.Number.Nearest
import Storyboard.Proofs.Number.Opposite

/-!
# Storyboard.Proofs.Number.ReadBack

The shortest digits of a floating-point number are read as that number.  The search for them takes
none that are not read back, so it is left to show that what is done with the digits after the
search changes nothing: the zeros at their end are taken off, or put on again for a whole number,
and digits that stand for one fraction are read as one number.

* `Double.ofRatio_congr`    — a fraction is read by its value;
* `Double.ofDigits_mul_tens` — so are digits, with or without zeros at their end;
* `Double.ofDecimal_toDecimal` — the decimal of a number is read as the number.
-/

namespace Storyboard

open Number Decimal

namespace Number

/-- A quotient is rounded by its value. -/
theorem roundHalfEven_mul_mul (a b : Nat) {k : Nat} (hk : 0 < k) :
    roundHalfEven (a * k) (b * k) = roundHalfEven a b := by
  have hless (i j : Nat) : 2 * (i * k) < j * k ↔ 2 * i < j := by
    rw [← Nat.mul_assoc]
    exact Nat.mul_lt_mul_right hk
  have hmore (i j : Nat) : j * k < 2 * (i * k) ↔ j < 2 * i := by
    rw [← Nat.mul_assoc]
    exact Nat.mul_lt_mul_right hk
  simp only [roundHalfEven, Nat.mul_div_mul_right _ _ hk, Nat.mul_mod_mul_right, hless, hmore]

theorem roundHalfEven_congr {a b a' b' : Nat} (hb : 0 < b) (hb' : 0 < b')
    (h : (a : ℚ) / b = a' / b') : roundHalfEven a b = roundHalfEven a' b' := by
  have hcross : a * b' = a' * b := by
    rw [div_eq_div_iff (by positivity) (by positivity)] at h
    exact_mod_cast h
  rw [← roundHalfEven_mul_mul a b hb', ← roundHalfEven_mul_mul a' b' hb, hcross, Nat.mul_comm b b']

end Number

namespace Double

variable {negative : Bool} {n d n' d' c m : Nat} {e : Int}

/-! ## fractions -/

/-- A fraction is read by its value. -/
theorem ofRatio_congr (hd : 0 < d) (hd' : 0 < d') (h : (n : ℚ) / d = n' / d') :
    ofRatio negative n d = ofRatio negative n' d' := by
  have hzero : n = 0 ↔ n' = 0 := by
    have hcast : (n : ℚ) / d = 0 ↔ (n' : ℚ) / d' = 0 := by rw [h]
    simpa [hd.ne', hd'.ne'] using hcast
  by_cases hn : n = 0
  · rw [hn, hzero.1 hn, ofRatio, ofRatio, if_pos rfl, if_pos rfl]
  · have hn' : n' ≠ 0 := fun h => hn (hzero.2 h)
    have hexponent : exponentFor n d = exponentFor n' d' := by
      obtain ⟨k, hk, hlow, hhigh⟩ := exponentFor_forms hn' hd'
      rw [← h] at hlow hhigh
      rw [hk]
      refine exponentFor_eq hn hd (le_max_left _ _) (hhigh.trans_le ?_) ?_
      · exact zpow_le_zpow_right₀ (by norm_num) (by omega)
      · obtain hmin | hmax := max_choice minExponent k
        · exact .inl hmin
        · rw [hmax]
          exact .inr hlow
    have hround : roundHalfEven (inUnits n d (exponentFor n' d')).1
          (inUnits n d (exponentFor n' d')).2
        = roundHalfEven (inUnits n' d' (exponentFor n' d')).1
          (inUnits n' d' (exponentFor n' d')).2 := by
      refine roundHalfEven_congr (inUnits_pos hd _) (inUnits_pos hd' _) ?_
      have hpow : (2 : ℚ) ^ exponentFor n' d' ≠ 0 := by positivity
      rw [← mul_left_inj' hpow, inUnits_value, inUnits_value, h]
    simp only [ofRatio, if_neg hn, if_neg hn', hexponent, hround]

/-! ## digits -/

/-- Digits are read as the fraction that they stand for, if that is in reach. -/
theorem exists_ofRatio (hc : c ≠ 0) (negative : Bool) (e : Int)
    (hhigh : ¬ 400 < e + digitCount c) (hlow : ¬ e + digitCount c < -400) :
    ∃ n d : Nat, 0 < d ∧ (n : ℚ) / d = c * 10 ^ e ∧
      ofDigits negative c e = ofRatio negative n d := by
  simp only [ofDigits, if_neg hc, if_neg hhigh, if_neg hlow]
  split
  · next he =>
    refine ⟨c * tens e.toNat, 1, Nat.one_pos, ?_, rfl⟩
    rw [Nat.cast_mul, cast_tens_toNat he, Nat.cast_one, div_one]
  · next he =>
    refine ⟨c, tens (-e).toNat, tens_pos _, ?_, rfl⟩
    rw [cast_tens_toNat (by omega), zpow_neg, div_inv_eq_mul]

theorem digitCount_mul_tens (hc : c ≠ 0) (k : Nat) :
    digitCount (c * tens k) = digitCount c + k := by
  have hpos := digitCount_pos c
  apply Nat.le_antisymm
  · rw [digitCount_le_iff (by omega), tens_add]
    exact Nat.mul_lt_mul_of_pos_right (lt_tens_digitCount c) (tens_pos k)
  · by_contra hless
    have hle : digitCount (c * tens k) ≤ digitCount c - 1 + k := by omega
    have hk : 0 < digitCount c - 1 + k := (digitCount_pos _).trans_le hle
    rw [digitCount_le_iff hk, tens_add] at hle
    have hlow := Nat.mul_le_mul_right (tens k) (tens_digitCount_le hc)
    omega

/-- Zeros at the end of digits are as good as a larger exponent. -/
theorem ofDigits_mul_tens (negative : Bool) (c k : Nat) (e : Int) :
    ofDigits negative (c * tens k) e = ofDigits negative c (e + k) := by
  by_cases hc : c = 0
  · rw [hc, Nat.zero_mul, ofDigits, ofDigits, if_pos rfl, if_pos rfl]
  have hck : c * tens k ≠ 0 := Nat.mul_ne_zero hc (tens_pos k).ne'
  have hplace : e + digitCount (c * tens k) = e + k + digitCount c := by
    rw [digitCount_mul_tens hc]
    push_cast
    omega
  by_cases hhigh : 400 < e + k + digitCount c
  · simp only [ofDigits, if_neg hc, if_neg hck, hplace, if_pos hhigh]
  by_cases hlow : e + k + digitCount c < -400
  · simp only [ofDigits, if_neg hc, if_neg hck, hplace, if_neg hhigh, if_pos hlow]
  obtain ⟨n, d, hd, hvalue, hread⟩ := exists_ofRatio hc negative (e + k) hhigh hlow
  obtain ⟨n', d', hd', hvalue', hread'⟩ := exists_ofRatio hck negative e (by rwa [hplace])
    (by rwa [hplace])
  rw [hread, hread']
  refine ofRatio_congr hd' hd ?_
  rw [hvalue, hvalue', Nat.cast_mul, cast_tens, zpow_add₀ (by norm_num), zpow_natCast]
  ring

theorem ofDigits_dropZeros (negative : Bool) (fuel c : Nat) (e : Int) :
    ofDigits negative (dropZeros fuel c e).1 (dropZeros fuel c e).2 = ofDigits negative c e := by
  induction fuel generalizing c e with
  | zero => rfl
  | succ fuel ih =>
    rw [dropZeros]
    split
    · next hzero =>
      have hc : c / 10 * tens 1 = c := Nat.div_mul_cancel (Nat.dvd_of_mod_eq_zero hzero)
      have hten := ofDigits_mul_tens negative (c / 10) 1 e
      rw [hc] at hten
      rw [ih, hten]
      rfl
    · rfl

/-! ## the digits of a number -/

/-- What the search finds is read back, if it is not zero. -/
theorem ofDigits_search {x : Double} {count : Nat} (h : (search x n d e count).1 ≠ 0) :
    ofDigits false (search x n d e count).1 (search x n d e count).2 = x := by
  induction count generalizing e with
  | zero => exact absurd rfl h
  | succ count ih =>
    rw [search] at h ⊢
    split
    · next c hc => exact ofDigits_of_onGrid? hc
    · next hnone =>
      rw [hnone] at h
      exact ih h

/-- The shortest digits of a number are read as the number. -/
theorem ofDigits_shortest (hm : m ≠ 0) (h : Canonical m e) :
    ofDigits negative (shortest m e).1 (shortest m e).2 = .finite negative m e h := by
  have hpositive : ofDigits false (shortest m e).1 (shortest m e).2 = .finite false m e h := by
    have hx : ofParts false m e = .finite false m e h := dif_pos h
    have hne := shortest_ne_zero hm h
    obtain ⟨count, fuel, found, -, -, hfound, hshortest⟩ := shortest_found m e
    rw [hx] at hfound
    by_cases hzero : found.1 = 0
    · rw [hshortest, if_pos hzero] at hne
      exact absurd hzero hne
    · rw [hshortest, if_neg hzero, ofDigits_dropZeros]
      rw [hfound] at hzero ⊢
      exact ofDigits_search hzero
  cases negative with
  | false => exact hpositive
  | true =>
    have hopposite := neg_ofDigits false (shortest m e).1 (shortest m e).2
    rw [hpositive] at hopposite
    exact hopposite.symm

/-- The decimal of a finite number is read as the number. -/
theorem ofDecimal_toDecimal {x : Double} (hx : x.isFinite = true) :
    ofDecimal x.toDecimal = x := by
  cases x with
  | finite negative m e h =>
    by_cases hm : m = 0
    · subst hm
      obtain rfl : e = minExponent := h.2.2.2.resolve_left (by decide)
      rw [toDecimal_finite_eq h, if_pos rfl]
      rfl
    · rcases hshort : shortest m e with ⟨c, g⟩
      have hread : ofDigits negative (shortest m e).1 (shortest m e).2 = .finite negative m e h :=
        ofDigits_shortest hm h
      rw [hshort] at hread
      rw [toDecimal_of_shortest h hm hshort, ofShortest]
      split
      · next hwhole =>
        rw [ofDecimal, ofDigits_mul_tens, ← hread]
        congr 1
        omega
      · exact hread
  | infinite negative => cases hx
  | nan => cases hx

end Double

end Storyboard
