import Storyboard.Proofs.Number.Shortest

/-!
# Storyboard.Proofs.Number.Nearest

Reading to the nearest number of 64 bits.  A fraction that is closer to a number than half the way
to its neighbours is read as that number.  Seventeen digits come that close to any number, so the
search for the shortest digits finds some, and they are not zero unless the number is.

* `Double.ofRatio_of_near` — what is close to a number is read as it;
* `Double.shortest_ne_zero` — a number other than zero has digits other than zero.
-/

namespace Storyboard

open Number Decimal

namespace Double

/-! ## the exponent of a fraction -/

theorem cast_twos_toNat {e : Int} (h : 0 ≤ e) : (twos e.toNat : ℚ) = (2 : ℚ) ^ e := by
  have hpow (k : Nat) : (twos k : ℚ) = (2 : ℚ) ^ k := by
    rw [twos, Nat.pow_eq, Nat.cast_pow, Nat.cast_ofNat]
  rw [hpow, ← zpow_natCast, Int.toNat_of_nonneg h]

section Exponent

variable {n d : Nat} {e : Int}

/-- A fraction in units is the fraction divided by the unit. -/
theorem inUnits_value (n d : Nat) (e : Int) :
    ((inUnits n d e).1 : ℚ) / (inUnits n d e).2 * 2 ^ e = n / d := by
  have hpow : (2 : ℚ) ^ e ≠ 0 := by positivity
  unfold inUnits
  split
  · next he =>
    rw [Nat.cast_mul, cast_twos_toNat he, ← div_div, div_mul_cancel₀ _ hpow]
  · next he =>
    rw [Nat.cast_mul, cast_twos_toNat (by omega), zpow_neg]
    field_simp

theorem inUnits_pos (hd : 0 < d) (e : Int) : 0 < (inUnits n d e).2 := by
  unfold inUnits
  split
  · exact Nat.mul_pos hd (twos_pos _)
  · exact hd

/-- The logarithms of numerator and denominator tell the exponent of a fraction up to one. -/
theorem fraction_bounds (hn : n ≠ 0) (hd : 0 < d) :
    (2 : ℚ) ^ ((n.log2 : Int) - d.log2 - 1) < n / d ∧
      (n : ℚ) / d < 2 ^ ((n.log2 : Int) - d.log2 + 1) := by
  have hd' : (0 : ℚ) < d := by exact_mod_cast hd
  have hlow {k : Nat} (hk : k ≠ 0) : (2 : ℚ) ^ (k.log2 : Int) ≤ k := by
    rw [zpow_natCast]
    exact_mod_cast Nat.log2_self_le hk
  have hhigh (k : Nat) : (k : ℚ) < 2 ^ ((k.log2 : Int) + 1) := by
    rw [← Nat.cast_add_one, zpow_natCast]
    exact_mod_cast Nat.lt_log2_self
  constructor
  · rw [lt_div_iff₀ hd']
    calc (2 : ℚ) ^ ((n.log2 : Int) - d.log2 - 1) * d
        < 2 ^ ((n.log2 : Int) - d.log2 - 1) * 2 ^ ((d.log2 : Int) + 1) :=
          mul_lt_mul_of_pos_left (hhigh d) (by positivity)
      _ = 2 ^ (n.log2 : Int) := by rw [← zpow_add₀ (by norm_num)]; congr 1; omega
      _ ≤ n := hlow hn
  · rw [div_lt_iff₀ hd']
    calc (n : ℚ) < 2 ^ ((n.log2 : Int) + 1) := hhigh n
      _ = 2 ^ ((n.log2 : Int) - d.log2 + 1) * 2 ^ (d.log2 : Int) := by
          rw [← zpow_add₀ (by norm_num)]; congr 1; omega
      _ ≤ 2 ^ ((n.log2 : Int) - d.log2 + 1) * d :=
          mul_le_mul_of_nonneg_left (hlow hd.ne') (by positivity)

/-- The exponent of a fraction is the one at which it has 53 binary digits, or the smallest. -/
theorem exponentFor_forms (hn : n ≠ 0) (hd : 0 < d) : ∃ k, exponentFor n d = max minExponent k ∧
    (2 : ℚ) ^ (k + 52) ≤ n / d ∧ (n : ℚ) / d < 2 ^ (k + 53) := by
  obtain ⟨guess, hguess⟩ : ∃ guess : Int, guess = (n.log2 : Int) - d.log2 - 52 := ⟨_, rfl⟩
  obtain ⟨hgt, hle⟩ := fraction_bounds hn hd
  have hb : (0 : ℚ) < (inUnits n d guess).2 := by exact_mod_cast inUnits_pos hd guess
  have hless : (inUnits n d guess).1 < twos 52 * (inUnits n d guess).2 ↔
      (n : ℚ) / d < 2 ^ (guess + 52) := by
    have hpow : (2 : ℚ) ^ (guess + 52) = 2 ^ 52 * 2 ^ guess := by
      rw [zpow_add₀ (by norm_num), mul_comm]; rfl
    rw [← inUnits_value n d guess, hpow, mul_lt_mul_iff_of_pos_right (by positivity),
      div_lt_iff₀ hb]
    exact_mod_cast Iff.rfl
  have hexponent : exponentFor n d = max minExponent
      (if (inUnits n d guess).1 < twos 52 * (inUnits n d guess).2 then guess - 1 else guess) := by
    rw [hguess]
    rfl
  rw [hexponent]
  by_cases h : (n : ℚ) / d < 2 ^ (guess + 52)
  · refine ⟨guess - 1, by rw [if_pos (hless.2 h)], ?_, ?_⟩
    · rw [show guess - 1 + 52 = (n.log2 : Int) - d.log2 - 1 by omega]
      exact hgt.le
    · rwa [show guess - 1 + 53 = guess + 52 by omega]
  · refine ⟨guess, by rw [if_neg fun hless' => h (hless.1 hless')], not_lt.1 h, ?_⟩
    rwa [show guess + 53 = (n.log2 : Int) - d.log2 + 1 by omega]

/-- A fraction is written with 53 binary digits, or with fewer over the smallest exponent. -/
theorem exponentFor_eq (hn : n ≠ 0) (hd : 0 < d) (hmin : minExponent ≤ e)
    (hhigh : (n : ℚ) / d < 2 ^ (e + 53)) (hlow : e = minExponent ∨ (2 : ℚ) ^ (e + 52) ≤ n / d) :
    exponentFor n d = e := by
  have hlt {i j : Int} (h : (2 : ℚ) ^ i < 2 ^ j) : i < j :=
    (zpow_lt_zpow_iff_right₀ (by norm_num)).1 h
  obtain ⟨k, hk, hklow, hkhigh⟩ := exponentFor_forms hn hd
  have hke : k ≤ e := by
    have := hlt (hklow.trans_lt hhigh)
    omega
  rcases hlow with rfl | hlow
  · rw [hk, max_eq_left hke]
  · have hek := hlt (hlow.trans_lt hkhigh)
    rw [hk, max_eq_right (by omega)]
    omega

end Exponent

/-! ## what is close to a number -/

/-- A quotient is rounded by no more than a half. -/
theorem abs_sub_roundHalfEven_le {a b : Nat} (hb : 0 < b) :
    |(a : ℚ) / b - roundHalfEven a b| ≤ 1 / 2 := by
  have hb' : (0 : ℚ) < b := by exact_mod_cast hb
  obtain ⟨hlow, hhigh⟩ := roundHalfEven_near a b hb
  have hlow' : (2 : ℚ) * a ≤ 2 * (roundHalfEven a b * b) + b := by exact_mod_cast hlow
  have hhigh' : (2 : ℚ) * (roundHalfEven a b * b) ≤ 2 * a + b := by exact_mod_cast hhigh
  have hbelow : (a : ℚ) / b ≤ roundHalfEven a b + 1 / 2 := by
    rw [div_le_iff₀ hb']
    linarith
  have habove : (roundHalfEven a b : ℚ) - 1 / 2 ≤ a / b := by
    rw [le_div_iff₀ hb']
    linarith
  rw [abs_sub_le_iff]
  constructor <;> linarith

/-- A quotient that is closer than a half to a whole number is rounded to it. -/
theorem roundHalfEven_of_near {a b m : Nat} (hb : 0 < b) (h : |(a : ℚ) / b - m| < 1 / 2) :
    roundHalfEven a b = m := by
  have hround := abs_le.1 (abs_sub_roundHalfEven_le (a := a) hb)
  rw [abs_lt] at h
  have hless : (roundHalfEven a b : ℚ) < m + 1 := by linarith
  have hgreater : (m : ℚ) < roundHalfEven a b + 1 := by linarith
  have hless' : roundHalfEven a b < m + 1 := by exact_mod_cast hless
  have hgreater' : m < roundHalfEven a b + 1 := by exact_mod_cast hgreater
  omega

theorem roundHalfEven_eq_or (a b : Nat) :
    roundHalfEven a b = a / b ∨ roundHalfEven a b = a / b + 1 := by
  unfold roundHalfEven
  dsimp only
  split_ifs <;> simp

section Near

variable {negative : Bool} {n d m : Nat} {e : Int}

/-- A fraction is read as the multiple of its unit that it is closest to. -/
theorem roundHalfEven_inUnits (hd : 0 < d) (h : |(n : ℚ) / d - m * 2 ^ e| < 2 ^ e / 2) :
    roundHalfEven (inUnits n d e).1 (inUnits n d e).2 = m := by
  have hpow : (0 : ℚ) < 2 ^ e := by positivity
  refine roundHalfEven_of_near (inUnits_pos hd e) ?_
  rw [← inUnits_value n d e, ← sub_mul, abs_mul, abs_of_pos hpow] at h
  exact lt_of_mul_lt_mul_right (h.trans_eq (by ring)) hpow.le

theorem two_zpow_add (e : Int) (k : Nat) : (2 : ℚ) ^ (e + k) = 2 ^ k * 2 ^ e := by
  rw [zpow_add₀ (by norm_num), zpow_natCast, mul_comm]

/-- A fraction below the first number of an exponent has the exponent before; it is read as the
first number, if it is closer to it than half the way to the number before. -/
theorem ofRatio_below_first (hn : n ≠ 0) (hd : 0 < d) (h : Canonical (twos 52) e)
    (hmin : minExponent ≤ e - 1) (hless : (n : ℚ) / d < 2 ^ (e + 52))
    (hnear : |(n : ℚ) / d - (twos 52 : ℕ) * 2 ^ e| < 2 ^ e / 4) :
    ofRatio negative n d = .finite negative (twos 52) e h := by
  have hpow : (0 : ℚ) < 2 ^ e := by positivity
  have hhalf : (2 : ℚ) ^ e = 2 * 2 ^ (e - 1) := by
    rw [zpow_sub_one₀ (by norm_num)]
    ring
  have hless' : (n : ℚ) / d < 2 ^ (e - 1 + 53) := by
    rwa [show e - 1 + 53 = e + 52 by omega]
  have hmore : (2 : ℚ) ^ (e - 1 + 52) ≤ n / d := by
    have hcast : ((twos 52 : ℕ) : ℚ) = 2 ^ 52 := by norm_num [twos]
    have hbounds := abs_lt.1 hnear
    rw [hcast] at hbounds
    rw [show e - 1 + 52 = e + (51 : Nat) by omega, two_zpow_add]
    nlinarith
  have hround : |(n : ℚ) / d - (twos 53 : ℕ) * 2 ^ (e - 1)| < 2 ^ (e - 1) / 2 := by
    have hvalue : ((twos 53 : ℕ) : ℚ) * 2 ^ (e - 1) = (twos 52 : ℕ) * 2 ^ e := by
      rw [hhalf, show twos 53 = twos 52 * 2 from rfl, Nat.cast_mul]
      push_cast
      ring
    rw [hvalue]
    exact hnear.trans_eq (by rw [hhalf]; ring)
  simp only [ofRatio, if_neg hn, exponentFor_eq hn hd hmin hless' (.inr hmore),
    roundHalfEven_inUnits hd hround, if_true, Int.sub_add_cancel, ofParts, dif_pos h]

/-- What is closer to a number than half the way to its neighbours is read as that number.  The
first number of an exponent has a neighbour below it at half the distance. -/
theorem ofRatio_of_near (hd : 0 < d) (hm : m ≠ 0) (h : Canonical m e)
    (hnear : |(n : ℚ) / d - m * 2 ^ e| < 2 ^ e / 2)
    (hfirst : m = twos 52 → |(n : ℚ) / d - m * 2 ^ e| < 2 ^ e / 4) :
    ofRatio negative n d = .finite negative m e h := by
  have hpow : (0 : ℚ) < 2 ^ e := by positivity
  have hone : (1 : ℚ) ≤ m := by exact_mod_cast Nat.one_le_iff_ne_zero.2 hm
  obtain ⟨hlt, hmin, -, hfull⟩ := id h
  have hbounds := abs_lt.1 hnear
  have hn : n ≠ 0 := by
    rintro rfl
    rw [Nat.cast_zero, zero_div] at hbounds
    nlinarith
  have hhigh : (n : ℚ) / d < 2 ^ (e + 53) := by
    have hlt' : (m : ℚ) + 1 ≤ 2 ^ 53 := by exact_mod_cast hlt
    rw [show e + 53 = e + (53 : Nat) from rfl, two_zpow_add]
    nlinarith
  by_cases hlow : e = minExponent ∨ (2 : ℚ) ^ (e + 52) ≤ n / d
  · have hne : m ≠ twos 53 := hlt.ne
    simp only [ofRatio, if_neg hn, exponentFor_eq hn hd hmin hhigh hlow,
      roundHalfEven_inUnits hd hnear, if_neg hne, ofParts, dif_pos h]
  · rw [not_or, not_le] at hlow
    obtain ⟨hexponent, hless⟩ := hlow
    have hfull' : twos 52 ≤ m := hfull.resolve_right hexponent
    have hm' : m = twos 52 := by
      by_contra hne
      have hgt : twos 52 + 1 ≤ m := by omega
      have hcast : (2 : ℚ) ^ 52 + 1 ≤ m := by exact_mod_cast hgt
      rw [show e + 52 = e + (52 : Nat) from rfl, two_zpow_add] at hless
      nlinarith
    subst hm'
    exact ofRatio_below_first hn hd h (by omega) hless (hfirst rfl)

end Near

/-! ## seventeen digits -/

section Digits

variable {x : Double} {n d c m : Nat} {e g : Int}

/-- So are digits that are that close, unless they are out of all reach. -/
theorem ofDigits_of_near {negative : Bool} (hc : c ≠ 0) (hm : m ≠ 0) (h : Canonical m e)
    (hsmall : (10 : ℚ) ^ (-400 : Int) ≤ c * 10 ^ g) (hlarge : (c : ℚ) * 10 ^ g < 10 ^ (400 : Int))
    (hnear : |(c : ℚ) * 10 ^ g - m * 2 ^ e| < 2 ^ e / 2)
    (hfirst : m = twos 52 → |(c : ℚ) * 10 ^ g - m * 2 ^ e| < 2 ^ e / 4) :
    ofDigits negative c g = .finite negative m e h := by
  have hpow : (0 : ℚ) < 10 ^ g := by positivity
  have hbelow : ¬ g + digitCount c < -400 := by
    have hlt : (c : ℚ) < 10 ^ (digitCount c : Int) := by
      rw [zpow_natCast, ← cast_tens]
      exact_mod_cast lt_tens_digitCount c
    have hless : (10 : ℚ) ^ (-400 : Int) < 10 ^ (g + digitCount c) := by
      rw [zpow_add₀ (by norm_num), mul_comm]
      exact hsmall.trans_lt (mul_lt_mul_of_pos_right hlt hpow)
    have := (zpow_lt_zpow_iff_right₀ (by norm_num)).1 hless
    omega
  have habove : ¬ 400 < g + digitCount c := by
    have hpos := digitCount_pos c
    have hle : (10 : ℚ) ^ ((digitCount c - 1 : ℕ) : Int) ≤ c := by
      rw [zpow_natCast, ← cast_tens]
      exact_mod_cast tens_digitCount_le hc
    have hless : (10 : ℚ) ^ (g + (digitCount c - 1 : ℕ)) < 10 ^ (400 : Int) := by
      rw [zpow_add₀ (by norm_num), mul_comm]
      exact (mul_le_mul_of_nonneg_right hle hpow.le).trans_lt hlarge
    have := (zpow_lt_zpow_iff_right₀ (by norm_num)).1 hless
    omega
  simp only [ofDigits, if_neg hc, if_neg habove, if_neg hbelow]
  split
  · next hg =>
    have hvalue : ((c * tens g.toNat : ℕ) : ℚ) / (1 : ℕ) = c * 10 ^ g := by
      rw [Nat.cast_mul, cast_tens_toNat hg, Nat.cast_one, div_one]
    exact ofRatio_of_near Nat.one_pos hm h (hvalue ▸ hnear) (hvalue ▸ hfirst)
  · next hg =>
    have hvalue : (c : ℚ) / (tens (-g).toNat : ℕ) = c * 10 ^ g := by
      rw [cast_tens_toNat (by omega), zpow_neg, div_inv_eq_mul]
    exact ofRatio_of_near (tens_pos _) hm h (hvalue ▸ hnear) (hvalue ▸ hfirst)

theorem inTens_pos (hd : 0 < d) (g : Int) : 0 < (inTens n d g).2 := by
  unfold inTens
  split
  · exact Nat.mul_pos hd (tens_pos _)
  · exact hd

/-- A grid on which a neighbour reads back is not passed over. -/
theorem isSome_onGrid? (h : ofDigits false c g = x)
    (hc : c = (inTens n d g).1 / (inTens n d g).2 ∨
      c = (inTens n d g).1 / (inTens n d g).2 + 1) : (onGrid? x n d g).isSome := by
  unfold onGrid?
  dsimp only
  split
  · rfl
  · split
    · rfl
    · next hlow =>
      split
      · rfl
      · next hhigh =>
        rcases hc with rfl | rfl
        · exact absurd (decide_eq_true h) hlow
        · exact absurd (decide_eq_true h) hhigh

/-- What is found on a grid reads back. -/
theorem ofDigits_of_onGrid? (h : onGrid? x n d g = some c) : ofDigits false c g = x := by
  unfold onGrid? at h
  dsimp only at h
  split_ifs at h <;> obtain rfl := Option.some.inj h <;> simp_all

/-- What the search finds is not zero, if there is something to find on one of its grids. -/
theorem search_ne_zero {count i : Nat} (hzero : ∀ e, ofDigits false 0 e ≠ x) (hi : i < count)
    (hgrid : (onGrid? x n d (g - i)).isSome) : (search x n d g count).1 ≠ 0 := by
  induction count generalizing g i with
  | zero => exact absurd hi (Nat.not_lt_zero i)
  | succ count ih =>
    rw [search]
    split
    · next c hc =>
      rintro rfl
      exact hzero g (ofDigits_of_onGrid? hc)
    · next hnone =>
      cases i with
      | zero =>
        rw [Nat.cast_zero, sub_zero, hnone] at hgrid
        cases hgrid
      | succ i =>
        refine ih (Nat.lt_of_succ_lt_succ hi) ?_
        rwa [show g - 1 - (i : Int) = g - ((i + 1 : ℕ) : Int) by push_cast; ring]

theorem magnitude_value (m : Nat) (e : Int) :
    ((magnitude m e).1 : ℚ) / (magnitude m e).2 = m * 2 ^ e := by
  unfold magnitude
  split
  · next he => rw [Nat.cast_mul, cast_twos_toNat he, Nat.cast_one, div_one]
  · next he => rw [cast_twos_toNat (by omega), zpow_neg, div_inv_eq_mul]

/-- A number other than zero is not smaller than the grids that are looked at. -/
theorem magnitude_ge (hm : m ≠ 0) (h : Canonical m e) :
    (magnitude m e).2 ≤ (magnitude m e).1 * tens 340 := by
  have hpos : 1 ≤ m := Nat.one_le_iff_ne_zero.2 hm
  have hsmall : twos 1074 ≤ tens 340 := by decide +kernel
  obtain ⟨-, hmin, -, -⟩ := h
  unfold minExponent at hmin
  unfold magnitude
  split
  · exact Nat.mul_pos (Nat.mul_pos hpos (twos_pos _)) (tens_pos _)
  · calc twos (-e).toNat ≤ twos 1074 := twos_le_twos (by omega)
      _ ≤ tens 340 := hsmall
      _ ≤ m * tens 340 := Nat.le_mul_of_pos_left _ hpos

/-- A fraction is not smaller than the place of its first digit. -/
theorem firstPlace_le (hd : 0 < d) (h : d ≤ n * tens 340) : (10 : ℚ) ^ firstPlace n d ≤ n / d := by
  have hd' : (0 : ℚ) < d := by exact_mod_cast hd
  have hq : n * tens 340 / d ≠ 0 := (Nat.div_pos h hd).ne'
  have hcount := digitCount_pos (n * tens 340 / d)
  have hle : (10 : ℚ) ^ (firstPlace n d + 340) ≤ n / d * 10 ^ (340 : Int) := by
    have hplace : firstPlace n d + 340 = (digitCount (n * tens 340 / d) - 1 : ℕ) := by
      unfold firstPlace
      omega
    have hdigits :
        ((tens (digitCount (n * tens 340 / d) - 1) : ℕ) : ℚ) ≤ (n * tens 340 / d : ℕ) := by
      exact_mod_cast tens_digitCount_le hq
    rw [hplace, zpow_natCast, ← cast_tens]
    refine hdigits.trans (Nat.cast_div_le.trans_eq ?_)
    rw [Nat.cast_mul, cast_tens, mul_div_right_comm]
    rfl
  rw [zpow_add₀ (by norm_num)] at hle
  exact le_of_mul_le_mul_right hle (by positivity)

/-- On a grid a fraction is rounded by no more than half its unit. -/
theorem abs_roundHalfEven_inTens_le (hd : 0 < d) (g : Int) :
    |(roundHalfEven (inTens n d g).1 (inTens n d g).2 : ℚ) * 10 ^ g - n / d| ≤ 10 ^ g / 2 := by
  have hpow : (0 : ℚ) < 10 ^ g := by positivity
  have hround := abs_sub_roundHalfEven_le (a := (inTens n d g).1) (inTens_pos (n := n) hd g)
  rw [← inTens_value n d g, ← sub_mul, abs_mul, abs_of_pos hpow, abs_sub_comm]
  exact (mul_le_mul_of_nonneg_right hround hpow.le).trans_eq (by ring)

theorem ten_zpow_mul_two_le {i j : Int} (h : i < j) : (10 : ℚ) ^ i * 2 ≤ 10 ^ j := by
  calc (10 : ℚ) ^ i * 2 ≤ 10 ^ i * 10 := by gcongr; norm_num
    _ = 10 ^ (i + 1) := (zpow_add_one₀ (by norm_num) i).symm
    _ ≤ 10 ^ j := zpow_le_zpow_right₀ (by norm_num) h

/-- On a grid on which a number has seventeen digits, the digits closest to it are read as it. -/
theorem ofDigits_of_fine {negative : Bool} (hm : m ≠ 0) (h : Canonical m e)
    (hunit : (10 : ℚ) ^ g * 10 ^ 16 ≤ m * 2 ^ e) (hlow : (10 : ℚ) ^ (-340 : Int) ≤ m * 2 ^ e)
    (hhigh : (m : ℚ) * 2 ^ e < 10 ^ (309 : Int))
    (hclose : |(c : ℚ) * 10 ^ g - m * 2 ^ e| ≤ 10 ^ g / 2) :
    ofDigits negative c g = .finite negative m e h := by
  have hpow : (0 : ℚ) < 10 ^ g := by positivity
  have htwo : (0 : ℚ) < 2 ^ e := by positivity
  have hlt : (m : ℚ) < 2 ^ 53 := by exact_mod_cast h.1
  have hbounds := abs_le.1 hclose
  have hc : c ≠ 0 := by
    rintro rfl
    rw [Nat.cast_zero, zero_mul] at hbounds
    linarith
  have hsmall : (10 : ℚ) ^ (-400 : Int) ≤ c * 10 ^ g := by
    have hhalf : m * 2 ^ e ≤ (c : ℚ) * 10 ^ g * 2 := by linarith
    exact le_of_mul_le_mul_right
      ((ten_zpow_mul_two_le (by decide)).trans (hlow.trans hhalf)) two_pos
  have hlarge : (c : ℚ) * 10 ^ g < 10 ^ (400 : Int) := by
    have htwice : (c : ℚ) * 10 ^ g ≤ m * 2 ^ e * 2 := by linarith
    exact htwice.trans_lt
      ((mul_lt_mul_of_pos_right hhigh two_pos).trans_le (ten_zpow_mul_two_le (by decide)))
  refine ofDigits_of_near hc hm h hsmall hlarge (hclose.trans_lt (by nlinarith)) fun hfirst => ?_
  have hcast : (m : ℚ) = 2 ^ 52 := by
    rw [hfirst]
    norm_num [twos]
  rw [hcast] at hunit
  exact hclose.trans_lt (by linarith)

/-- On the grid of seventeen digits there is a neighbour that reads back. -/
theorem exists_onGrid (hm : m ≠ 0) (h : Canonical m e) :
    (onGrid? (.finite false m e h) (magnitude m e).1 (magnitude m e).2
      (firstPlace (magnitude m e).1 (magnitude m e).2 - (16 : ℕ))).isSome := by
  obtain ⟨hn, hd⟩ := magnitude_lt h
  have hvalue := magnitude_value m e
  have hplace := firstPlace_le hd (magnitude_ge hm h)
  have hupper := fraction_lt hn hd
  obtain ⟨g, hg⟩ : ∃ g : Int, g = firstPlace (magnitude m e).1 (magnitude m e).2 - (16 : ℕ) :=
    ⟨_, rfl⟩
  have hunit : (10 : ℚ) ^ g * 10 ^ 16 ≤ m * 2 ^ e := by
    rw [← hvalue]
    refine Eq.trans_le ?_ hplace
    rw [hg, zpow_sub₀ (by norm_num), zpow_natCast, div_mul_cancel₀ _ (by norm_num)]
  have hlow : (10 : ℚ) ^ (-340 : Int) ≤ m * 2 ^ e := by
    rw [← hvalue]
    exact (zpow_le_zpow_right₀ (by norm_num) (firstPlace_bounds hn).1).trans hplace
  have hclose := abs_roundHalfEven_inTens_le (n := (magnitude m e).1) hd g
  rw [hvalue] at hupper hclose
  rw [← hg]
  exact isSome_onGrid? (ofDigits_of_fine hm h hunit hlow hupper hclose) (roundHalfEven_eq_or _ _)

/-- A number other than zero has digits other than zero. -/
theorem shortest_ne_zero (hm : m ≠ 0) (h : Canonical m e) : (shortest m e).1 ≠ 0 := by
  have hx : ofParts false m e = .finite false m e h := dif_pos h
  have hzero (g : Int) : ofDigits false 0 g ≠ ofParts false m e := by
    rw [hx]
    intro heq
    exact hm (Double.finite.inj heq).2.1.symm
  obtain ⟨count, fuel, found, hcount, -, hfound, hshortest⟩ := shortest_found m e
  have hne : found.1 ≠ 0 := hfound ▸ search_ne_zero hzero hcount (hx ▸ exists_onGrid hm h)
  rw [hshortest, if_neg hne]
  exact dropZeros_ne_zero hne fuel found.2

end Digits

/-! ## decimals -/

theorem sign_of_pos {negative : Bool} {m : Nat} {e : Int} {h : Canonical m e} {q : ℚ}
    (hx : (Double.finite negative m e h).toRat? = some q) (hq : 0 < q) :
    negative = false ∧ m ≠ 0 := by
  have hvalue : q = withSign negative (magnitude m e).1 / (magnitude m e).2 := by
    rw [← Rat.mkRat_eq_div]
    exact (Option.some.inj hx).symm
  constructor
  · cases negative with
    | false => rfl
    | true =>
      rw [hvalue] at hq
      have hnonpos : ((withSign true (magnitude m e).1 : Int) : ℚ) / (magnitude m e).2 ≤ 0 :=
        div_nonpos_of_nonpos_of_nonneg (by simp [withSign]) (by positivity)
      exact absurd hq (not_lt.2 hnonpos)
  · rintro rfl
    have hzero : (magnitude 0 e).1 = 0 := by
      unfold magnitude
      split <;> simp
    rw [hvalue, hzero] at hq
    cases negative <;> simp [withSign] at hq

/-- The decimal of a number above zero is above zero. -/
theorem toDecimal_pos {x : Double} {q : ℚ} (hx : x.toRat? = some q) (hq : 0 < q) :
    ∃ r, x.toDecimal.toRat? = some r ∧ 0 < r := by
  cases x with
  | finite negative m e h =>
    obtain ⟨rfl, hm⟩ := sign_of_pos hx hq
    have hc := Nat.pos_of_ne_zero (shortest_ne_zero hm h)
    rcases hshort : shortest m e with ⟨c, g⟩
    rw [hshort] at hc
    have hdecimal : (Double.finite false m e h).toDecimal = ofShortest false c g :=
      toDecimal_of_shortest h hm hshort
    obtain ⟨c', g', hshape, hpos⟩ :
        ∃ c' g', ofShortest false c g = .finite false c' g' ∧ 0 < c' := by
      unfold ofShortest
      split
      · exact ⟨_, _, rfl, Nat.mul_pos hc (tens_pos _)⟩
      · exact ⟨_, _, rfl, hc⟩
    have hcast : (0 : ℚ) < (withSign false c' : Int) := by simpa [withSign] using hpos
    rw [hdecimal, hshape]
    exact ⟨_, toRat?_finite .., mul_pos hcast (by positivity)⟩
  | infinite negative => cases hx
  | nan => cases hx

end Double

end Storyboard
