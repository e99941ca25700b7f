import Storyboard.Proofs.Number.Shortest
import Storyboard.Proofs.Result
import Storyboard.Value.Time

/-!
# Storyboard.Proofs.Value.Writable

Decimals that can be written.  The digits of a decimal and the zeros after them are too many only
if the decimal is larger than anything that is reckoned with, so that what stands for a number of
ordinary size has a text whatever its digits and its exponent are.

* `Decimal.isWritable_of_toRat?` — a decimal that is not too large;
* `Double.isWritable_toDecimal` — the decimal of a number of 64 bits;
* `Value.numberText_eq_ok`, `Value.numberText_float` — the text of a value.
-/

namespace Storyboard

open Number

namespace Decimal

variable {x y : Decimal} {q : ℚ} {n : Bool} {c : Nat} {e : Int} {K : Nat}

@[simp] theorem isWritable_ofInt (i : Int) : (ofInt i).isWritable = true := rfl

/-- A magnitude below a power of ten has no more digits before the point than that has zeros. -/
theorem isWritable_of_value_lt (h : (c : ℚ) * 10 ^ e < 10 ^ K)
    (hK : (K : Int) + places ≤ farExponent + 1) : (finite n c e).isWritable = true := by
  by_cases hc : c = 0
  · simp [isWritable, hc]
  have hfirst : (10 : ℚ) ^ ((digitCount c - 1 : Nat) : Int) ≤ c := by
    rw [zpow_natCast, ← cast_tens]
    exact_mod_cast tens_digitCount_le hc
  have hpow : (10 : ℚ) ^ (((digitCount c - 1 : Nat) : Int) + e) < 10 ^ (K : Int) := by
    rw [zpow_add₀ (by norm_num), zpow_natCast 10 K]
    exact (mul_le_mul_of_nonneg_right hfirst (by positivity)).trans_lt h
  have hlt := (zpow_lt_zpow_iff_right₀ (by norm_num)).1 hpow
  have hpos := digitCount_pos c
  simp only [isWritable, Bool.or_eq_true, decide_eq_true_iff]
  exact .inr (by omega)

theorem isWritable_of_toRat? (h : x.toRat? = some q) (hq : |q| < 10 ^ K)
    (hK : (K : Int) + places ≤ farExponent + 1) : x.isWritable = true := by
  obtain ⟨n, c, e, rfl, rfl⟩ := exists_of_toRat? h
  rw [← value_eq_abs rfl] at hq
  exact isWritable_of_value_lt hq hK

/-- What has a quotient is not too large, as that has no more than `precision` digits. -/
theorem isWritable_of_quot {d : Nat} (hd : 0 < d) (hd' : d ≤ tens 2) (h : x.quot d = .ok y) :
    x.isWritable = true := by
  cases x with
  | infinite n | nan n signaling p => rfl
  | finite n c e =>
    by_cases he : 0 ≤ e
    · simp only [quot, quotRem, if_pos he] at h
      split at h
      · cases h
      · next hshort =>
        have hlt : c * tens e.toNat < tens (precision + 2) := by
          have hmul := (Nat.div_lt_iff_lt_mul hd).1 (Nat.lt_of_not_le hshort)
          exact hmul.trans_le (Nat.mul_le_mul_left _ hd' : tens precision * d ≤ _ * tens 2)
        refine isWritable_of_value_lt (K := precision + 2) ?_ (by decide)
        rw [← cast_tens_toNat he, ← cast_tens]
        exact_mod_cast hlt
    · simp [isWritable, (not_le.1 he).le]

/-- What is made of a decimal that is to be written is made of one that can be. -/
theorem written_bind_eq_ok {α : Type} {f : Decimal → Except Fault α} {a : α} :
    x.written >>= f = .ok a ↔ x.isWritable = true ∧ f x = .ok a := by
  simp only [bind_eq_ok, written_eq_ok, and_assoc, exists_and_left, exists_eq_left]

end Decimal

/-- The decimal of a number of 64 bits can be written, also of one that is not finite. -/
@[simp] theorem Double.isWritable_toDecimal (x : Double) : x.toDecimal.isWritable = true := by
  cases x with
  | infinite negative | nan => rfl
  | finite negative m e h =>
    obtain ⟨c, e', hd, hreach⟩ :
        ∃ c e', (Double.finite negative m e h).toDecimal = .finite negative c e' ∧
          InReach c e' := toDecimal_finite h
    rw [hd]
    exact Decimal.isWritable_of_value_lt (K := 310) (by exact_mod_cast hreach.value) (by decide)

namespace Value

/-- A number of seconds as text is its decimal in short form. -/
theorem numberText_eq_ok {v : Value} {t : String} :
    v.numberText = .ok t ↔ ∃ d, v.toDecimal = .ok d ∧ d.isWritable = true ∧ t = d.shortText := by
  rw [numberText, bind_eq_ok]
  refine exists_congr fun d => and_congr_right fun _ => ?_
  rw [Decimal.written_bind_eq_ok, pure_eq_ok]

theorem numberText_float (x : Double) : (Value.float x).numberText = .ok x.toDecimal.shortText :=
  numberText_eq_ok.2 ⟨_, rfl, x.isWritable_toDecimal, rfl⟩

end Value

end Storyboard
