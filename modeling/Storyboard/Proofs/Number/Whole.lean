import Mathlib.Data.Rat.Floor
import Storyboard.Number.Ratio
import Storyboard.Proofs.Number.Exact

/-!
# Storyboard.Proofs.Number.Whole

Decimals and whole numbers: rounding to one, and dividing by one.  A time that is not negative is
cut into a whole number of parts and a remainder, both of them exact.

* `Decimal.roundHalfUp_eq` — rounding as a floor;
* `Decimal.toInt_quot`, `Decimal.toRat?_rem` — the two results of a division.
-/

namespace Storyboard.Decimal

open Number

variable {x d : Decimal} {q : ℚ}

/-! ## rounding -/

theorem ratioOfDecimal_eq (hd : d.toRat? = some q) : ratioOfDecimal d = .ok q := by
  obtain ⟨n, c, e, rfl, -⟩ := exists_of_toRat? hd
  rw [ratioOfDecimal, ← Option.some.inj hd, tensRatio]
  congr 2
  cases n <;> simp [withSign]

/-- Rounding a half upwards takes the whole part of what is a half more. -/
theorem roundHalfUp_eq (q : ℚ) : roundHalfUp q = ⌊q + 1 / 2⌋ := by
  have hden : (0 : ℚ) < q.den := by exact_mod_cast q.den_pos
  obtain ⟨whole, hwhole⟩ : ∃ whole, whole = q.num / q.den := ⟨_, rfl⟩
  have hlow : whole * q.den ≤ q.num := by
    rw [hwhole]
    exact Int.ediv_mul_le _ (by exact_mod_cast q.den_pos.ne')
  have hhigh : q.num < (whole + 1) * q.den := by
    rw [hwhole]
    exact Int.lt_ediv_add_one_mul_self _ (by exact_mod_cast q.den_pos)
  have hvalue : q * q.den = q.num := Rat.mul_den_eq_num q
  rw [eq_comm, roundHalfUp, ← hwhole]
  have hlow' : (whole : ℚ) * q.den ≤ q.num := by exact_mod_cast hlow
  have hhigh' : (q.num : ℚ) < (whole + 1) * q.den := by exact_mod_cast hhigh
  split
  · next hup =>
    have hup' : (q.den : ℚ) ≤ (q.num - whole * q.den) * 2 := by exact_mod_cast hup
    rw [Int.floor_eq_iff]
    push_cast
    constructor <;> nlinarith
  · next hdown =>
    have hdown' : (q.num - whole * q.den : ℚ) * 2 < q.den := by exact_mod_cast not_le.1 hdown
    rw [Int.floor_eq_iff]
    constructor <;> nlinarith

/-! ## division -/

/-- A magnitude is what is left of it after a division, and the divisor as often as it goes in. -/
theorem quotRem_value (c : Nat) (e : Int) {d : Nat} (hd : 0 < d) :
    (c : ℚ) * 10 ^ e
        = d * (quotRem c e d).1 + (quotRem c e d).2.1 * 10 ^ (quotRem c e d).2.2 ∧
      ((quotRem c e d).2.1 : ℚ) * 10 ^ (quotRem c e d).2.2 < d := by
  unfold quotRem
  split
  · next he =>
    have hmod := Nat.mod_lt (c * tens e.toNat) hd
    have hdiv := Nat.div_add_mod (c * tens e.toNat) d
    dsimp only
    rw [zpow_zero, mul_one, ← cast_tens_toNat he]
    exact_mod_cast And.intro hdiv.symm hmod
  · next he =>
    obtain ⟨t, ht⟩ : ∃ t, t = tens (-e).toNat := ⟨_, rfl⟩
    have htpos : 0 < t := ht ▸ tens_pos _
    have hpow : (10 : ℚ) ^ e = (t : ℚ)⁻¹ := by
      rw [ht, cast_tens_toNat (by omega), zpow_neg, inv_inv]
    have hmod : ((c % (d * t) : ℕ) : ℚ) < d * t := by
      exact_mod_cast Nat.mod_lt c (Nat.mul_pos hd htpos)
    have hdiv : (d * t : ℚ) * (c / (d * t) : ℕ) + (c % (d * t) : ℕ) = c := by
      exact_mod_cast Nat.div_add_mod c (d * t)
    have ht' : (0 : ℚ) < t := by exact_mod_cast htpos
    dsimp only
    rw [← ht, hpow, ← div_eq_mul_inv, ← div_eq_mul_inv, div_lt_iff₀ ht']
    refine ⟨?_, hmod⟩
    rw [← hdiv]
    field_simp

/-- The divisor goes into a magnitude as often as the floor of the quotient says. -/
theorem floor_quotRem (c : Nat) (e : Int) {d : Nat} (hd : 0 < d) :
    ⌊(c : ℚ) * 10 ^ e / d⌋ = (quotRem c e d).1 := by
  obtain ⟨hvalue, hless⟩ := quotRem_value c e hd
  have hd' : (0 : ℚ) < d := by exact_mod_cast hd
  have hrest : (0 : ℚ) ≤ (quotRem c e d).2.1 * 10 ^ (quotRem c e d).2.2 := by positivity
  rw [Int.floor_eq_iff, le_div_iff₀ hd', div_lt_iff₀ hd', hvalue, Int.cast_natCast]
  constructor <;> linarith

theorem withSign_of_imp {n : Bool} {k : Nat} (h : n = true → k = 0) : withSign n k = k := by
  cases n with
  | false => rfl
  | true => rw [withSign, h rfl, if_pos rfl, Nat.cast_zero, neg_zero]

/-- The parts of a decimal that is not negative; only zero may have a sign. -/
theorem exists_of_nonneg (hx : x.toRat? = some q) (hq : 0 ≤ q) :
    ∃ n c e, x = .finite n c e ∧ (n = true → c = 0) ∧ q = (c : ℚ) * 10 ^ e := by
  obtain ⟨n, c, e, rfl, rfl⟩ := exists_of_toRat? hx
  have hsign : n = true → c = 0 := eq_zero_of_sign hq
  exact ⟨n, c, e, rfl, hsign, by rw [withSign_of_imp hsign, Int.cast_natCast]⟩

variable {k : Nat}

theorem quotRem_lt {c : Nat} {e : Int} (hk : 0 < k) (hsmall : (c : ℚ) * 10 ^ e < 10 ^ 28) :
    (quotRem c e k).1 < tens precision := by
  obtain ⟨hvalue, -⟩ := quotRem_value c e hk
  have hrest : (0 : ℚ) ≤ (quotRem c e k).2.1 * 10 ^ (quotRem c e k).2.2 := by positivity
  have hone : (1 : ℚ) ≤ k := by exact_mod_cast hk
  have hquot : ((quotRem c e k).1 : ℚ) ≤ k * (quotRem c e k).1 :=
    le_mul_of_one_le_left (by positivity) hone
  have hlt : ((quotRem c e k).1 : ℚ) < 10 ^ 28 := by linarith
  rw [← cast_tens] at hlt
  exact_mod_cast hlt

/-- How often a number goes into a decimal, as an integer. -/
theorem toInt_quot (hk : 0 < k) (hx : x.toRat? = some q) (hq : 0 ≤ q) (hsmall : q < 10 ^ 28) :
    ∃ z, x.quot k = .ok z ∧ z.toInt = .ok ⌊q / k⌋ := by
  obtain ⟨n, c, e, rfl, hsign, rfl⟩ := exists_of_nonneg hx hq
  refine ⟨.finite n (quotRem c e k).1 0, if_neg (Nat.not_le.2 (quotRem_lt hk hsmall)), ?_⟩
  have hzero : n = true → (quotRem c e k).1 = 0 := by
    intro hn
    have hfloor := floor_quotRem c e hk
    rw [hsign hn, Nat.cast_zero, zero_mul, zero_div, Int.floor_zero] at hfloor
    exact_mod_cast (hsign hn ▸ hfloor.symm)
  rw [toInt, if_pos le_rfl, Int.toNat_zero, tens_zero, mul_one, withSign_of_imp hzero,
    floor_quotRem c e hk]

theorem exists_nat_of_isMicro (h : IsMicro q) (hq : 0 ≤ q) : ∃ m : ℕ, q = m / 10 ^ 6 := by
  obtain ⟨i, rfl⟩ := h
  have hpos : (0 : ℚ) ≤ i := by
    rw [le_div_iff₀ (by norm_num), zero_mul] at hq
    exact hq
  refine ⟨i.toNat, ?_⟩
  rw [← Int.cast_natCast (R := ℚ) i.toNat, Int.toNat_of_nonneg (by exact_mod_cast hpos)]

/-- What remains is exact, too. -/
theorem toRat?_rem (hk : 0 < k) (hx : x.toRat? = some q) (hq : 0 ≤ q) (hsmall : q < 10 ^ 28)
    (hmicro : IsMicro q) (hshort : k < tens 22) :
    ∃ z, x.rem k = .ok z ∧ z.toRat? = some (q - k * ⌊q / k⌋) := by
  obtain ⟨n, c, e, rfl, hsign, rfl⟩ := exists_of_nonneg hx hq
  obtain ⟨hvalue, hless⟩ := quotRem_value c e hk
  have hlt := quotRem_lt hk hsmall
  have hfloor := floor_quotRem c e hk
  obtain ⟨w, r, low, hparts⟩ : ∃ w r low, quotRem c e k = (w, r, low) := ⟨_, _, _, rfl⟩
  simp only [hparts] at hvalue hless hlt hfloor
  have hrest : (c : ℚ) * 10 ^ e - k * ⌊(c : ℚ) * 10 ^ e / k⌋ = r * 10 ^ low := by
    rw [hfloor, hvalue, Int.cast_natCast]
    ring
  have hwhole : IsMicro (k * ⌊(c : ℚ) * 10 ^ e / k⌋) :=
    ⟨k * ⌊(c : ℚ) * 10 ^ e / k⌋ * 10 ^ 6, by push_cast; ring⟩
  obtain ⟨m, hm⟩ := exists_nat_of_isMicro (hrest ▸ hmicro.sub hwhole) (by positivity)
  have hshort' : m < tens 28 := by
    have hbound : (k : ℚ) < 10 ^ 22 := by
      rw [← cast_tens]
      exact_mod_cast hshort
    have hcast : (m : ℚ) < 10 ^ 28 := by
      rw [hm, div_lt_iff₀ (by norm_num)] at hless
      linarith
    rw [← cast_tens] at hcast
    exact_mod_cast hcast
  obtain ⟨c', e', hfit, hfit'⟩ : ∃ c' e', fit n r low = .ok (.finite n c' e') ∧
      (c' : ℚ) * 10 ^ e' = r * 10 ^ low := fit_exact hm hshort'
  have hzero : n = true → c' = 0 := by
    intro hn
    have hpow : (10 : ℚ) ^ e' ≠ 0 := by positivity
    rw [← hfit', hsign hn, Nat.cast_zero, zero_mul, zero_div, Int.floor_zero, Int.cast_zero,
      mul_zero, sub_zero, eq_comm, mul_eq_zero] at hrest
    exact_mod_cast hrest.resolve_right hpow
  refine ⟨.finite n c' e', ?_, ?_⟩
  · simp only [rem, hparts]
    rw [if_neg (Nat.not_le.2 hlt), hfit]
  · rw [toRat?_finite, withSign_of_imp hzero, Int.cast_natCast, hfit', hrest]

end Storyboard.Decimal
