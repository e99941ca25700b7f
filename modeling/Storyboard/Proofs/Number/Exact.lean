import Mathlib.Algebra.Order.Field.Power
import Mathlib.Tactic.FieldSimp
import Mathlib.Tactic.Linarith
import Mathlib.Tactic.NormNum
import Mathlib.Tactic.Positivity
import Mathlib.Tactic.Ring
import Storyboard.Number.Decimal.Places
import Storyboard.Proofs.Number.Digits

/-!
# Storyboard.Proofs.Number.Exact

The arithmetic of decimals as arithmetic of the rational numbers that they denote.  Every
sum is the exact sum, fitted; two things are known of what is fitted:

* `fit_exact` — a multiple of a millionth below `10 ^ 22` keeps its value;
* `fit_within` — a magnitude that exceeds a power of ten by less than what rounding takes away
  does not exceed it afterwards, so a running sum of small terms never overflows.

`add_exact`, `sub_exact`, `add_within`, `sub_within` say the same of sums and differences, and
`less_eq`, `greater_eq` say that decimals are ordered by what they denote.
-/

namespace Storyboard

namespace Number

/-! ## powers of ten and digits -/

theorem cast_tens (k : Nat) : (tens k : ℚ) = (10 : ℚ) ^ k := by
  simp [tens]

/-- A power of ten whose exponent is not negative, as a rational number. -/
theorem cast_tens_toNat {e : Int} (h : 0 ≤ e) : (tens e.toNat : ℚ) = (10 : ℚ) ^ e := by
  rw [cast_tens, ← zpow_natCast, Int.toNat_of_nonneg h]

theorem digitCount_pos (n : Nat) : 0 < digitCount n := by
  rw [digitCount, ← String.length_toList]
  exact List.length_pos_iff.2 (toList_repr_ne_nil n)

theorem digitCount_le_iff {n k : Nat} (hk : 0 < k) : digitCount n ≤ k ↔ n < tens k :=
  Nat.length_repr_le_iff hk

theorem lt_tens_digitCount (n : Nat) : n < tens (digitCount n) :=
  (digitCount_le_iff (digitCount_pos n)).1 (Nat.le_refl _)

/-- The first digit of a number is not a zero. -/
theorem tens_digitCount_le {n : Nat} (h : n ≠ 0) : tens (digitCount n - 1) ≤ n := by
  by_cases h1 : digitCount n = 1
  · rw [h1]
    exact Nat.one_le_iff_ne_zero.2 h
  · have hpos := digitCount_pos n
    by_contra hlt
    have := (digitCount_le_iff (by omega)).2 (Nat.lt_of_not_le hlt)
    omega

/-- Less than half a divisor is rounded to nothing. -/
theorem roundHalfEven_of_lt {n d : Nat} (h : 2 * n < d) : roundHalfEven n d = 0 := by
  have hn : n < d := by omega
  rw [roundHalfEven, Nat.mod_eq_of_lt hn, Nat.div_eq_of_lt hn, if_pos h]

/-- An exact quotient is not changed by rounding. -/
theorem roundHalfEven_of_dvd {n d : Nat} (h : d ∣ n) (hd : 0 < d) :
    roundHalfEven n d * d = n := by
  obtain ⟨k, rfl⟩ := h
  rw [Nat.mul_comm d k, roundHalfEven_mul k d hd]

/-- Rounding goes no further than half a divisor up. -/
theorem roundHalfEven_mul_le (n d : Nat) (h : 0 < d) :
    (roundHalfEven n d : ℚ) ≤ (n : ℚ) / d + 1 / 2 := by
  have hnear := (roundHalfEven_near n d h).2
  have hd : (0 : ℚ) < d := by exact_mod_cast h
  have hcast : 2 * ((roundHalfEven n d : ℚ) * d) ≤ 2 * n + d := by exact_mod_cast hnear
  have hsum : (n : ℚ) / d + 1 / 2 = (2 * n + d) / (2 * d) := by field_simp
  rw [hsum, le_div_iff₀ (by positivity)]
  linarith

end Number

namespace Decimal

open Number

variable {x y : Decimal} {p q : ℚ} {n : Bool} {c : Nat} {e : Int}

/-! ## what a decimal denotes -/

theorem abs_withSign (n : Bool) (c : Nat) : |(withSign n c : ℚ)| = c := by
  cases n <;> simp [withSign]

theorem withSign_natAbs (i : Int) : withSign (decide (i < 0)) i.natAbs = i := by
  by_cases h : i < 0
  · rw [withSign, decide_eq_true h, if_pos rfl]
    omega
  · rw [withSign, decide_eq_false h, if_neg Bool.false_ne_true]
    omega

theorem toRat?_finite (n : Bool) (c : Nat) (e : Int) :
    (finite n c e).toRat? = some ((withSign n c : ℚ) * 10 ^ e) := by
  by_cases he : 0 ≤ e
  · have hcast : ((withSign n (c * tens e.toNat) : Int) : ℚ) = withSign n c * 10 ^ e := by
      rw [← cast_tens_toNat he]
      cases n <;> simp [withSign]
    rw [toRat?, if_pos he, hcast]
  · have hpow : (10 : ℚ) ^ e = ((tens (-e).toNat : ℕ) : ℚ)⁻¹ := by
      rw [cast_tens_toNat (by omega), zpow_neg, inv_inv]
    rw [toRat?, if_neg he, Rat.mkRat_eq_div, hpow, div_eq_mul_inv]

theorem exists_of_toRat? (h : x.toRat? = some q) :
    ∃ n c e, x = .finite n c e ∧ q = (withSign n c : ℚ) * 10 ^ e := by
  cases x with
  | finite n c e =>
    rw [toRat?_finite] at h
    exact ⟨n, c, e, rfl, (Option.some.inj h).symm⟩
  | infinite n => cases h
  | nan n s p => cases h

theorem toRat?_zero : zero.toRat? = some 0 := by
  rw [zero, toRat?_finite]
  simp [withSign]

theorem toRat?_ofInt (i : Int) : (ofInt i).toRat? = some (i : ℚ) := by
  rw [ofInt, toRat?_finite, withSign_natAbs, zpow_zero, mul_one]

theorem toRat?_neg (h : x.toRat? = some q) : x.neg.toRat? = some (-q) := by
  obtain ⟨n, c, e, rfl, rfl⟩ := exists_of_toRat? h
  rw [neg, toRat?_finite]
  cases n <;> simp [withSign]

/-- A coefficient over a smaller exponent stands for the same number. -/
theorem withSign_aligned {low : Int} (h : low ≤ e) :
    (withSign n (aligned c e low) : ℚ) * 10 ^ low = withSign n c * 10 ^ e := by
  have hpow : (10 : ℚ) ^ e = 10 ^ (e - low) * 10 ^ low := by
    rw [← zpow_add₀ (by norm_num), Int.sub_add_cancel]
  have hcast : (withSign n (aligned c e low) : ℚ) = withSign n c * 10 ^ (e - low) := by
    rw [aligned, ← cast_tens_toNat (by omega)]
    cases n <;> simp [withSign]
  rw [hcast, hpow]
  ring

/-- Rounding to millionths is one multiplication, or one rounded division. -/
theorem millionths_eq (c : Nat) (e : Int) : millionths c e =
    if -(places : Int) ≤ e then c * tens (e + places).toNat
    else roundHalfEven c (tens (-(e + places)).toNat) := by
  by_cases hnone : c = 0 ∨ digitCount c + e + places < 0
  · rw [millionths, if_pos hnone]
    obtain rfl | hsmall := hnone
    · split
      · rw [Nat.zero_mul]
      · exact (roundHalfEven_of_lt (tens_pos _)).symm
    · have hlong : digitCount c + 1 ≤ (-(e + places)).toNat := by omega
      have hlt : 2 * c < tens (-(e + places)).toNat := by
        have hc := lt_tens_digitCount c
        have hmono := tens_le_tens hlong
        rw [tens_succ] at hmono
        omega
      rw [if_neg (by omega), roundHalfEven_of_lt hlt]
  · rw [millionths, if_neg hnone]

/-! ## fitting -/

/-- How many digits are dropped from the end of a result. -/
def dropped (c : Nat) (e : Int) : Nat :=
  (max ((digitCount c : Int) - precision) (minLastExponent - e)).toNat

/-- What is left of a coefficient over the dropped digits. -/
def keptDigits (c : Nat) (e : Int) : Nat := roundHalfEven c (tens (dropped c e))

theorem lt_tens_dropped (c : Nat) (e : Int) : c < tens (precision + dropped c e) := by
  refine Nat.lt_of_lt_of_le (lt_tens_digitCount c) (tens_le_tens ?_)
  unfold dropped
  omega

/-- At most `precision` digits are kept, or one more if they round up to a power of ten. -/
theorem keptDigits_le (c : Nat) (e : Int) : keptDigits c e ≤ tens precision := by
  have hnear := (roundHalfEven_near c (tens (dropped c e)) (tens_pos _)).2
  have hlt := lt_tens_dropped c e
  rw [tens_add] at hlt
  by_contra hgt
  have hmul := Nat.mul_le_mul_right (tens (dropped c e)) (Nat.lt_of_not_le hgt)
  rw [keptDigits, Nat.succ_mul] at hmul
  have := tens_pos (dropped c e)
  omega

/-- What is kept of a coefficient, and its exponent: rounding up to a power of ten of one digit
too many takes off its last zero. -/
def carried (c : Nat) (e : Int) : Nat × Int :=
  if tens precision ≤ keptDigits c e then (keptDigits c e / 10, e + dropped c e + 1)
  else (keptDigits c e, e + dropped c e)

theorem fit_of_ne_zero (hc : c ≠ 0) :
    fit n c e =
      if maxExponent < (carried c e).2 + digitCount (carried c e).1 - 1 then
        .error .decimalOverflow
      else .ok (.finite n (carried c e).1 (carried c e).2) := by
  unfold fit
  rw [if_neg hc]
  rfl

/-- A carry does not change what is kept. -/
theorem carried_value (c : Nat) (e : Int) :
    ((carried c e).1 : ℚ) * 10 ^ (carried c e).2 = keptDigits c e * 10 ^ (e + dropped c e) := by
  unfold carried
  split
  · next hcarry =>
    have hkept : keptDigits c e = tens precision := Nat.le_antisymm (keptDigits_le c e) hcarry
    have hdiv : keptDigits c e = keptDigits c e / 10 * 10 := by rw [hkept]; decide
    have hcast : (keptDigits c e : ℚ) = ((keptDigits c e / 10 : ℕ) : ℚ) * 10 := by
      exact_mod_cast hdiv
    rw [zpow_add₀ (by norm_num), zpow_one, hcast]
    ring
  · rfl

/-- Nothing is kept only of what ends below the smallest exponent. -/
theorem carried_exponent_of_zero (hc : c ≠ 0) (h : (carried c e).1 = 0) :
    (carried c e).2 = minLastExponent := by
  have hkept : keptDigits c e = 0 := by
    have hvalue := carried_value c e
    have hpow : (10 : ℚ) ^ (e + dropped c e) ≠ 0 := by positivity
    rw [h, Nat.cast_zero, zero_mul, eq_comm, mul_eq_zero] at hvalue
    exact_mod_cast hvalue.resolve_right hpow
  have hnear := (roundHalfEven_near c (tens (dropped c e)) (tens_pos _)).1
  rw [← keptDigits, hkept, Nat.zero_mul, Nat.mul_zero, Nat.zero_add] at hnear
  have hfirst := tens_digitCount_le hc
  have hlong : digitCount c ≤ dropped c e := by
    by_contra hshort
    have := tens_le_tens (j := dropped c e) (k := digitCount c - 1) (by omega)
    omega
  have hpos := digitCount_pos c
  rw [carried, if_neg (by rw [hkept]; decide)]
  unfold dropped precision at *
  omega

/-- A result is what is kept of it, unless that is beyond the largest exponent. -/
theorem fit_of_kept_le {K : Nat} (hc : c ≠ 0) (hK : (K : Int) ≤ maxExponent)
    (h : (keptDigits c e : ℚ) * 10 ^ (e + dropped c e) ≤ 10 ^ K) :
    fit n c e = .ok (.finite n (carried c e).1 (carried c e).2) := by
  rw [fit_of_ne_zero hc, if_neg]
  by_cases hzero : (carried c e).1 = 0
  · rw [carried_exponent_of_zero hc hzero, hzero]
    decide
  · have hfirst : (10 : ℚ) ^ ((digitCount (carried c e).1 - 1 : Nat) : Int) ≤ (carried c e).1 := by
      rw [zpow_natCast, ← cast_tens]
      exact_mod_cast tens_digitCount_le hzero
    have hpow : (10 : ℚ) ^ (((digitCount (carried c e).1 - 1 : Nat) : Int) + (carried c e).2)
        ≤ 10 ^ (K : Int) := by
      rw [zpow_add₀ (by norm_num), zpow_natCast 10 K]
      refine le_trans (mul_le_mul_of_nonneg_right hfirst (by positivity)) ?_
      rwa [carried_value]
    have hle := (zpow_le_zpow_iff_right₀ (by norm_num)).1 hpow
    have hpos := digitCount_pos (carried c e).1
    omega

/-- How large a coefficient is, by what it stands for. -/
theorem lt_tens_of_value_lt {k : Nat} {K : Int} (h : (c : ℚ) * 10 ^ e < 10 ^ K)
    (hK : K ≤ k + e) : c < tens k := by
  by_contra hge
  have hcast : (10 : ℚ) ^ (k : Int) ≤ c := by
    rw [zpow_natCast, ← cast_tens]
    exact_mod_cast Nat.le_of_not_lt hge
  have hpow : (10 : ℚ) ^ ((k : Int) + e) < 10 ^ K := by
    rw [zpow_add₀ (by norm_num)]
    exact (mul_le_mul_of_nonneg_right hcast (by positivity)).trans_lt h
  have := (zpow_lt_zpow_iff_right₀ (by norm_num)).1 hpow
  omega

/-- The digits of a multiple of a millionth end in as many zeros as lie beyond the millionths. -/
theorem tens_dvd_of_micro {m : Nat} (hm : (c : ℚ) * 10 ^ e = m / 10 ^ 6) :
    tens (-6 - e).toNat ∣ c := by
  by_cases he : e < -6
  · refine ⟨m, ?_⟩
    have hcast : (c : ℚ) = tens (-6 - e).toNat * m := by
      have hpow : (10 : ℚ) ^ e ≠ 0 := by positivity
      rw [cast_tens_toNat (by omega), zpow_sub₀ (by norm_num), eq_div_of_mul_eq hpow hm]
      ring
    exact_mod_cast hcast
  · rw [show (-6 - e).toNat = 0 by omega]
    exact one_dvd c

/-- Of a number below `10 ^ 22` no digit is dropped but those beyond the millionths. -/
theorem dropped_le (hbound : (c : ℚ) * 10 ^ e < 10 ^ (22 : Int)) :
    dropped c e ≤ (-6 - e).toNat := by
  obtain ⟨k, hk⟩ : ∃ k, k = (-6 - e).toNat := ⟨_, rfl⟩
  have hlt : c < tens (28 + k) := lt_tens_of_value_lt hbound (by omega)
  have := (digitCount_le_iff (by omega)).2 hlt
  unfold dropped precision minLastExponent
  omega

/-- What is kept of a number has its value, if what is dropped is zeros. -/
theorem keptDigits_value (h : tens (dropped c e) ∣ c) :
    (keptDigits c e : ℚ) * 10 ^ (e + dropped c e) = c * 10 ^ e := by
  have hkept : keptDigits c e * tens (dropped c e) = c := roundHalfEven_of_dvd h (tens_pos _)
  have hcast : (keptDigits c e : ℚ) * tens (dropped c e) = c := by exact_mod_cast hkept
  rw [zpow_add₀ (by norm_num), zpow_natCast, ← cast_tens, ← hcast]
  ring

/-- A multiple of a millionth below `10 ^ 22` keeps its value. -/
theorem fit_exact {m : Nat} (hm : (c : ℚ) * 10 ^ e = m / 10 ^ 6) (hsmall : m < tens 28) :
    ∃ c' e', fit n c e = .ok (.finite n c' e') ∧ (c' : ℚ) * 10 ^ e' = c * 10 ^ e := by
  by_cases hc : c = 0
  · subst hc
    exact ⟨0, _, if_pos rfl, by simp⟩
  have hbound : (c : ℚ) * 10 ^ e < 10 ^ (22 : Int) := by
    have hcast : (m : ℚ) < 10 ^ 28 := by
      rw [← cast_tens]
      exact_mod_cast hsmall
    rw [hm, div_lt_iff₀ (by norm_num)]
    exact hcast.trans_eq (by norm_num)
  have hzeros : tens (dropped c e) ∣ c :=
    (Nat.pow_dvd_pow 10 (dropped_le hbound)).trans (tens_dvd_of_micro hm)
  have hvalue := keptDigits_value hzeros
  refine ⟨_, _, fit_of_kept_le hc (K := 22) (by decide) ?_, ?_⟩
  · rw [hvalue]
    exact_mod_cast hbound.le
  · rw [carried_value, hvalue]

/-- A whole number that exceeds a power of ten does so by one or more. -/
theorem le_zpow_of_lt_add {N : Nat} {r : Int} (h : (N : ℚ) < 10 ^ r + 51 / 100) :
    (N : ℚ) ≤ 10 ^ r := by
  by_cases hr : 0 ≤ r
  · rw [← cast_tens_toNat hr] at h ⊢
    by_contra hgt
    have hsucc : tens r.toNat + 1 ≤ N := by
      have : tens r.toNat < N := by exact_mod_cast lt_of_not_ge hgt
      exact this
    have hcast : (tens r.toNat : ℚ) + 1 ≤ N := by exact_mod_cast hsucc
    linarith
  · have htenth : (10 : ℚ) ^ r ≤ 10 ^ (-1 : Int) := zpow_le_zpow_right₀ (by norm_num) (by omega)
    have hone : (N : ℚ) < 1 := by
      rw [zpow_neg_one] at htenth
      linarith
    have hzero : N = 0 := by
      have : N < 1 := by exact_mod_cast hone
      omega
    rw [hzero, Nat.cast_zero]
    positivity

/-- What is kept exceeds the exact quotient by at most a half. -/
theorem keptDigits_le_value (c : Nat) (e : Int) :
    (keptDigits c e : ℚ) ≤ c * 10 ^ e / 10 ^ (e + dropped c e) + 1 / 2 := by
  have hquot : (c : ℚ) * 10 ^ e / 10 ^ (e + dropped c e) = c / tens (dropped c e) := by
    have hpow : (10 : ℚ) ^ e ≠ 0 := by positivity
    rw [zpow_add₀ (by norm_num), zpow_natCast, ← cast_tens, mul_comm (c : ℚ),
      mul_div_mul_left _ _ hpow]
  rw [hquot]
  exact roundHalfEven_mul_le c _ (tens_pos _)

/-- A magnitude that exceeds a power of ten by less than what rounding takes away does not
exceed it once it is fitted. -/
theorem fit_within {K : Nat} (hK : (K : Int) ≤ maxExponent)
    (h : (c : ℚ) * 10 ^ e < 10 ^ (K : Int) + 10 ^ ((K : Int) - 29)) :
    ∃ c' e', fit n c e = .ok (.finite n c' e') ∧ (c' : ℚ) * 10 ^ e' ≤ 10 ^ K := by
  by_cases hc : c = 0
  · subst hc
    exact ⟨0, _, if_pos rfl, by simp⟩
  obtain ⟨low, hlow⟩ : ∃ low, low = e + dropped c e := ⟨_, rfl⟩
  have hvalue := keptDigits_le_value c e
  rw [← hlow] at hvalue
  have hkept : (keptDigits c e : ℚ) ≤ 10 ^ ((K : Int) - low) := by
    by_cases hshort : low ≤ K - 28
    · -- there are at most `10 ^ 28` units, whatever was rounded
      have hdigits : (keptDigits c e : ℚ) ≤ 10 ^ (28 : Int) := by
        rw [zpow_ofNat, ← cast_tens]
        exact_mod_cast keptDigits_le c e
      exact hdigits.trans (zpow_le_zpow_right₀ (by norm_num) (by omega))
    · have hquot : (c : ℚ) * 10 ^ e / 10 ^ low
          < 10 ^ ((K : Int) - low) + 10 ^ ((K : Int) - 29 - low) := by
        rw [zpow_sub₀ (by norm_num), zpow_sub₀ (by norm_num) (_ - 29), ← add_div]
        exact div_lt_div_of_pos_right h (by positivity)
      have hrest : (10 : ℚ) ^ ((K : Int) - 29 - low) ≤ 10 ^ (-2 : Int) :=
        zpow_le_zpow_right₀ (by norm_num) (by omega)
      refine le_zpow_of_lt_add ?_
      norm_num at hrest
      linarith
  have hle : (keptDigits c e : ℚ) * 10 ^ (e + dropped c e) ≤ 10 ^ K := by
    rw [← hlow]
    calc (keptDigits c e : ℚ) * 10 ^ low
        ≤ 10 ^ ((K : Int) - low) * 10 ^ low := mul_le_mul_of_nonneg_right hkept (by positivity)
      _ = 10 ^ K := by rw [← zpow_add₀ (by norm_num), sub_add_cancel, zpow_natCast]
  refine ⟨_, _, fit_of_kept_le hc hK hle, ?_⟩
  rwa [carried_value]

/-! ## sums and differences -/

/-- A sum is the exact sum, fitted. -/
theorem add_eq_fit (hx : x.toRat? = some p) (hy : y.toRat? = some q) :
    ∃ n c e, x.add y = fit n c e ∧ (withSign n c : ℚ) * 10 ^ e = p + q := by
  obtain ⟨n, c, e, rfl, rfl⟩ := exists_of_toRat? hx
  obtain ⟨n', c', e', rfl, rfl⟩ := exists_of_toRat? hy
  obtain ⟨low, hlow⟩ : ∃ low, low = min e e' := ⟨_, rfl⟩
  obtain ⟨sum, hsum⟩ :
      ∃ sum, sum = withSign n (aligned c e low) + withSign n' (aligned c' e' low) := ⟨_, rfl⟩
  refine ⟨if sum = 0 then n && n' else decide (sum < 0), sum.natAbs, low, ?_, ?_⟩
  · rw [hsum, hlow]
    rfl
  · have hsign : withSign (if sum = 0 then n && n' else decide (sum < 0)) sum.natAbs = sum := by
      by_cases hzero : sum = 0
      · rw [hzero]
        cases n <;> cases n' <;> rfl
      · rw [if_neg hzero, withSign_natAbs]
    rw [hsign, hsum, Int.cast_add, add_mul, withSign_aligned (by omega),
      withSign_aligned (by omega)]

theorem sub_eq_add_of_toRat? (hx : x.toRat? = some p) (hy : y.toRat? = some q) :
    x.sub y = x.add y.neg := by
  obtain ⟨n, c, e, rfl, -⟩ := exists_of_toRat? hx
  obtain ⟨n', c', e', rfl, -⟩ := exists_of_toRat? hy
  rfl

/-- Whether a rational number is a whole number of millionths. -/
def IsMicro (q : ℚ) : Prop := ∃ m : Int, q = m / 10 ^ 6

theorem IsMicro.zero : IsMicro 0 := ⟨0, by simp⟩

theorem IsMicro.add (hp : IsMicro p) (hq : IsMicro q) : IsMicro (p + q) := by
  obtain ⟨m, rfl⟩ := hp
  obtain ⟨m', rfl⟩ := hq
  exact ⟨m + m', by push_cast; ring⟩

theorem IsMicro.neg (hq : IsMicro q) : IsMicro (-q) := by
  obtain ⟨m, rfl⟩ := hq
  exact ⟨-m, by push_cast; ring⟩

theorem IsMicro.sub (hp : IsMicro p) (hq : IsMicro q) : IsMicro (p - q) := by
  rw [sub_eq_add_neg]
  exact hp.add hq.neg

theorem IsMicro.max (hp : IsMicro p) (hq : IsMicro q) : IsMicro (max p q) := by
  rcases max_choice p q with h | h <;> rw [h] <;> assumption

/-- The magnitude of a signed value. -/
theorem value_eq_abs (h : (withSign n c : ℚ) * 10 ^ e = q) : (c : ℚ) * 10 ^ e = |q| := by
  have hpow : (0 : ℚ) < 10 ^ e := by positivity
  rw [← h, abs_mul, abs_withSign, abs_of_pos hpow]

/-- Of the values from zero on only zero may have a sign. -/
theorem eq_zero_of_sign (h : 0 ≤ (withSign n c : ℚ) * 10 ^ e) (hn : n = true) : c = 0 := by
  subst hn
  have hpow : (0 : ℚ) < 10 ^ e := by positivity
  have hle : (0 : ℚ) ≤ (withSign true c : ℚ) := le_of_mul_le_mul_right (by simpa using h) hpow
  rw [withSign, if_pos rfl] at hle
  have : (0 : Int) ≤ -c := by exact_mod_cast hle
  omega

/-- The same sign over the same magnitude denotes the same number. -/
theorem toRat?_of_value {c' : Nat} {e' : Int} (h : (withSign n c : ℚ) * 10 ^ e = q)
    (hvalue : (c' : ℚ) * 10 ^ e' = c * 10 ^ e) : (finite n c' e').toRat? = some q := by
  rw [toRat?_finite, ← h]
  cases n <;> simp [withSign, hvalue]

/-- A sum of some millionths below `10 ^ 22` is exact. -/
theorem add_exact (hx : x.toRat? = some p) (hy : y.toRat? = some q) (hmicro : IsMicro (p + q))
    (hsmall : |p + q| < 10 ^ 22) : ∃ z, x.add y = .ok z ∧ z.toRat? = some (p + q) := by
  obtain ⟨n, c, e, hadd, hsum⟩ := add_eq_fit hx hy
  obtain ⟨m, hm⟩ := hmicro
  have hvalue := value_eq_abs hsum
  have habs : |p + q| = m.natAbs / 10 ^ 6 := by
    rw [hm, abs_div, abs_of_pos (by norm_num : (0 : ℚ) < 10 ^ 6), Nat.cast_natAbs, Int.cast_abs]
  have hlt : m.natAbs < tens 28 := by
    have hcast : (m.natAbs : ℚ) < tens 28 := by
      rw [habs, div_lt_iff₀ (by norm_num)] at hsmall
      rw [cast_tens]
      exact hsmall.trans_eq (by norm_num)
    exact_mod_cast hcast
  obtain ⟨c', e', hfit, hkept⟩ := fit_exact (n := n) (hvalue.trans habs) hlt
  exact ⟨_, hadd.trans hfit, toRat?_of_value hsum hkept⟩

/-- A difference of some millionths below `10 ^ 22` is exact. -/
theorem sub_exact (hx : x.toRat? = some p) (hy : y.toRat? = some q) (hmicro : IsMicro (p - q))
    (hsmall : |p - q| < 10 ^ 22) : ∃ z, x.sub y = .ok z ∧ z.toRat? = some (p - q) := by
  rw [sub_eq_add_of_toRat? hx hy]
  rw [sub_eq_add_neg] at hmicro hsmall ⊢
  exact add_exact hx (toRat?_neg hy) hmicro hsmall

/-- A sum that exceeds a power of ten by less than what rounding takes away does not exceed it. -/
theorem add_within {K : Nat} (hK : (K : Int) ≤ maxExponent) (hx : x.toRat? = some p)
    (hy : y.toRat? = some q) (hsmall : |p + q| < 10 ^ (K : Int) + 10 ^ ((K : Int) - 29)) :
    ∃ z r, x.add y = .ok z ∧ z.toRat? = some r ∧ |r| ≤ 10 ^ K := by
  obtain ⟨n, c, e, hadd, hsum⟩ := add_eq_fit hx hy
  rw [← value_eq_abs hsum] at hsmall
  obtain ⟨c', e', hfit, hle⟩ := fit_within (n := n) hK hsmall
  refine ⟨_, _, hadd.trans hfit, toRat?_finite n c' e', ?_⟩
  rwa [← value_eq_abs rfl]

theorem sub_within {K : Nat} (hK : (K : Int) ≤ maxExponent) (hx : x.toRat? = some p)
    (hy : y.toRat? = some q) (hsmall : |p - q| < 10 ^ (K : Int) + 10 ^ ((K : Int) - 29)) :
    ∃ z r, x.sub y = .ok z ∧ z.toRat? = some r ∧ |r| ≤ 10 ^ K := by
  rw [sub_eq_add_of_toRat? hx hy]
  rw [sub_eq_add_neg] at hsmall
  exact add_within hK hx (toRat?_neg hy) hsmall

/-! ## order -/

/-- Decimals are ordered by what they denote. -/
theorem cmp_eq (hx : x.toRat? = some p) (hy : y.toRat? = some q) :
    x.cmp y = some (compare p q) := by
  obtain ⟨n, c, e, rfl, rfl⟩ := exists_of_toRat? hx
  obtain ⟨n', c', e', rfl, rfl⟩ := exists_of_toRat? hy
  obtain ⟨low, hlow⟩ : ∃ low, low = min e e' := ⟨_, rfl⟩
  have hpow : (0 : ℚ) < 10 ^ low := by positivity
  have hp : (withSign n (aligned c e low) : ℚ) * 10 ^ low = withSign n c * 10 ^ e :=
    withSign_aligned (by omega)
  have hq : (withSign n' (aligned c' e' low) : ℚ) * 10 ^ low = withSign n' c' * 10 ^ e' :=
    withSign_aligned (by omega)
  rw [← hp, ← hq, cmp, ← hlow]
  congr 1
  rcases lt_trichotomy (withSign n (aligned c e low)) (withSign n' (aligned c' e' low)) with
    h | h | h
  · rw [compare_lt_iff_lt.2 h, eq_comm, compare_lt_iff_lt]
    exact mul_lt_mul_of_pos_right (Int.cast_lt.2 h) hpow
  · rw [compare_eq_iff_eq.2 h, eq_comm, compare_eq_iff_eq, h]
  · rw [compare_gt_iff_gt.2 h, eq_comm, compare_gt_iff_gt]
    exact mul_lt_mul_of_pos_right (Int.cast_lt.2 h) hpow

theorem less_eq (hx : x.toRat? = some p) (hy : y.toRat? = some q) :
    x.less y = .ok (decide (p < q)) := by
  rw [less, cmp_eq hx hy]
  rcases lt_trichotomy p q with h | h | h
  · simp [compare_lt_iff_lt.2 h, h]
  · simp [h]
  · simp [compare_gt_iff_gt.2 h, h.le]

theorem isPositive_eq (hx : x.toRat? = some p) : x.isPositive = .ok (decide (0 < p)) :=
  less_eq toRat?_zero hx

/-- The greater of two decimals denotes the greater of what they denote. -/
theorem greater_eq (hx : x.toRat? = some p) (hy : y.toRat? = some q) :
    ∃ z, x.greater y = .ok z ∧ z.toRat? = some (max p q) := by
  by_cases h : p < q
  · refine ⟨y, ?_, by rw [max_eq_right h.le, hy]⟩
    simp only [greater, less_eq hx hy, decide_eq_true h]
    rfl
  · refine ⟨x, ?_, by rw [max_eq_left (not_lt.1 h), hx]⟩
    simp only [greater, less_eq hx hy, decide_eq_false h]
    rfl

end Decimal

end Storyboard
