import Mathlib.Data.Nat.Cast.Order.Field
import Storyboard.Number.Double.Shortest
import Storyboard.Proofs.Number.Numeral

/-!
# Storyboard.Proofs.Number.Shortest

The shortest digits of a floating-point number.  Whatever the search finds lies next to the
number on one of the grids that it looks at, so it is as small as the number is; and its text
is a numeral, which is read back as the decimal it stands for.

* `Double.toDecimal_finite` — a finite number has a decimal with its sign, and not a large one;
* `Double.read_text` — the text of a finite number is read as that decimal.
-/

namespace Storyboard

open Number Decimal

namespace Double

/-! ## how large the digits are -/

/-- Digits over an exponent that a number of 64 bits can have, and more. -/
structure InReach (c : Nat) (e : Int) : Prop where
  low : -400 ≤ e
  high : e ≤ 400
  value : (c : ℚ) * 10 ^ e < 10 ^ (310 : Int)

theorem InReach.coefficient {c : Nat} {e : Int} (h : InReach c e) : c < tens 1000 :=
  lt_tens_of_value_lt h.value (by have := h.low; omega)

theorem InReach.coefficient_lt {c : Nat} {e : Int} (h : InReach c e) : c < tens 10000 :=
  Nat.lt_of_lt_of_le h.coefficient (tens_le_tens (by decide))

theorem twos_le_twos {j k : Nat} (h : j ≤ k) : twos j ≤ twos k :=
  Nat.pow_le_pow_right (by decide) h

/-- The magnitude of a number of 64 bits is a fraction of small numbers. -/
theorem magnitude_lt {m : Nat} {e : Int} (h : Canonical m e) :
    (magnitude m e).1 < tens 309 ∧ 0 < (magnitude m e).2 := by
  obtain ⟨hm, -, hhigh, -⟩ := h
  have hpow {j : Nat} (hj : j ≤ 971) : m * twos j < tens 309 := by
    calc m * twos j ≤ twos 53 * twos 971 := Nat.mul_le_mul hm.le (twos_le_twos hj)
      _ < tens 309 := by decide +kernel
  unfold magnitude
  split
  · exact ⟨hpow (by unfold maxExponent at hhigh; omega), Nat.one_pos⟩
  · exact ⟨by simpa using hpow (Nat.zero_le 971), twos_pos _⟩

section Search

variable {x : Double} {n d : Nat} {e : Int}

/-- A fraction over a unit is the fraction divided by the unit. -/
theorem inTens_value (n d : Nat) (e : Int) :
    ((inTens n d e).1 : ℚ) / (inTens n d e).2 * 10 ^ e = n / d := by
  have hpow : (10 : ℚ) ^ e ≠ 0 := by positivity
  unfold inTens
  split
  · next he =>
    rw [Nat.cast_mul, cast_tens_toNat he, ← div_div, div_mul_cancel₀ _ hpow]
  · next he =>
    rw [Nat.cast_mul, cast_tens_toNat (by omega), zpow_neg]
    field_simp

/-- A neighbour is at most one unit above. -/
theorem onGrid?_le {c : Nat} (h : onGrid? x n d e = some c) :
    c ≤ (inTens n d e).1 / (inTens n d e).2 + 1 := by
  unfold onGrid? at h
  dsimp only at h
  split_ifs at h <;> obtain rfl := Option.some.inj h <;> omega

theorem onGrid?_value {c : Nat} (h : onGrid? x n d e = some c) :
    (c : ℚ) * 10 ^ e ≤ n / d + 10 ^ e := by
  have hc : (c : ℚ) ≤ ((inTens n d e).1 : ℚ) / (inTens n d e).2 + 1 := by
    have hcast : (c : ℚ) ≤ (((inTens n d e).1 / (inTens n d e).2 : ℕ) : ℚ) + 1 := by
      exact_mod_cast onGrid?_le h
    exact hcast.trans (add_le_add_left Nat.cast_div_le 1)
  calc (c : ℚ) * 10 ^ e
      ≤ (((inTens n d e).1 : ℚ) / (inTens n d e).2 + 1) * 10 ^ e :=
        mul_le_mul_of_nonneg_right hc (by positivity)
    _ = n / d + 10 ^ e := by rw [add_mul, one_mul, inTens_value]

theorem firstPlace_bounds (hn : n < tens 309) : -340 ≤ firstPlace n d ∧ firstPlace n d ≤ 308 := by
  have hlarge : n * tens 340 / d < tens 649 := by
    refine Nat.lt_of_le_of_lt (Nat.div_le_self _ _) ?_
    rw [show 649 = 309 + 340 from rfl, tens_add]
    exact Nat.mul_lt_mul_of_pos_right hn (tens_pos _)
  have hpos := digitCount_pos (n * tens 340 / d)
  have hcount := (digitCount_le_iff (by decide)).2 hlarge
  unfold firstPlace
  omega

theorem fraction_lt (hn : n < tens 309) (hd : 0 < d) : (n : ℚ) / d < 10 ^ (309 : Int) := by
  have hone : (1 : ℚ) ≤ d := by exact_mod_cast hd
  have hcast : (n : ℚ) < 10 ^ (309 : Int) := by
    rw [zpow_ofNat, ← cast_tens]
    exact_mod_cast hn
  exact (div_le_self (by positivity) hone).trans_lt hcast

/-- What the search finds is in reach, on whichever grid it finds it. -/
theorem search_inReach {count : Nat} (hn : n < tens 309) (hd : 0 < d)
    (hlow : -400 + (count : Int) ≤ e) (hhigh : e ≤ 308) :
    InReach (search x n d e count).1 (search x n d e count).2 := by
  induction count generalizing e with
  | zero => exact ⟨by simp [search], by simp [search], by simp [search]⟩
  | succ count ih =>
    rw [search]
    split
    · next c hc =>
      refine ⟨by omega, by omega, (onGrid?_value hc).trans_lt ?_⟩
      have hunit : (10 : ℚ) ^ e ≤ 10 ^ (309 : Int) :=
        zpow_le_zpow_right₀ (by norm_num) (by omega)
      have hpos : (0 : ℚ) < 10 ^ (309 : Int) := by positivity
      have hfraction := fraction_lt hn hd
      calc (n : ℚ) / d + 10 ^ e
          < 10 ^ (309 : Int) + 10 ^ (309 : Int) := add_lt_add_of_lt_of_le hfraction hunit
        _ = 10 ^ (309 : Int) * 2 := (mul_two _).symm
        _ ≤ 10 ^ (309 : Int) * 10 := mul_le_mul_of_nonneg_left (by norm_num) hpos.le
        _ = 10 ^ (310 : Int) := (zpow_add_one₀ (by norm_num) _).symm
    · exact ih (by omega) (by omega)

/-- Zeros at the end are taken off without a change of value. -/
theorem dropZeros_value (fuel c : Nat) (e : Int) :
    ((dropZeros fuel c e).1 : ℚ) * 10 ^ (dropZeros fuel c e).2 = c * 10 ^ e := by
  induction fuel generalizing c e with
  | zero => rfl
  | succ fuel ih =>
    rw [dropZeros]
    split
    · next hzero =>
      have hc : c = c / 10 * 10 := by omega
      have hcast : (c : ℚ) = ((c / 10 : ℕ) : ℚ) * 10 := by exact_mod_cast hc
      rw [ih, zpow_add₀ (by norm_num), zpow_one, hcast]
      ring
    · rfl

theorem le_dropZeros (fuel c : Nat) (e : Int) : e ≤ (dropZeros fuel c e).2 := by
  induction fuel generalizing c e with
  | zero => exact Int.le_refl e
  | succ fuel ih =>
    rw [dropZeros]
    split
    · have := ih (c / 10) (e + 1)
      omega
    · exact Int.le_refl e

/-- A number below a power of ten has no digit at that power. -/
theorem exponent_lt {c : Nat} {K : Int} (hc : c ≠ 0) (h : (c : ℚ) * 10 ^ e < 10 ^ K) : e < K := by
  have hone : (1 : ℚ) ≤ c := by exact_mod_cast Nat.one_le_iff_ne_zero.2 hc
  have hpow : (10 : ℚ) ^ e < 10 ^ K :=
    (le_mul_of_one_le_left (by positivity) hone).trans_lt h
  exact (zpow_lt_zpow_iff_right₀ (by norm_num)).1 hpow

/-- Zeros at the end are all that is taken off. -/
theorem dropZeros_ne_zero {c : Nat} (hc : c ≠ 0) (fuel : Nat) (e : Int) :
    (dropZeros fuel c e).1 ≠ 0 := by
  intro hzero
  have hvalue := dropZeros_value fuel c e
  have hpow : (10 : ℚ) ^ e ≠ 0 := by positivity
  rw [hzero, Nat.cast_zero, zero_mul, eq_comm, mul_eq_zero] at hvalue
  exact hc (by exact_mod_cast hvalue.resolve_right hpow)

theorem InReach.dropZeros {c : Nat} (hc : c ≠ 0) (h : InReach c e) (fuel : Nat) :
    InReach (dropZeros fuel c e).1 (dropZeros fuel c e).2 := by
  have hsmall := h.value
  rw [← dropZeros_value fuel c e] at hsmall
  have hlt := exponent_lt (dropZeros_ne_zero hc fuel e) hsmall
  exact ⟨h.low.trans (le_dropZeros fuel c e), by omega, hsmall⟩

end Search

theorem shortest_eq : shortest = fun m e =>
    match magnitude m e with
    | (n, d) =>
      match search (ofParts false m e) n d (firstPlace n d) 17 with
      | (c, e) => if c = 0 then (c, e) else dropZeros 18 c e := rfl

/-- The place of the first digit of a number that is between two powers of ten. -/
theorem firstPlace_eq {n d k : Nat} (hlow : tens k ≤ n * tens 340 / d)
    (hhigh : n * tens 340 / d < tens (k + 1)) : firstPlace n d = k - 340 := by
  have hle : digitCount (n * tens 340 / d) ≤ k + 1 := (digitCount_le_iff (by omega)).2 hhigh
  have hlt : ¬ digitCount (n * tens 340 / d) ≤ k := by
    intro hle
    cases k with
    | zero => have := digitCount_pos (n * tens 340 / d); omega
    | succ k => exact absurd ((digitCount_le_iff (by omega)).1 hle) (by omega)
  rw [firstPlace]
  omega

/-- The shortest decimal of a number whose first digit has a known place. -/
theorem shortest_of_firstPlace {m k : Nat} {e : Int}
    (hlow : tens k ≤ (magnitude m e).1 * tens 340 / (magnitude m e).2)
    (hhigh : (magnitude m e).1 * tens 340 / (magnitude m e).2 < tens (k + 1)) :
    shortest m e =
      match search (ofParts false m e) (magnitude m e).1 (magnitude m e).2 (k - 340) 17 with
      | (c, e) => if c = 0 then (c, e) else dropZeros 18 c e := by
  -- the numbers of grids and of zeros are left open, lest the search be worked out
  have hopen (count fuel : Nat) : (match magnitude m e with
      | (n, d) =>
        match search (ofParts false m e) n d (firstPlace n d) count with
        | (c, e) => if c = 0 then (c, e) else dropZeros fuel c e) =
      match search (ofParts false m e) (magnitude m e).1 (magnitude m e).2 (k - 340) count with
      | (c, e) => if c = 0 then (c, e) else dropZeros fuel c e := by
    rw [← firstPlace_eq hlow hhigh]
  exact (congrFun (congrFun shortest_eq m) e).trans (hopen 17 18)

/-- The digits of a number are found by a search, and then lose the zeros at their end. -/
theorem shortest_found (m : Nat) (e : Int) : ∃ count fuel found, 16 < count ∧ count ≤ 60 ∧
    found = search (ofParts false m e) (magnitude m e).1 (magnitude m e).2
      (firstPlace (magnitude m e).1 (magnitude m e).2) count ∧
    shortest m e = if found.1 = 0 then found else dropZeros fuel found.1 found.2 := by
  -- the numbers of grids and of zeros are left open, lest the search be worked out
  have hopen (count fuel : Nat) (r : Nat × Int) (hr : r = match magnitude m e with
      | (n, d) =>
        match search (ofParts false m e) n d (firstPlace n d) count with
        | (c, e) => if c = 0 then (c, e) else dropZeros fuel c e) : ∃ found,
      found = search (ofParts false m e) (magnitude m e).1 (magnitude m e).2
        (firstPlace (magnitude m e).1 (magnitude m e).2) count ∧
      r = if found.1 = 0 then found else dropZeros fuel found.1 found.2 := ⟨_, rfl, hr⟩
  obtain ⟨found, hfound, hshortest⟩ := hopen 17 18 _ (congrFun (congrFun shortest_eq m) e)
  exact ⟨17, 18, found, by decide, by decide, hfound, hshortest⟩

theorem shortest_inReach {m : Nat} {e : Int} (h : Canonical m e) :
    InReach (shortest m e).1 (shortest m e).2 := by
  obtain ⟨count, fuel, found, -, hcount, hfound, hshortest⟩ := shortest_found m e
  obtain ⟨hn, hd⟩ := magnitude_lt h
  have hplace := firstPlace_bounds (d := (magnitude m e).2) hn
  have hlow : -400 + (count : Int) ≤ firstPlace (magnitude m e).1 (magnitude m e).2 := by omega
  have hreach : InReach found.1 found.2 := by
    rw [hfound]
    exact search_inReach hn hd hlow hplace.2
  rw [hshortest]
  split
  · exact hreach
  · next hc => exact hreach.dropZeros hc fuel

/-! ## decimal and text -/

section Finite

variable {negative : Bool} {m c : Nat} {e e' : Int} (h : Canonical m e)

theorem toDecimal_finite_eq : toDecimal (.finite negative m e h) =
    if m = 0 then .finite negative 0 (-1)
    else
      match shortest m e with
      | (c, e) =>
        if 0 ≤ e ∧ e + digitCount c - 1 < plainLayout.positionalBelow then
          .finite negative (c * tens (e + 1).toNat) (-1)
        else .finite negative c e := rfl

theorem textIn_finite_eq (layout : Layout) : textIn layout (.finite negative m e h) =
    signText negative ++
      if m = 0 then "0.0"
      else
        match shortest m e with
        | (c, e) => digitsText layout c.repr.toList e := rfl

theorem text_finite_eq : text (.finite negative m e h) =
    signText negative ++
      if m = 0 then "0.0"
      else
        match shortest m e with
        | (c, e) => digitsText plainLayout c.repr.toList e := textIn_finite_eq h plainLayout

/-- The decimal of shortest digits: a whole number that is written without an exponent has one
zero after the point. -/
def ofShortest (negative : Bool) (c : Nat) (e : Int) : Decimal :=
  if 0 ≤ e ∧ e + digitCount c - 1 < plainLayout.positionalBelow then
    .finite negative (c * tens (e + 1).toNat) (-1)
  else .finite negative c e

theorem toDecimal_of_shortest (hm : m ≠ 0) (hshort : shortest m e = (c, e')) :
    toDecimal (.finite negative m e h) = ofShortest negative c e' := by
  rw [(toDecimal_finite_eq h).trans (if_neg hm), hshort]
  rfl

theorem text_of_shortest (hm : m ≠ 0) (hshort : shortest m e = (c, e')) :
    text (.finite negative m e h)
      = signText negative ++ digitsText plainLayout c.repr.toList e' := by
  rw [text_finite_eq h, if_neg hm, hshort]

/-- A finite number has a decimal with its sign, which is in reach. -/
theorem toDecimal_finite :
    ∃ c e', toDecimal (.finite negative m e h) = .finite negative c e' ∧ InReach c e' := by
  by_cases hm : m = 0
  · refine ⟨0, -1, (toDecimal_finite_eq h).trans (if_pos hm), by decide, by decide, ?_⟩
    norm_num
  have hreach := shortest_inReach h
  rcases hshort : shortest m e with ⟨c, e'⟩
  rw [hshort] at hreach
  rw [toDecimal_of_shortest h hm hshort, ofShortest]
  split
  · next hwhole =>
    have hvalue : ((c * tens (e' + 1).toNat : ℕ) : ℚ) * 10 ^ (-1 : Int) = c * 10 ^ e' := by
      rw [Nat.cast_mul, cast_tens_toNat (by omega), mul_assoc, ← zpow_add₀ (by norm_num),
        Int.add_neg_cancel_right]
    refine ⟨_, _, rfl, by decide, by decide, ?_⟩
    rw [hvalue]
    exact hreach.value
  · exact ⟨c, e', rfl, hreach⟩

end Finite

/-! ## the text is read back -/

section Read

variable {c : Nat} {e : Int}

/-- Digits that are the whole part and the fraction of a numeral are read, moved by the exponent
that follows them. -/
theorem read_digits (negative : Bool) (whole fraction tail : List Char) {x : Int} {s : String}
    (hs : s.toList = whole ++ (if fraction.isEmpty then [] else '.' :: fraction) ++ tail)
    (hdigits : ∀ c ∈ whole ++ fraction, c.isDigit = true) (hwhole : whole ≠ [])
    (htail : Numeral.IsTail tail) (hchars : ∀ c ∈ tail, Numeral.InText c)
    (hx : readExponent? tail = some x) (hlow : -1000000 ≤ x - fraction.length)
    (hhigh : x - fraction.length ≤ 1000000) (hc : digitsValue (whole ++ fraction) < tens 10000) :
    Decimal.read (signText negative ++ s)
      = .ok (.finite negative (digitsValue (whole ++ fraction)) (x - fraction.length)) := by
  obtain ⟨n, hn⟩ : ∃ n : Numeral, n = ⟨negative, whole, fraction, hwhole, hdigits⟩ := ⟨_, rfl⟩
  have htext : signText negative ++ s = n.text ++ String.ofList tail := by
    rw [← String.ofList_toList (s := s), hs, hn, String.ofList_append, ← String.append_assoc]
    rfl
  have hread := n.read_text_append htail hchars hx
  rw [← htext, hn] at hread
  exact hread hlow hhigh hc

/-- A whole number is read with the zero after its point. -/
theorem read_whole (negative : Bool) (h : InReach c e) (he : 0 ≤ e) :
    Decimal.read (signText negative ++
        (String.ofList (c.repr.toList ++ List.replicate e.toNat '0') ++ ".0"))
      = .ok (.finite negative (c * tens (e + 1).toNat) (-1)) := by
  obtain ⟨ds, hds⟩ : ∃ ds, ds = c.repr.toList ++ List.replicate e.toNat '0' := ⟨_, rfl⟩
  have hzeros : ds ++ ['0'] = c.repr.toList ++ List.replicate (e + 1).toNat '0' := by
    rw [hds, List.append_assoc, ← List.replicate_succ', show (e + 1).toNat = e.toNat + 1 by omega]
  have hvalue : digitsValue (ds ++ ['0']) = c * tens (e + 1).toNat := by
    rw [hzeros, digitsValue_append, digitsValue_zeros, List.length_replicate, digitsValue_repr,
      Nat.add_zero]
  have hsmall : c * tens (e + 1).toNat < tens 10000 := by
    have hhigh := h.high
    calc c * tens (e + 1).toNat
        < tens 1000 * tens (e + 1).toNat := Nat.mul_lt_mul_of_pos_right h.coefficient (tens_pos _)
      _ = tens (1000 + (e + 1).toNat) := (tens_add _ _).symm
      _ ≤ tens 10000 := tens_le_tens (by omega)
  have hdigits : ∀ d ∈ ds ++ ['0'], d.isDigit = true := by
    intro d hd
    rw [hzeros] at hd
    cases List.mem_append.1 hd with
    | inl hdigit => exact isDigit_of_mem_repr hdigit
    | inr hzero => exact Numeral.isDigit_of_mem_zeros hzero
  have hne : ds ≠ [] := by simp [hds]
  rw [← hds, ← hvalue]
  rw [← hvalue] at hsmall
  exact read_digits negative ds ['0'] [] (by simp) hdigits hne (.inl rfl) (by simp) rfl (by decide)
    (by decide) hsmall

/-- A number with its point inside its digits is read. -/
theorem read_inside (negative : Bool) (h : InReach c e) {first : Nat}
    (hfirst : (first : Int) = e + digitCount c) (hpos : 0 < first) (he : e < 0) :
    Decimal.read (signText negative ++
        String.ofList (c.repr.toList.take first ++ '.' :: c.repr.toList.drop first))
      = .ok (.finite negative c e) := by
  obtain ⟨ds, hds⟩ : ∃ ds, ds = c.repr.toList := ⟨_, rfl⟩
  have hlength : ds.length = digitCount c := by rw [hds, String.length_toList, digitCount]
  have happend : ds.take first ++ ds.drop first = ds := List.take_append_drop first ds
  have hvalue : digitsValue (ds.take first ++ ds.drop first) = c := by
    rw [happend, hds, digitsValue_repr]
  have hdrop : (0 : Int) - (ds.drop first).length = e := by
    rw [List.length_drop]
    omega
  have hempty : (ds.drop first).isEmpty = false := by
    rw [List.isEmpty_eq_false_iff, ← List.length_pos_iff]
    omega
  have hne : ds.take first ≠ [] := by
    rw [← List.length_pos_iff, List.length_take, hlength]
    have := digitCount_pos c
    omega
  have hdigits : ∀ d ∈ ds.take first ++ ds.drop first, d.isDigit = true := by
    rw [happend]
    exact fun d hd => isDigit_of_mem_repr (hds ▸ hd)
  have hlow := h.low
  have hread := read_digits negative (ds.take first) (ds.drop first) [] (x := 0)
    (s := String.ofList (ds.take first ++ '.' :: ds.drop first)) (by simp [hempty]) hdigits hne
    (.inl rfl) (by simp) rfl (by omega) (by omega) (by rw [hvalue]; exact h.coefficient_lt)
  rwa [hvalue, hdrop, hds] at hread

/-- A number with its point before its digits is read. -/
theorem read_below (negative : Bool) (h : InReach c e) {zeros : Nat}
    (hzeros : (zeros : Int) = -(e + digitCount c)) :
    Decimal.read (signText negative ++
        String.ofList ('0' :: '.' :: (List.replicate zeros '0' ++ c.repr.toList)))
      = .ok (.finite negative c e) := by
  obtain ⟨ds, hds⟩ : ∃ ds, ds = List.replicate zeros '0' ++ c.repr.toList := ⟨_, rfl⟩
  have hlength : ds.length = zeros + digitCount c := by
    rw [hds, List.length_append, List.length_replicate, String.length_toList, digitCount]
  have hvalue : digitsValue (['0'] ++ ds) = c := by
    rw [digitsValue_append, hds, digitsValue_append, digitsValue_zeros, digitsValue_repr,
      Nat.zero_mul, Nat.zero_add]
    exact (congrArg (· + c) (Nat.zero_mul _)).trans (Nat.zero_add c)
  have hfraction : (0 : Int) - ds.length = e := by omega
  have hempty : ds.isEmpty = false := by
    rw [List.isEmpty_eq_false_iff, ← List.length_pos_iff]
    have := digitCount_pos c
    omega
  have hdigits : ∀ d ∈ ['0'] ++ ds, d.isDigit = true := by
    intro d hd
    rw [hds, List.mem_append, List.mem_append] at hd
    rcases hd with hzero | hzero | hdigit
    · exact Numeral.isDigit_of_mem_zeros (k := 1) hzero
    · exact Numeral.isDigit_of_mem_zeros hzero
    · exact isDigit_of_mem_repr hdigit
  have hlow := h.low
  have hread := read_digits negative ['0'] ds [] (x := 0) (s := String.ofList ('0' :: '.' :: ds))
    (by simp [hempty]) hdigits (by simp) (.inl rfl) (by simp) rfl (by omega)
    (by have := h.high; omega) (by rw [hvalue]; exact h.coefficient_lt)
  rwa [hvalue, hfraction, hds] at hread

theorem inText_of_mem_exponent (first : Int) (width : Nat) :
    ∀ d ∈ 'e' :: (if first < 0 then '-' else '+') ::
      (List.replicate width '0' ++ first.natAbs.repr.toList), Numeral.InText d := by
  intro d hd
  rw [List.mem_cons, List.mem_cons, List.mem_append] at hd
  rcases hd with rfl | rfl | hzero | hdigit
  · exact .inr (by decide)
  · exact .inr (by split <;> decide)
  · exact .inl (Numeral.isDigit_of_mem_zeros hzero)
  · exact .inl (isDigit_of_mem_repr hdigit)

/-- The characters of a number with one digit before its point and an exponent. -/
theorem toList_scientific (first : Int) (d : Char) (rest exponent : List Char) :
    ((match d :: rest with
        | d :: d' :: rest => String.ofList (d :: '.' :: d' :: rest)
        | ds => String.ofList ds) ++ "e" ++ (if first < 0 then "-" else "+") ++
      String.ofList exponent).toList =
      [d] ++ (if rest.isEmpty then [] else '.' :: rest) ++
        'e' :: (if first < 0 then '-' else '+') :: exponent := by
  have hsign : (if first < 0 then "-" else "+").toList = [if first < 0 then '-' else '+'] := by
    split <;> rfl
  rw [String.toList_append, String.toList_append, String.toList_append, String.toList_ofList, hsign]
  cases rest <;> simp

/-- A number with one digit before its point and an exponent is read. -/
theorem read_scientific (negative : Bool) (h : InReach c e) {first : Int}
    (hfirst : first = e + digitCount c - 1) (width : Nat) :
    Decimal.read (signText negative ++
        ((match c.repr.toList with
          | d :: d' :: rest => String.ofList (d :: '.' :: d' :: rest)
          | ds => String.ofList ds) ++ "e" ++ (if first < 0 then "-" else "+") ++
        String.ofList (List.replicate width '0' ++ first.natAbs.repr.toList)))
      = .ok (.finite negative c e) := by
  obtain ⟨d, rest, hds⟩ := List.exists_cons_of_ne_nil (toList_repr_ne_nil c)
  have hvalue : digitsValue ([d] ++ rest) = c := by
    rw [List.singleton_append, ← hds, digitsValue_repr]
  have hlength : (rest.length : Int) = digitCount c - 1 := by
    rw [digitCount, ← String.length_toList, hds, List.length_cons]
    omega
  have hdigits : ∀ c' ∈ [d] ++ rest, c'.isDigit = true := by
    rw [List.singleton_append, ← hds]
    exact fun c' hc' => isDigit_of_mem_repr hc'
  have hlow := h.low
  have hhigh := h.high
  have hplace : first - rest.length = e := by omega
  have hread := read_digits negative [d] rest _ (toList_scientific first d rest _) hdigits
    (List.cons_ne_nil d []) (.inr ⟨_, rfl⟩) (inText_of_mem_exponent first width)
    (Numeral.readExponent?_padded first width) (by omega) (by omega)
    (by rw [hvalue]; exact h.coefficient_lt)
  rw [hds]
  rwa [hvalue, hplace] at hread

/-- The text of digits in reach is read as their decimal. -/
theorem read_digitsText (negative : Bool) (h : InReach c e) :
    Decimal.read (signText negative ++ digitsText plainLayout c.repr.toList e)
      = .ok (ofShortest negative c e) := by
  have hlength : c.repr.toList.length = digitCount c := by
    rw [String.length_toList, digitCount]
  have hpos := digitCount_pos c
  unfold digitsText ofShortest plainLayout
  dsimp only
  rw [hlength]
  split
  · next hpositional =>
    split
    · next hwhole =>
      rw [if_pos (by omega)]
      exact read_whole negative h hwhole
    · next hfraction =>
      have hnot : ¬(0 ≤ e ∧ e + digitCount c - 1 < 16) := by omega
      rw [if_neg hnot]
      split
      · exact read_inside negative h (by omega) (by omega) (by omega)
      · exact read_below negative h (by omega)
  · next hscientific =>
    have hnot : ¬(0 ≤ e ∧ e + digitCount c - 1 < 16) := by omega
    rw [if_neg hnot]
    exact read_scientific negative h rfl _

end Read

/-- The text of a finite number is read as its decimal. -/
theorem read_text {x : Double} (hx : x.isFinite = true) :
    Decimal.read x.text = .ok x.toDecimal := by
  cases x with
  | finite negative m e h =>
    by_cases hm : m = 0
    · rw [text_finite_eq h, if_pos hm, toDecimal_finite_eq h, if_pos hm]
      have hdigits : ∀ c ∈ ['0'] ++ ['0'], c.isDigit = true := by simp
      exact read_digits negative ['0'] ['0'] [] rfl hdigits (List.cons_ne_nil _ _) (.inl rfl)
        (by simp) rfl (by decide) (by decide) (tens_pos 10000)
    · have hreach := shortest_inReach h
      rcases hshort : shortest m e with ⟨c, e'⟩
      rw [hshort] at hreach
      rw [text_of_shortest h hm hshort, toDecimal_of_shortest h hm hshort]
      exact read_digitsText negative hreach
  | infinite negative => cases hx
  | nan => cases hx

end Double

end Storyboard
