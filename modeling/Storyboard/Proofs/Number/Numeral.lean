import Mathlib.Data.List.TakeWhile
import Storyboard.Number.Double.Read
import Storyboard.Proofs.Number.Digits
import Storyboard.Proofs.Number.Exact

/-!
# Storyboard.Proofs.Number.Numeral

Decimal numerals: a sign if there is one, digits, and after a point more digits.  A text
*denotes* a number if it is a numeral of that number; this says what a printed number is
without reading it.

* `Numeral.denotes_shortText` — filter text denotes some millionths exactly;
* `Numeral.Denotes.unique` — and nothing but them;
* `Numeral.read_text_append` — a numeral with an exponent is read digit by digit;
* `Decimal.read_repr`, `Number.readInteger?_repr` — an integer is read back.
-/

namespace Storyboard

open Number Text

namespace Decimal

/-! ## the value of digits -/

theorem digitsValue_eq (cs : List Char) : digitsValue cs = Nat.ofDigitChars 10 cs 0 :=
  ofDigits_map_sub cs

theorem digitsValue_append (cs ds : List Char) :
    digitsValue (cs ++ ds) = digitsValue cs * tens ds.length + digitsValue ds := by
  rw [digitsValue_eq, digitsValue_eq, digitsValue_eq, Nat.ofDigitChars_append,
    Nat.ofDigitChars_eq_ofDigitChars_zero, Nat.mul_comm]
  rfl

theorem digitsValue_repr (n : Nat) : digitsValue n.repr.toList = n := by
  rw [digitsValue_eq, Nat.toList_repr, Nat.ofDigitChars_ten_toDigits]

theorem digitsValue_zeros (k : Nat) : digitsValue (List.replicate k '0') = 0 := by
  induction k with
  | zero => rfl
  | succ k ih => rw [List.replicate_succ', digitsValue_append, ih]; rfl

end Decimal

open Decimal

/-- A decimal numeral: whether it has a minus sign, the digits before the point, of which there
is at least one, and those after it. -/
structure Numeral where
  negative : Bool
  whole : List Char
  fraction : List Char
  whole_ne_nil : whole ≠ []
  isDigit : ∀ c ∈ whole ++ fraction, c.isDigit = true

namespace Numeral

variable (n : Numeral)

/-- The numeral without its sign; no point is written before nothing. -/
def unsigned : List Char := n.whole ++ if n.fraction.isEmpty then [] else '.' :: n.fraction

/-- A numeral as it is written. -/
def text : String := signText n.negative ++ String.ofList n.unsigned

/-- All digits of a numeral as one number. -/
def coefficient : Nat := digitsValue (n.whole ++ n.fraction)

/-- The number that a numeral stands for. -/
def value : ℚ := withSign n.negative n.coefficient / 10 ^ n.fraction.length

/-- A text is a numeral of a number. -/
def Denotes (s : String) (q : ℚ) : Prop := ∃ n : Numeral, n.text = s ∧ n.value = q

/-! ## filter text -/

theorem isDigit_of_mem_zeros {k : Nat} {c : Char} (h : c ∈ List.replicate k '0') :
    c.isDigit = true := by
  obtain ⟨-, rfl⟩ := List.mem_replicate.1 h
  rfl

/-- The six digits of some millionths: what is written of them, and zeros that are not. -/
theorem fractionDigits_append (m : Nat) :
    ∃ k, fractionDigits m ++ List.replicate k '0'
      = List.replicate (places - m.repr.toList.length) '0' ++ m.repr.toList := by
  obtain ⟨all, hall⟩ :
      ∃ all, all = List.replicate (places - m.repr.toList.length) '0' ++ m.repr.toList := ⟨_, rfl⟩
  have hzeros : ∀ c ∈ all.reverse.takeWhile (· = '0'), c = '0' := by
    intro c hc
    simpa using List.mem_takeWhile_imp hc
  refine ⟨(all.reverse.takeWhile (· = '0')).length, ?_⟩
  rw [← hall]
  calc fractionDigits m ++ List.replicate (all.reverse.takeWhile (· = '0')).length '0'
      = (all.reverse.dropWhile (· = '0')).reverse ++ (all.reverse.takeWhile (· = '0')).reverse := by
        rw [List.eq_replicate_of_mem hzeros, List.reverse_replicate, List.length_replicate, hall]
        rfl
    _ = all := by rw [← List.reverse_append, List.takeWhile_append_dropWhile, List.reverse_reverse]

theorem isDigit_of_mem_fractionDigits {m : Nat} {c : Char} (h : c ∈ fractionDigits m) :
    c.isDigit = true := by
  obtain ⟨k, hk⟩ := fractionDigits_append m
  have hmem := List.mem_append_left (List.replicate k '0') h
  rw [hk, List.mem_append] at hmem
  cases hmem with
  | inl hzero => exact isDigit_of_mem_zeros hzero
  | inr hdigit => exact isDigit_of_mem_repr hdigit

/-- So many millionths as a numeral. -/
def ofMillionths (negative : Bool) (m : Nat) : Numeral where
  negative := negative && m != 0
  whole := (m / tens places).repr.toList
  fraction := fractionDigits (m % tens places)
  whole_ne_nil := toList_repr_ne_nil _
  isDigit := by
    intro c hc
    cases List.mem_append.1 hc with
    | inl hwhole => exact isDigit_of_mem_repr hwhole
    | inr hfraction => exact isDigit_of_mem_fractionDigits hfraction

theorem text_ofMillionths (negative : Bool) (m : Nat) :
    (ofMillionths negative m).text = millionthsText negative m := by
  have hpoint (cs : List Char) : String.ofList ('.' :: cs) = "." ++ String.ofList cs :=
    @String.ofList_append ['.'] cs
  dsimp only [text, unsigned, millionthsText, ofMillionths]
  split
  · rw [List.append_nil, String.ofList_toList, String.append_empty]
  · rw [String.ofList_append, String.ofList_toList, hpoint, String.append_assoc]

/-- All digits of some millionths, with the zeros that are not written. -/
theorem coefficient_ofMillionths (negative : Bool) (m : Nat) :
    ∃ k, (fractionDigits (m % tens places)).length + k = places ∧
      (ofMillionths negative m).coefficient * tens k = m := by
  obtain ⟨k, hk⟩ := fractionDigits_append (m % tens places)
  have hlength : (m % tens places).repr.toList.length ≤ places :=
    length_repr_le (by decide) (Nat.mod_lt _ (tens_pos _))
  refine ⟨k, ?_, ?_⟩
  · have := congrArg List.length hk
    simp only [List.length_append, List.length_replicate] at this
    omega
  · have hrest : digitsValue (fractionDigits (m % tens places)) * tens k = m % tens places := by
      have := congrArg digitsValue hk
      rwa [digitsValue_append, digitsValue_append, digitsValue_zeros, digitsValue_zeros,
        digitsValue_repr, List.length_replicate, Nat.zero_mul, Nat.zero_add, Nat.add_zero] at this
    have hplaces : tens (fractionDigits (m % tens places)).length * tens k = tens places := by
      have := congrArg List.length hk
      simp only [List.length_append, List.length_replicate] at this
      have hsum : (fractionDigits (m % tens places)).length + k = places := by omega
      rw [← tens_add, hsum]
    dsimp only [coefficient, ofMillionths]
    calc digitsValue ((m / tens places).repr.toList ++ fractionDigits (m % tens places)) * tens k
        = m / tens places * (tens (fractionDigits (m % tens places)).length * tens k)
            + digitsValue (fractionDigits (m % tens places)) * tens k := by
          rw [digitsValue_append, digitsValue_repr, Nat.add_mul, Nat.mul_assoc]
      _ = m := by rw [hplaces, hrest, Nat.div_add_mod']

theorem value_ofMillionths (negative : Bool) (m : Nat) :
    (ofMillionths negative m).value = withSign negative m / 10 ^ 6 := by
  obtain ⟨k, hplaces, hcoefficient⟩ := coefficient_ofMillionths negative m
  have hcast : ((ofMillionths negative m).coefficient : ℚ) * 10 ^ k = m := by
    rw [← cast_tens]
    exact_mod_cast hcoefficient
  have hsign : (withSign (negative && m != 0) (ofMillionths negative m).coefficient : ℚ) * 10 ^ k
      = withSign negative m := by
    by_cases hm : m = 0
    · have hzero : (ofMillionths negative m).coefficient = 0 := by
        have := tens_pos k
        rw [hm] at hcoefficient ⊢
        exact (Nat.mul_eq_zero.1 hcoefficient).resolve_right (by omega)
      rw [hzero, hm]
      cases negative <;> simp [withSign]
    · have hnonzero : (m != 0) = true := by simpa using hm
      rw [hnonzero, Bool.and_true]
      cases negative <;> simp [withSign, hcast]
  have hpow : (10 : ℚ) ^ 6 = 10 ^ (fractionDigits (m % tens places)).length * 10 ^ k := by
    rw [← pow_add, hplaces, places]
  rw [hpow, ← hsign, mul_div_mul_right _ _ (by positivity)]
  dsimp only [value, ofMillionths]

/-- A number of millionths is not changed by rounding to millionths. -/
theorem millionths_exact {c m : Nat} {e : Int} (h : (c : ℚ) * 10 ^ e = m / 10 ^ 6) :
    millionths c e = m := by
  have hc : (c : ℚ) = m * 10 ^ (-(e + 6)) := by
    have hpow : (10 : ℚ) ^ e ≠ 0 := by positivity
    rw [eq_div_of_mul_eq hpow h, zpow_neg, zpow_add₀ (by norm_num), zpow_ofNat]
    field_simp
  rw [millionths_eq]
  unfold places
  split
  · next he =>
    have hcast : ((c * tens (e + 6).toNat : ℕ) : ℚ) = m := by
      rw [Nat.cast_mul, cast_tens_toNat (by omega), hc, mul_assoc, ← zpow_add₀ (by norm_num),
        neg_add_cancel, zpow_zero, mul_one]
    exact_mod_cast hcast
  · next he =>
    have hcast : c = m * tens (-(e + 6)).toNat := by
      rw [← cast_tens_toNat (by omega)] at hc
      exact_mod_cast hc
    rw [hcast]
    exact roundHalfEven_mul m _ (tens_pos _)

/-- Filter text denotes some millionths exactly. -/
theorem denotes_shortText {d : Decimal} {q : ℚ} (hd : d.toRat? = some q) (hq : IsMicro q) :
    Denotes d.shortText q := by
  obtain ⟨n, c, e, rfl, hvalue⟩ := exists_of_toRat? hd
  obtain ⟨m, hm⟩ := hq
  have habs : (c : ℚ) * 10 ^ e = m.natAbs / 10 ^ 6 := by
    rw [value_eq_abs hvalue.symm, hm, abs_div, abs_of_pos (by norm_num : (0 : ℚ) < 10 ^ 6),
      Nat.cast_natAbs, Int.cast_abs]
  refine ⟨ofMillionths n (millionths c e), text_ofMillionths .., ?_⟩
  rw [value_ofMillionths, millionths_exact habs, hvalue]
  cases n <;> simp [withSign, habs, neg_div]

/-! ## reading -/

/-- The characters of numerals with an exponent. -/
def InText (c : Char) : Prop := c.isDigit = true ∨ c ∈ ['-', '+', '.', 'e']

theorem isBlank_of_inText {c : Char} (h : InText c) : isBlank c = false := by
  rcases h with h | h
  · have hc := toNat_of_isDigit h
    simp [isBlank, blankRanges, Ranges.contains]
    omega
  · simp only [List.mem_cons, List.not_mem_nil, or_false] at h
    rcases h with rfl | rfl | rfl | rfl <;> decide

theorem asciiDigit_of_inText {c : Char} (h : InText c) : asciiDigit c = c := by
  rcases h with h | h
  · have hc := toNat_of_isDigit h
    rw [asciiDigit, decimalValue?_of_isDigit h, Option.elim_some, Nat.add_sub_cancel' hc.1,
      Char.ofNat_toNat]
  · simp only [List.mem_cons, List.not_mem_nil, or_false] at h
    rcases h with rfl | rfl | rfl | rfl <;> decide

theorem trim_of_inText {cs : List Char} (h : ∀ c ∈ cs, InText c) : trim cs = cs :=
  trimOf_eq_self fun c hc => isBlank_of_inText (h c hc)

theorem trimSpaces_of_inText {cs : List Char} (h : ∀ c ∈ cs, InText c) : trimSpaces cs = cs := by
  refine trimOf_eq_self fun c hc => Bool.eq_false_iff.2 fun hspace => ?_
  exact absurd (isBlank_of_isSpace hspace) (by simp [isBlank_of_inText (h c hc)])

theorem ne_underscore_of_inText {c : Char} (h : InText c) : c ≠ '_' := by
  rintro rfl
  rcases h with h | h <;> exact absurd h (by decide)

theorem filter_of_inText {cs : List Char} (h : ∀ c ∈ cs, InText c) :
    cs.filter (· != '_') = cs := by
  rw [List.filter_eq_self]
  intro c hc
  simpa using ne_underscore_of_inText (h c hc)

theorem map_asciiDigit_of_inText {cs : List Char} (h : ∀ c ∈ cs, InText c) :
    cs.map asciiDigit = cs :=
  (List.map_congr_left fun c hc => asciiDigit_of_inText (h c hc)).trans (List.map_id _)

/-- A text of such characters is read as it stands. -/
theorem read_of_inText {s : String} (h : ∀ c ∈ s.toList, InText c) :
    Decimal.read s = (readPlain? s.toList).elim (.error .decimalUndefined) .ok := by
  rw [Decimal.read, trim_of_inText h, filter_of_inText h, map_asciiDigit_of_inText h]
  cases readPlain? s.toList <;> rfl

theorem underscoresInside_of_notMem {cs : List Char} (h : '_' ∉ cs) :
    Double.underscoresInside cs = true := by
  have hgo (before : Char) {cs : List Char} (hbefore : before ≠ '_') (h : '_' ∉ cs) :
      Double.underscoresInside.go before cs = true := by
    induction cs generalizing before with
    | nil => simp [Double.underscoresInside.go, hbefore]
    | cons c cs ih =>
      simp only [List.mem_cons, not_or] at h
      simp [Double.underscoresInside.go, hbefore, Ne.symm h.1, ih c (Ne.symm h.1) h.2]
  cases cs with
  | nil => rfl
  | cons c cs =>
    simp only [List.mem_cons, not_or] at h
    simp [Double.underscoresInside, Ne.symm h.1, hgo c (Ne.symm h.1) h.2]

/-- So it is as a floating-point number, which is the one nearest to the decimal that it says. -/
theorem read?_of_inText {negative : Bool} {cs : List Char} {parts : Option (Nat × Int)}
    (h : ∀ c ∈ cs, InText c)
    (hplain : readPlain? cs = parts.map fun d => .finite negative d.1 d.2) :
    Double.read? cs = parts.map fun d => Double.ofDigits negative d.1 d.2 := by
  have hunderscore : '_' ∉ cs := fun hmem => ne_underscore_of_inText (h _ hmem) rfl
  unfold Double.read?
  rw [trimSpaces_of_inText h, map_asciiDigit_of_inText h]
  dsimp only
  rw [if_pos (underscoresInside_of_notMem hunderscore), filter_of_inText h, hplain]
  cases parts <;> rfl

theorem toLower_of_isDigit {c : Char} (h : c.isDigit = true) : c.toLower = c := by
  have hc := toNat_of_isDigit h
  refine dif_neg ?_
  rintro ⟨hA, -⟩
  have hle : 65 ≤ c.toNat := UInt32.le_iff_toNat_le.1 hA
  omega

/-- A sign is told from the digits after it. -/
theorem splitSign_of_isDigit (negative : Bool) {c : Char} {cs : List Char}
    (h : c.isDigit = true) :
    splitSign ((signText negative).toList ++ c :: cs) = (negative, c :: cs) := by
  cases negative with
  | true => rfl
  | false =>
    show splitSign (c :: cs) = _
    unfold splitSign
    split
    · next heq => obtain ⟨rfl, -⟩ := List.cons.inj heq; exact absurd h (by decide)
    · next heq => obtain ⟨rfl, -⟩ := List.cons.inj heq; exact absurd h (by decide)
    · rfl

/-- What begins with a digit, after a sign or without one, is read as a number. -/
theorem readPlain?_of_isDigit (negative : Bool) {c : Char} {cs : List Char}
    (h : c.isDigit = true) :
    readPlain? ((signText negative).toList ++ c :: cs) = readNumber? negative (c :: cs) := by
  rw [readPlain?, splitSign_of_isDigit negative h]
  dsimp only
  rw [List.map_cons, toLower_of_isDigit h]
  split
  · next heq => obtain ⟨rfl, -⟩ := List.cons.inj heq; exact absurd h (by decide)
  · next heq => obtain ⟨rfl, -⟩ := List.cons.inj heq; exact absurd h (by decide)
  · next heq => obtain ⟨rfl, -⟩ := List.cons.inj heq; exact absurd h (by decide)
  · rfl

theorem spanDigits_append {ds rest : List Char} (hds : ∀ c ∈ ds, c.isDigit = true)
    (hrest : ∀ c ∈ rest.head?, c.isDigit = false) : spanDigits (ds ++ rest) = (ds, rest) := by
  have hstop : rest.takeWhile Char.isDigit = [] ∧ rest.dropWhile Char.isDigit = rest := by
    cases rest with
    | nil => exact ⟨rfl, rfl⟩
    | cons c rest =>
      have hc := hrest c rfl
      simp [hc]
  rw [spanDigits, List.takeWhile_append_of_pos hds, List.dropWhile_append_of_pos hds, hstop.1,
    hstop.2, List.append_nil]

/-- The digits before the point are told from what follows them. -/
theorem spanDigits_unsigned :
    spanDigits n.unsigned = (n.whole, if n.fraction.isEmpty then [] else '.' :: n.fraction) := by
  refine spanDigits_append (fun c hc => n.isDigit c (List.mem_append_left _ hc)) ?_
  split
  · simp
  · simp

theorem splitSign_text : splitSign n.text.toList = (n.negative, n.unsigned) := by
  rw [text, String.toList_append, String.toList_ofList, unsigned]
  cases hwhole : n.whole with
  | nil => exact absurd hwhole n.whole_ne_nil
  | cons c cs =>
    have hc : c.isDigit = true := n.isDigit c (by simp [hwhole])
    exact splitSign_of_isDigit n.negative hc

/-- A text denotes one number at most. -/
theorem Denotes.unique {s : String} {p q : ℚ} (hp : Denotes s p) (hq : Denotes s q) : p = q := by
  obtain ⟨n, rfl, rfl⟩ := hp
  obtain ⟨m, htext, rfl⟩ := hq
  have hsigned : (m.negative, m.unsigned) = (n.negative, n.unsigned) := by
    rw [← splitSign_text, ← splitSign_text, htext]
  obtain ⟨hnegative, hunsigned⟩ := Prod.mk.inj hsigned
  have hsplit := congrArg spanDigits hunsigned
  rw [spanDigits_unsigned, spanDigits_unsigned, Prod.mk.injEq] at hsplit
  obtain ⟨hwhole, hrest⟩ := hsplit
  have hfraction : m.fraction = n.fraction := by
    cases hm : m.fraction <;> cases hn : n.fraction <;> simp_all
  rw [value, value, coefficient, coefficient, hnegative, hwhole, hfraction]

/-- What may follow the digits of a numeral: nothing, or an exponent. -/
def IsTail (tail : List Char) : Prop := tail = [] ∨ ∃ ds, tail = 'e' :: ds

/-- A numeral is read digit by digit, and moved by the exponent that follows it. -/
theorem readNumber?_unsigned (negative : Bool) {tail : List Char} (htail : IsTail tail) :
    readNumber? negative (n.unsigned ++ tail) =
      (readExponent? tail).bind fun e =>
        ofParts? negative n.coefficient (e - n.fraction.length) := by
  have hwhole : ∀ c ∈ n.whole, c.isDigit = true := fun c hc =>
    n.isDigit c (List.mem_append_left _ hc)
  have hfraction : ∀ c ∈ n.fraction, c.isDigit = true := fun c hc =>
    n.isDigit c (List.mem_append_right _ hc)
  have hstop : ∀ c ∈ tail.head?, c.isDigit = false := by
    rcases htail with rfl | ⟨ds, rfl⟩
    · simp
    · simp
  have hempty : n.whole.isEmpty = false := by simpa using n.whole_ne_nil
  cases hf : n.fraction with
  | nil =>
    have hspan : spanDigits (n.unsigned ++ tail) = (n.whole, tail) := by
      rw [unsigned, hf]
      simpa using spanDigits_append hwhole hstop
    rw [readNumber?, hspan]
    rcases htail with rfl | ⟨es, rfl⟩ <;> simp [hempty, coefficient, hf]
  | cons d ds =>
    have hspan : spanDigits (n.unsigned ++ tail) = (n.whole, '.' :: (d :: ds ++ tail)) := by
      rw [unsigned, hf, List.append_assoc]
      exact spanDigits_append hwhole (by simp)
    have hrest : spanDigits (d :: (ds ++ tail)) = (d :: ds, tail) := by
      rw [hf] at hfraction
      exact spanDigits_append hfraction hstop
    rw [readNumber?, hspan]
    simp [hempty, coefficient, hf, hrest]

theorem inText_of_mem_unsigned {c : Char} (h : c ∈ n.unsigned) : InText c := by
  have hdigit {c : Char} (hc : c ∈ n.whole ++ n.fraction) : InText c := .inl (n.isDigit c hc)
  rw [unsigned, List.mem_append] at h
  rcases h with h | h
  · exact hdigit (List.mem_append_left _ h)
  · split at h
    · exact absurd h List.not_mem_nil
    · rcases List.mem_cons.1 h with rfl | h
      · exact .inr (by decide)
      · exact hdigit (List.mem_append_right _ h)

theorem inText_of_mem_signText {negative : Bool} {c : Char} (h : c ∈ (signText negative).toList) :
    InText c := by
  cases negative with
  | true => exact .inr (by simp_all [signText])
  | false => simp [signText] at h

/-- A decimal whose exponents are not out of all reach is read. -/
theorem ofParts?_of_near {negative : Bool} {c : Nat} {e : Int} (hlow : -1000000 ≤ e)
    (hhigh : e ≤ 1000000) (hc : c < tens 10000) :
    ofParts? negative c e = some (.finite negative c e) := by
  have hdigits := (digitCount_le_iff (by decide)).2 hc
  unfold ofParts? farExponent
  split <;> simp <;> omega

/-- Of a numeral with an exponent the parts are read, and they may be out of reach. -/
theorem read_append {tail : List Char} (htail : IsTail tail) (hchars : ∀ c ∈ tail, InText c) :
    Decimal.read (n.text ++ String.ofList tail) =
      ((readExponent? tail).bind fun x =>
        ofParts? n.negative n.coefficient (x - n.fraction.length)).elim
        (.error .decimalUndefined) .ok := by
  have htext : (n.text ++ String.ofList tail).toList
      = (signText n.negative).toList ++ (n.unsigned ++ tail) := by
    simp [text]
  have hall : ∀ c ∈ (n.text ++ String.ofList tail).toList, InText c := by
    intro c hc
    rw [htext, List.mem_append, List.mem_append] at hc
    rcases hc with hc | hc | hc
    · exact inText_of_mem_signText hc
    · exact inText_of_mem_unsigned n hc
    · exact hchars c hc
  obtain ⟨c, cs, hcs⟩ := List.exists_cons_of_ne_nil n.whole_ne_nil
  have hdigit : c.isDigit = true := n.isDigit c (by simp [hcs])
  have hfirst : n.unsigned ++ tail = c :: (n.unsigned ++ tail).tail := by
    simp [unsigned, hcs]
  rw [read_of_inText hall, htext, hfirst, readPlain?_of_isDigit n.negative hdigit, ← hfirst,
    readNumber?_unsigned n n.negative htail]

/-- A numeral with an exponent is read as it stands. -/
theorem read_text_append {tail : List Char} {x : Int} (htail : IsTail tail)
    (hchars : ∀ c ∈ tail, InText c) (hx : readExponent? tail = some x)
    (hlow : -1000000 ≤ x - n.fraction.length) (hhigh : x - n.fraction.length ≤ 1000000)
    (hc : n.coefficient < tens 10000) :
    Decimal.read (n.text ++ String.ofList tail)
      = .ok (.finite n.negative n.coefficient (x - n.fraction.length)) := by
  rw [read_append n htail hchars, hx, Option.bind_some, ofParts?_of_near hlow hhigh hc]
  rfl

/-- What an exponent is read as: a sign, zeros and its digits. -/
theorem readExponent?_padded (x : Int) (k : Nat) :
    readExponent? ('e' :: (if x < 0 then '-' else '+') ::
      (List.replicate k '0' ++ x.natAbs.repr.toList)) = some x := by
  obtain ⟨ds, hds⟩ : ∃ ds, ds = List.replicate k '0' ++ x.natAbs.repr.toList := ⟨_, rfl⟩
  have hsign : splitSign ((if x < 0 then '-' else '+') :: ds) = (decide (x < 0), ds) := by
    by_cases hx : x < 0
    · rw [if_pos hx, decide_eq_true hx]
      rfl
    · rw [if_neg hx, decide_eq_false hx]
      rfl
  have hempty : ds.isEmpty = false := by simp [hds]
  have hdigits : ds.all Char.isDigit = true := by
    rw [List.all_eq_true, hds]
    intro c hc
    cases List.mem_append.1 hc with
    | inl hzero => exact isDigit_of_mem_zeros hzero
    | inr hdigit => exact isDigit_of_mem_repr hdigit
  have hvalue : digitsValue ds = x.natAbs := by
    rw [hds, digitsValue_append, digitsValue_zeros, digitsValue_repr, Nat.zero_mul, Nat.zero_add]
  rw [← hds, readExponent?, if_pos (.inl rfl), hsign]
  simp only [hempty, hdigits, hvalue, Bool.not_false, Bool.and_self, if_true, withSign_natAbs]

/-- A numeral without an exponent is read as it stands. -/
theorem read_text (hfraction : n.fraction.length ≤ 1000000) (hc : n.coefficient < tens 10000) :
    Decimal.read n.text = .ok (.finite n.negative n.coefficient (-n.fraction.length)) := by
  have h := n.read_text_append (.inl rfl) (by simp) rfl (by omega) (by omega) hc
  rwa [String.ofList_nil, String.append_empty, Int.zero_sub] at h

/-- An integer as a numeral. -/
def ofInt (i : Int) : Numeral where
  negative := decide (i < 0)
  whole := i.natAbs.repr.toList
  fraction := []
  whole_ne_nil := toList_repr_ne_nil _
  isDigit := by
    intro c hc
    rw [List.append_nil] at hc
    exact isDigit_of_mem_repr hc

theorem text_ofInt (i : Int) : (ofInt i).text = i.repr := by
  rw [Int.repr_eq_if]
  dsimp only [text, unsigned, ofInt, List.isEmpty_nil]
  rw [if_pos rfl, List.append_nil, String.ofList_toList]
  by_cases hi : i < 0
  · rw [if_neg (by omega), decide_eq_true hi, show (-i).toNat = i.natAbs by omega]
    rfl
  · rw [if_pos (by omega), decide_eq_false hi, show i.toNat = i.natAbs by omega]
    exact String.empty_append

theorem coefficient_ofInt (i : Int) : (ofInt i).coefficient = i.natAbs := by
  rw [coefficient, ofInt, List.append_nil, digitsValue_repr]

end Numeral

/-- An integer is read back. -/
theorem Decimal.read_repr {i : Int} (h : i.natAbs < tens 10000) :
    Decimal.read i.repr = .ok (Decimal.ofInt i) := by
  rw [← Numeral.coefficient_ofInt] at h
  have hread := (Numeral.ofInt i).read_text (by simp [Numeral.ofInt]) h
  rwa [Numeral.text_ofInt, Numeral.coefficient_ofInt] at hread

namespace Number

variable {cs : List Char}

/-- Digits after a sign are read as a natural number, which gets the sign. -/
theorem readInteger?_signText (negative : Bool) (h : ∀ c ∈ cs, c.isDigit = true) :
    readInteger? ((signText negative).toList ++ cs) =
      (readNatural? cs).map (withSign negative) := by
  have hall : ∀ c ∈ (signText negative).toList ++ cs, Numeral.InText c := by
    intro c hc
    obtain hsign | hdigit := List.mem_append.1 hc
    · exact Numeral.inText_of_mem_signText hsign
    · exact .inl (h c hdigit)
  have hsign : signOf ((signText negative).toList ++ cs) = (negative, cs) := by
    cases negative with
    | true => rfl
    | false => exact signOf_of_digits h
  rw [readInteger?, Numeral.trimSpaces_of_inText hall, hsign]
  dsimp only
  cases readNatural? cs <;> rfl

theorem readInteger?_of_digits {n : Nat} (h : ∀ c ∈ cs, c.isDigit = true)
    (hn : readNatural? cs = some n) : readInteger? cs = some n := by
  have hread := readInteger?_signText false h
  rw [hn] at hread
  exact hread

/-- An integer of no more digits than may be read is read back. -/
theorem readInteger?_repr {i : Int} (h : i.natAbs < tens digitLimit) :
    readInteger? i.repr.toList = some i := by
  have htext : i.repr.toList = (signText (decide (i < 0))).toList ++ i.natAbs.repr.toList := by
    rw [← Numeral.text_ofInt]
    simp [Numeral.text, Numeral.unsigned, Numeral.ofInt]
  rw [htext, readInteger?_signText _ fun c hc => isDigit_of_mem_repr hc, readNatural?_repr h,
    Option.map_some, withSign_natAbs]

end Number

end Storyboard
