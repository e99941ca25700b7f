import Mathlib.Data.List.Induction
import Mathlib.Data.List.Pairwise
import Mathlib.Data.Nat.Digits.Defs
import Storyboard.Number.Ratio
import Storyboard.Proofs.Result
import Storyboard.Text.Surrogate

/-!
# Storyboard.Proofs.Number.Digits

Integers in decimal digits.  Their texts hold nothing but digits and a minus sign, differ
for different integers, and are read back as what they denote, up to the number of digits
that may be read:

* `repr_injective` — an integer is known by its text;
* `decimalValue?_eq_some_iff` — what a digit counts is told by the zero of its script;
* `readNatural?_repr` — a natural number that may be read is read back;
* `exists_ratioText`, `ratioText_of_long` — which quotients may be written.
-/

namespace Storyboard.Number

open Text

/-! ## the characters of an integer -/

/-- Whether a character can stand in the text of an integer. -/
def inInteger (c : Char) : Bool := c.isDigit || c == '-'

theorem isDigit_of_mem_repr {n : Nat} {c : Char} (h : c ∈ n.repr.toList) :
    c.isDigit = true := by
  rw [Nat.toList_repr] at h
  exact Nat.isDigit_of_mem_toDigits (by decide) (by decide) h

theorem toList_repr_ne_nil (n : Nat) : n.repr.toList ≠ [] := by
  rw [Nat.toList_repr]
  exact Nat.toDigits_ne_nil

theorem inInteger_of_mem_repr {i : Int} {c : Char} (h : c ∈ i.repr.toList) :
    inInteger c = true := by
  rw [Int.repr_eq_if] at h
  split at h
  · simp [inInteger, isDigit_of_mem_repr h]
  · rw [String.toList_append, List.mem_append] at h
    cases h with
    | inl h =>
        obtain rfl : c = '-' := by simpa using h
        rfl
    | inr h => simp [inInteger, isDigit_of_mem_repr h]

theorem hasHalf_natRepr (n : Nat) : hasHalf n.repr = false := by
  refine hasHalf_of_forall_lt fun c hc => ?_
  have hdigit := (Char.isDigit_iff_toNat.1 (isDigit_of_mem_repr hc)).2
  exact hdigit.trans_lt (by decide)

/-- Nothing is left of the text of an integer once its digits and its sign are gone. -/
theorem filter_repr (i : Int) : i.repr.toList.filter (fun c => !inInteger c) = [] := by
  rw [List.filter_eq_nil_iff]
  intro c hc
  simp [inInteger_of_mem_repr hc]

theorem notMem_repr (i : Int) {c : Char} (h : inInteger c = false) : c ∉ i.repr.toList :=
  fun hc => absurd (inInteger_of_mem_repr hc) (by simp [h])

/-- Two texts are the same up to the first time that a character stands in them, and after it. -/
theorem append_inj_of_notMem {c : Char} {as bs cs ds : List Char} (has : c ∉ as) (hbs : c ∉ bs)
    (h : as ++ c :: cs = bs ++ c :: ds) : as = bs ∧ cs = ds := by
  have htake {xs ys : List Char} (hxs : c ∉ xs) : (xs ++ c :: ys).takeWhile (· ≠ c) = xs := by
    have hall : ∀ x ∈ xs, decide (x ≠ c) = true := fun x hx =>
      decide_eq_true fun heq => hxs (heq ▸ hx)
    rw [List.takeWhile_append_of_pos hall, List.takeWhile_cons_of_neg (by simp), List.append_nil]
  obtain rfl : as = bs := by rw [← @htake as cs has, h, htake hbs]
  exact ⟨rfl, (List.cons.inj (List.append_cancel_left h)).2⟩

/-! ## an integer is known by its text -/

theorem natRepr_injective {m n : Nat} (h : m.repr = n.repr) : m = n := by
  have hd : Nat.toDigits 10 m = Nat.toDigits 10 n := by
    rw [← Nat.toList_repr, ← Nat.toList_repr, h]
  have hv := congrArg (fun ds => Nat.ofDigitChars 10 ds 0) hd
  simpa using hv

theorem minus_notMem_natRepr (n : Nat) : '-' ∉ n.repr.toList := by
  intro h
  exact absurd (isDigit_of_mem_repr h) (by decide)

theorem repr_injective {i j : Int} (h : i.repr = j.repr) : i = j := by
  -- a sign on one side only would have to be a digit of the other
  rw [Int.repr_eq_if, Int.repr_eq_if] at h
  split at h <;> split at h
  · have := natRepr_injective h
    omega
  · exact absurd (by rw [h]; simp) (minus_notMem_natRepr i.toNat)
  · exact absurd (by rw [← h]; simp) (minus_notMem_natRepr j.toNat)
  · have := natRepr_injective ((String.append_right_inj "-").1 h)
    omega

/-! ## reading -/

theorem toNat_of_isDigit {c : Char} (h : c.isDigit = true) : 48 ≤ c.toNat ∧ c.toNat ≤ 57 := by
  simpa [Char.isDigit, Char.le_def, UInt32.le_iff_toNat_le] using h

/-- A character is the decimal digit of a value if it stands so many places behind the zero of
some script. -/
def IsDecimalDigit (c : Char) (d : Nat) : Prop := d < 10 ∧ ∃ z ∈ decimalZeros, c.toNat = z + d

/-- The runs of ten are in order and do not overlap. -/
theorem pairwise_decimalZeros : decimalZeros.Pairwise fun y z => y + 9 < z := by decide +kernel

theorem decimalZeros_unique {y z : Nat} (hy : y ∈ decimalZeros) (hz : z ∈ decimalZeros)
    (hyz : y ≤ z + 9) (hzy : z ≤ y + 9) : y = z := by
  have hapart : decimalZeros.Pairwise fun y z => y + 9 < z ∨ z + 9 < y :=
    pairwise_decimalZeros.imp Or.inl
  have : Std.Symm fun y z : Nat => y + 9 < z ∨ z + 9 < y := ⟨fun _ _ => Or.symm⟩
  by_contra hne
  have := hapart.forall hy hz hne
  omega

theorem decimalValue?_eq_some_iff {c : Char} {d : Nat} :
    decimalValue? c = some d ↔ IsDecimalDigit c d := by
  rw [decimalValue?, Option.map_eq_some_iff]
  constructor
  · rintro ⟨z, hfind, rfl⟩
    have hin := List.find?_some hfind
    simp only [Bool.and_eq_true, decide_eq_true_eq] at hin
    exact ⟨by omega, z, List.mem_of_find?_eq_some hfind, by omega⟩
  · rintro ⟨hd, z, hz, hc⟩
    cases hfind : decimalZeros.find? fun z => decide (z ≤ c.toNat) && decide (c.toNat ≤ z + 9) with
    | none =>
      have := List.find?_eq_none.1 hfind z hz
      simp only [Bool.and_eq_true, decide_eq_true_eq] at this
      omega
    | some y =>
      have hin := List.find?_some hfind
      simp only [Bool.and_eq_true, decide_eq_true_eq] at hin
      obtain rfl : y = z :=
        decimalZeros_unique (List.mem_of_find?_eq_some hfind) hz (by omega) (by omega)
      exact ⟨y, rfl, by omega⟩

/-- An ASCII digit counts what it is. -/
theorem decimalValue?_of_isDigit {c : Char} (h : c.isDigit = true) :
    decimalValue? c = some (c.toNat - 48) := by
  have hc := toNat_of_isDigit h
  exact decimalValue?_eq_some_iff.2 ⟨by omega, 48, by decide, by omega⟩

theorem mapM_decimalValue? {cs : List Char} (h : ∀ c ∈ cs, c.isDigit = true) :
    cs.mapM decimalValue? = some (cs.map (·.toNat - 48)) :=
  mapM_of_forall fun c hc => decimalValue?_of_isDigit (h c hc)

/-- The digits of a number are read from the front, and counted from the back. -/
theorem ofDigits_eq (base : Nat) (ds : List Nat) :
    ofDigits base ds = Nat.ofDigits base ds.reverse := by
  induction ds using List.reverseRecOn with
  | nil => rfl
  | append_singleton ds d ih =>
    rw [ofDigits_append_singleton, ih, List.reverse_concat, Nat.ofDigits_cons, Nat.mul_comm,
      Nat.add_comm]

theorem ofDigits_map_sub (cs : List Char) :
    ofDigits 10 (cs.map (·.toNat - 48)) = Nat.ofDigitChars 10 cs 0 := by
  simp only [ofDigits, Nat.ofDigitChars, List.foldl_map, Nat.mul_comm]
  rfl

/-- Without underscores all digits are in one group. -/
theorem digitRun?_of_notMem {cs : List Char} (h : '_' ∉ cs) : digitRun? cs = digitGroup? cs := by
  rw [digitRun?, List.splitOn_eq_singleton h]
  cases hcs : digitGroup? cs <;> simp [hcs]

/-- A run of ASCII digits is read digit by digit. -/
theorem readNatural?_of_digits {cs : List Char} (hne : cs ≠ [])
    (h : ∀ c ∈ cs, c.isDigit = true) (hlimit : cs.length ≤ digitLimit) :
    readNatural? cs = some (Nat.ofDigitChars 10 cs 0) := by
  have hunderscore : '_' ∉ cs := by
    intro hmem
    exact absurd (h _ hmem) (by decide)
  have hrun : digitRun? cs = some (cs.map (·.toNat - 48)) := by
    rw [digitRun?_of_notMem hunderscore]
    simp [digitGroup?, hne, mapM_decimalValue? h]
  rw [readNatural?, hrun]
  simp [Nat.not_lt.2 hlimit, ofDigits_map_sub]

theorem tens_le_tens {j k : Nat} (h : j ≤ k) : tens j ≤ tens k :=
  Nat.pow_le_pow_right (by decide) h

theorem length_repr_le_iff {n k : Nat} (hk : 0 < k) : n.repr.toList.length ≤ k ↔ n < tens k := by
  rw [String.length_toList]
  exact Nat.length_repr_le_iff hk

theorem length_repr_le {n k : Nat} (hk : 0 < k) (h : n < tens k) : n.repr.toList.length ≤ k :=
  (length_repr_le_iff hk).2 h

/-- A natural number of no more digits than may be read is read back. -/
theorem readNatural?_repr {n : Nat} (h : n < tens digitLimit) :
    readNatural? n.repr.toList = some n := by
  have hlength : n.repr.toList.length ≤ digitLimit := length_repr_le (by decide) h
  rw [readNatural?_of_digits (toList_repr_ne_nil n) (fun c hc => isDigit_of_mem_repr hc) hlength,
    Nat.toList_repr, Nat.ofDigitChars_ten_toDigits]

theorem signOf_of_digits (h : ∀ c ∈ cs, c.isDigit = true) : signOf cs = (false, cs) := by
  unfold signOf
  split
  · exact absurd (h _ List.mem_cons_self) (by decide)
  · exact absurd (h _ List.mem_cons_self) (by decide)
  · rfl

/-! ## quotients -/

theorem integerText_eq_ok {i : Int} {s : String} :
    integerText i = .ok s ↔ i.natAbs < tens digitLimit ∧ s = i.repr := by
  unfold integerText
  split
  · next h => simp [h, eq_comm]
  · next h => simp [h]

theorem one_lt_tens {k : Nat} (hk : k ≠ 0) : 1 < tens k := Nat.one_lt_pow hk (by decide)

/-- A quotient is written if its parts may be. -/
theorem exists_ratioText {q : Rat} (hnum : q.num.natAbs < tens digitLimit)
    (hden : q.den < tens digitLimit) : ∃ s, ratioText q = .ok s := by
  have hpart : integerText q.den = .ok (q.den : Int).repr := integerText_of_short hden
  rw [ratioText, exists_bind_eq_ok (integerText_of_short hnum)]
  split
  · exact ⟨_, rfl⟩
  · rw [exists_bind_eq_ok hpart]
    exact ⟨_, rfl⟩

/-- A quotient with a part that is too long is an unsuited value. -/
theorem ratioText_of_long {q : Rat}
    (h : ¬ (q.num.natAbs < tens digitLimit ∧ q.den < tens digitLimit)) :
    ratioText q = .error .valueUnsuited := by
  have hden : (q.den : Int).natAbs = q.den := rfl
  rw [ratioText, integerText]
  split
  · next hnum =>
    have hlong : ¬ q.den < tens digitLimit := fun hshort => h ⟨hnum, hshort⟩
    have hone : q.den ≠ 1 := fun hone => hlong (hone ▸ one_lt_tens (by decide))
    show (if q.den = 1 then _ else _) = _
    rw [if_neg hone, integerText, hden, if_neg hlong]
    rfl
  · rfl

end Storyboard.Number
