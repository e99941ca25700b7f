import Storyboard.Proofs.Json.Number
import Storyboard.Proofs.Number.Opposite
import Storyboard.Proofs.Yaml.Word
import Storyboard.Yaml.Scalar.Value

/-!
# Storyboard.Proofs.Yaml.Number

JSON numbers and words as plain scalars.  An integer is an integer in both languages, and
a number with a point too, unless its exponent has no sign; then they have the same value.
A number with an exponent but without a point is text here, and so are `NaN` and the
infinities.

* `Json.Literal.isInt_chars`, `isFloat_chars`, `stamp?_chars` — the form of a number;
* `Json.Literal.read?_sign` — a sign before a number makes it the opposite one;
* `Json.Literal.read_plain`, `Json.Word.read_plain` — what a number and a word are read as.
-/

namespace Storyboard

open Text Number Decimal

namespace Json.Literal

variable (n : Literal)

/-! ## the characters of a number -/

theorem lowerChar_of_inText {c : Char} (h : Numeral.InText c) : lowerChar c = c := by
  obtain h | h := h
  · have hc := toNat_of_isDigit h
    have hA : ¬ ('A' ≤ c ∧ c ≤ 'Z') := by
      rintro ⟨hle, -⟩
      have hle : 65 ≤ c.toNat := UInt32.le_iff_toNat_le.1 hle
      omega
    have hk : c ≠ kelvinSign := by
      rintro rfl
      exact absurd hc.2 (by decide)
    rw [lowerChar, if_neg hA, if_neg hk]
  · simp only [List.mem_cons, List.not_mem_nil, or_false] at h
    obtain rfl | rfl | rfl | rfl := h <;> decide

theorem map_lowerChar_of_inText {cs : List Char} (h : ∀ c ∈ cs, Numeral.InText c) :
    cs.map lowerChar = cs :=
  (List.map_congr_left fun c hc => lowerChar_of_inText (h c hc)).trans (List.map_id _)

/-- In lower case a number is written as it is read. -/
theorem map_lowerChar : n.chars.map lowerChar = n.sign ++ n.magnitude := by
  have hmagnitude : ∀ c ∈ n.magnitude, Numeral.InText c := fun _ => n.inText_of_mem_magnitude
  have hsign : n.sign.map lowerChar = n.sign :=
    map_lowerChar_of_inText fun _ => Numeral.inText_of_mem_signText
  have hunsigned : n.unsigned.map lowerChar = n.unsigned :=
    map_lowerChar_of_inText fun _ => Numeral.inText_of_mem_unsigned _
  have hexponent : (n.exponent.elim [] Exponent.chars).map lowerChar =
      n.exponent.elim [] Exponent.normal := by
    unfold magnitude at hmagnitude
    cases he : n.exponent with
    | none => rfl
    | some e =>
      have hafter : (e.sign ++ e.digits).map lowerChar = e.sign ++ e.digits :=
        map_lowerChar_of_inText fun c hc => hmagnitude c (by
          simp only [he, Option.elim_some, Exponent.normal, List.mem_append, List.mem_cons] at hc ⊢
          tauto)
      have hletter : lowerChar e.letter = 'e' := by
        obtain h | h := e.letter_eq <;> rw [h] <;> rfl
      simp only [Option.elim_some, Exponent.chars, Exponent.normal, List.map_cons, hafter, hletter]
  rw [chars, List.map_append, List.map_append, hsign, hunsigned, hexponent, magnitude]

theorem underscore_notMem_chars : '_' ∉ n.chars := by
  intro h
  have hlower := List.mem_map_of_mem (f := lowerChar) h
  rw [map_lowerChar] at hlower
  have hin : Numeral.InText '_' := by
    obtain h | h := List.mem_append.1 hlower
    · exact Numeral.inText_of_mem_signText h
    · exact n.inText_of_mem_magnitude h
  exact Numeral.ne_underscore_of_inText hin rfl

/-! ## the sign -/

/-- The decimal of a number, without its sign. -/
def decimal? : Option (Nat × Int) :=
  (readExponent? (n.exponent.elim [] Exponent.normal)).bind fun e =>
    match ofParts? false n.coefficient (e - n.fraction.length) with
    | some (.finite _ c e) => some (c, e)
    | _ => none

theorem readNumber?_magnitude (negative : Bool) :
    readNumber? negative n.magnitude =
      n.decimal?.map fun d => .finite negative d.1 d.2 := by
  have htail : Numeral.IsTail (n.exponent.elim [] Exponent.normal) := by
    cases n.exponent with
    | none => exact .inl rfl
    | some e => exact .inr ⟨_, rfl⟩
  rw [magnitude, Numeral.readNumber?_unsigned _ negative htail, decimal?, Option.map_bind]
  congr 1
  funext e
  unfold ofParts?
  dsimp only [Function.comp]
  split_ifs <;> rfl

/-- A number after a sign is read as one without it, but for the sign. -/
theorem read?_signText (negative : Bool) :
    Double.read? ((signText negative).toList ++ n.magnitude) =
      n.decimal?.map fun d => Double.ofDigits negative d.1 d.2 := by
  have hall : ∀ c ∈ (signText negative).toList ++ n.magnitude, Numeral.InText c := by
    intro c hc
    obtain h | h := List.mem_append.1 hc
    · exact Numeral.inText_of_mem_signText h
    · exact n.inText_of_mem_magnitude h
  obtain ⟨d, ds, hfirst, hdigit⟩ := n.isDigit_head (n.exponent.elim [] Exponent.normal)
  have hplain : readPlain? ((signText negative).toList ++ n.magnitude) =
      readNumber? negative n.magnitude := by
    rw [magnitude, hfirst, Numeral.readPlain?_of_isDigit negative hdigit]
  exact Numeral.read?_of_inText hall (hplain.trans (n.readNumber?_magnitude negative))

/-- A number after a minus sign is the opposite of the one without it. -/
theorem read?_sign :
    Double.read? (n.sign ++ n.magnitude) =
      (Double.read? n.magnitude).map fun x => if n.negative then x.neg else x := by
  have hplus : Double.read? n.magnitude = n.decimal?.map fun d => Double.ofDigits false d.1 d.2 :=
    n.read?_signText false
  rw [sign, read?_signText, hplus, Option.map_map]
  refine Option.map_congr fun d _ => ?_
  cases n.negative with
  | false => rfl
  | true => exact (Double.neg_ofDigits false d.1 d.2).symm

/-! ## the form of a number -/

/-- Whether a number has the form of a floating-point number here: it has a point, and the sign
of the exponent is written. -/
def isReal : Bool := !n.fraction.isEmpty && n.exponent.all fun e => !e.sign.isEmpty

/-- What follows the digits before the point. -/
def afterWhole : List Char :=
  (if n.fraction.isEmpty then [] else '.' :: n.fraction) ++ n.exponent.elim [] Exponent.chars

theorem chars_eq : n.chars = n.sign ++ (n.whole ++ n.afterWhole) := by
  rw [chars, Numeral.unsigned, afterWhole, List.append_assoc]

/-- What follows the digits before the point starts with a point or an exponent. -/
theorem head?_afterWhole : ∀ c ∈ n.afterWhole.head?, c = '.' ∨ c = 'e' ∨ c = 'E' := by
  unfold afterWhole
  split
  · cases n.exponent with
    | none => simp
    | some e => simpa [Exponent.chars] using .inr e.letter_eq
  · simp

theorem afterWhole_eq_nil : n.afterWhole = [] ↔ n.isInteger = true := by
  unfold afterWhole isInteger
  cases n.exponent <;> cases n.fraction <;> simp [Exponent.chars]

/-- The characters after a sign. -/
theorem unsigned_sign {cs : List Char} (h : ∀ c ∈ cs.head?, c.isDigit = true) :
    Yaml.Kind.unsigned (n.sign ++ cs) = cs := by
  rw [sign_eq]
  split
  · rfl
  · rw [List.nil_append]
    unfold Yaml.Kind.unsigned
    split
    · exact absurd (h '+' rfl) (by decide)
    · exact absurd (h '-' rfl) (by decide)
    · rfl

/-- A number starts with a digit after its sign. -/
theorem isDigit_head?_whole (rest : List Char) :
    ∀ c ∈ (n.whole ++ rest).head?, c.isDigit = true := by
  intro c hc
  obtain ⟨d, ds, h⟩ := List.exists_cons_of_ne_nil n.whole_ne_nil
  rw [h] at hc
  obtain rfl : d = c := by simpa using hc
  exact n.isDigit_of_mem_whole (by simp [h])

theorem unsigned_chars : Yaml.Kind.unsigned n.chars = n.whole ++ n.afterWhole := by
  rw [chars_eq, n.unsigned_sign (n.isDigit_head?_whole _)]

theorem isLoose_of_isDigit {c : Char} (h : c.isDigit = true) : Yaml.Kind.isLoose c = true := by
  simp [Yaml.Kind.isLoose, Yaml.Kind.isNumeral, h]

/-- What follows the digits before the point is digits only where it is nothing. -/
theorem all_isLoose_afterWhole : n.afterWhole.all Yaml.Kind.isLoose = n.isInteger := by
  rw [Bool.eq_iff_iff, ← afterWhole_eq_nil]
  constructor
  · intro hall
    cases h : n.afterWhole with
    | nil => rfl
    | cons c cs =>
      rw [h, List.all_cons, Bool.and_eq_true] at hall
      have := n.head?_afterWhole c (by simp [h])
      obtain rfl | rfl | rfl := this <;> exact absurd hall.1 (by decide)
  · intro h
    rw [h]
    rfl

/-- A zero is an integer here, if nothing follows it: the letter of an exponent starts no
digits in another base. -/
theorem isInt_of_zero (h : n.whole = ['0']) : Yaml.Kind.isInt n.chars = n.isInteger := by
  unfold Yaml.Kind.isInt
  rw [unsigned_chars, h]
  cases hafter : n.afterWhole with
  | nil => rw [n.afterWhole_eq_nil.1 hafter]; rfl
  | cons c cs =>
    have hinteger : n.isInteger = false := by
      rw [Bool.eq_false_iff, ne_eq, ← afterWhole_eq_nil, hafter]
      exact List.cons_ne_nil _ _
    rw [hinteger]
    obtain rfl | rfl | rfl := n.head?_afterWhole c (by simp [hafter]) <;> rfl

/-- Digits that start with no zero are an integer here, if nothing follows them. -/
theorem isInt_of_ne_zero {d : Char} {ds : List Char} (h : n.whole = d :: ds) (hd : d ≠ '0') :
    Yaml.Kind.isInt n.chars = n.isInteger := by
  have hcolon : ':' ∉ ds ++ n.afterWhole := by
    intro hmem
    exact n.notMem_chars (c := ':') (by decide) (by decide) (by
      rw [chars_eq, h]
      exact List.mem_append_right _ (List.mem_cons_of_mem _ hmem))
  have hdigit : Yaml.Kind.isNumeral d = true := n.isDigit_of_mem_whole (by simp [h])
  have hds : ds.all Yaml.Kind.isLoose = true := List.all_eq_true.2 fun c hc =>
    isLoose_of_isDigit (n.isDigit_of_mem_whole (by rw [h]; exact List.mem_cons_of_mem _ hc))
  unfold Yaml.Kind.isInt
  rw [unsigned_chars, h]
  split
  · next heq => exact absurd (List.cons.inj heq).1 hd
  · next heq => exact absurd (List.cons.inj heq).1 hd
  · next heq => exact absurd (List.cons.inj heq).1 hd
  · next heq => exact absurd (List.cons.inj heq).1 hd
  · next heq =>
    obtain ⟨rfl, rfl⟩ := List.cons.inj heq
    have hsplit : (ds.append n.afterWhole).splitOn ':' = [ds ++ n.afterWhole] :=
      List.splitOn_eq_singleton hcolon
    rw [hsplit]
    simp [hdigit, hds, all_isLoose_afterWhole]
  · next heq => simp at heq

/-- A number in integer form is one here. -/
theorem isInt_chars : Yaml.Kind.isInt n.chars = n.isInteger := by
  obtain ⟨d, ds, h⟩ := List.exists_cons_of_ne_nil n.whole_ne_nil
  by_cases hzero : d = '0'
  · exact n.isInt_of_zero (n.leading (by simp [h, hzero]))
  · exact n.isInt_of_ne_zero h hzero

theorem point_notMem_exponent : '.' ∉ n.exponent.elim [] Exponent.chars := by
  cases n.exponent with
  | none => simp
  | some e =>
    simp only [Option.elim_some, Exponent.chars, List.mem_cons, List.mem_append, not_or]
    refine ⟨?_, ?_, fun h => absurd (e.isDigit _ h) (by decide)⟩
    · obtain h | h := e.letter_eq <;> rw [h] <;> decide
    · obtain h | h | h := e.sign_eq <;> rw [h] <;> decide

/-- An exponent follows the digits, if its sign is written. -/
theorem isExponent_fraction :
    Yaml.Kind.isExponent ((n.fraction ++ n.exponent.elim [] Exponent.chars).dropWhile
      Yaml.Kind.isLoose) = n.exponent.all fun e => !e.sign.isEmpty := by
  have hloose : ∀ c ∈ n.fraction, Yaml.Kind.isLoose c = true := fun _ hc =>
    isLoose_of_isDigit (n.isDigit_of_mem_fraction hc)
  rw [List.dropWhile_append_of_pos hloose]
  cases n.exponent with
  | none => rfl
  | some e =>
    have hletter : Yaml.Kind.isLoose e.letter = false := by
      obtain h | h := e.letter_eq <;> rw [h] <;> rfl
    have hfilled : Yaml.Kind.isFilled Yaml.Kind.isNumeral e.digits = true := by
      simp only [Yaml.Kind.isFilled, Bool.and_eq_true, List.all_eq_true]
      exact ⟨by simpa using e.digits_ne_nil, e.isDigit⟩
    rw [Option.elim_some, Option.all_some, Exponent.chars,
      List.dropWhile_cons_of_neg (by simp [hletter])]
    have hexponent : e.letter = 'e' ∨ e.letter = 'E' := e.letter_eq
    obtain h | h | h := e.sign_eq
    · obtain ⟨c, cs, hcs⟩ := List.exists_cons_of_ne_nil e.digits_ne_nil
      have hsign : c ≠ '+' ∧ c ≠ '-' := by
        have := e.isDigit c (by simp [hcs])
        constructor <;> rintro rfl <;> exact absurd this (by decide)
      rw [h, hcs]
      simp [Yaml.Kind.isExponent, hsign]
    · rw [h]
      simp [Yaml.Kind.isExponent, hexponent, hfilled]
    · rw [h]
      simp [Yaml.Kind.isExponent, hexponent, hfilled]

theorem point_notMem_whole : '.' ∉ n.whole :=
  fun h => absurd (n.isDigit_of_mem_whole h) (by decide)

/-- A number without a point is one part. -/
theorem splitOn_point_of_isEmpty (h : n.fraction.isEmpty = true) :
    (n.whole ++ n.afterWhole).splitOn '.' = [n.whole ++ n.afterWhole] := by
  refine List.splitOn_eq_singleton ?_
  simp [afterWhole, h, n.point_notMem_whole, n.point_notMem_exponent]

/-- The point of a number is what splits it. -/
theorem splitOn_point (h : n.fraction.isEmpty ≠ true) :
    (n.whole ++ n.afterWhole).splitOn '.' =
      [n.whole, n.fraction ++ n.exponent.elim [] Exponent.chars] := by
  have hafter : '.' ∉ n.fraction ++ n.exponent.elim [] Exponent.chars := by
    simp only [List.mem_append, not_or]
    exact ⟨fun h => absurd (n.isDigit_of_mem_fraction h) (by decide), n.point_notMem_exponent⟩
  rw [afterWhole, if_neg h, List.cons_append,
    List.splitOn_append_cons_self_of_not_mem n.point_notMem_whole, List.splitOn_eq_singleton hafter]

/-- A number in the form of a floating-point number is one here. -/
theorem isFloat_chars : Yaml.Kind.isFloat n.chars = n.isReal := by
  have hcolon : ':' ∉ n.whole := fun h => absurd (n.isDigit_of_mem_whole h) (by decide)
  have hloose : n.whole.all Yaml.Kind.isLoose = true := List.all_eq_true.2 fun _ hc =>
    isLoose_of_isDigit (n.isDigit_of_mem_whole hc)
  have hstarts : Yaml.Kind.isFloat.startsIn Yaml.Kind.isNumeral n.whole = true := by
    obtain ⟨d, ds, h⟩ := List.exists_cons_of_ne_nil n.whole_ne_nil
    simp [Yaml.Kind.isFloat.startsIn, h, Yaml.Kind.isNumeral, n.isDigit_of_mem_whole (c := d)]
  unfold Yaml.Kind.isFloat
  rw [unsigned_chars]
  by_cases hfraction : n.fraction.isEmpty = true
  · simp only [n.splitOn_point_of_isEmpty hfraction, isReal, hfraction, Bool.not_true,
      Bool.false_and]
    split
    · next heq => simp at heq
    · next heq => simp at heq
    · rfl
  · simp only [n.splitOn_point hfraction]
    split
    · next heq => exact absurd (List.cons.inj heq).1 n.whole_ne_nil
    · next heq =>
      obtain ⟨rfl, hplaces⟩ := List.cons.inj heq
      obtain ⟨rfl, -⟩ := List.cons.inj hplaces
      simp only [List.splitOn_eq_singleton hcolon, hstarts, hloose, isExponent_fraction, isReal]
      simp [hfraction]
    · next hnot => exact absurd rfl (hnot _ _)

/-- No minus sign follows the first digits of a number. -/
theorem ne_digits_minus {ds rest : List Char} (hne : ds ≠ [])
    (hds : ∀ c ∈ ds, c.isDigit = true) : n.chars ≠ ds ++ '-' :: rest := by
  intro h
  obtain ⟨d, ds', rfl⟩ := List.exists_cons_of_ne_nil hne
  have hsign : n.sign = [] := by
    rw [sign_eq]
    split
    · next hnegative =>
      rw [chars_eq, sign_eq, if_pos hnegative] at h
      obtain rfl : '-' = d := (List.cons.inj h).1
      exact absurd (hds _ List.mem_cons_self) (by decide)
    · rfl
  rw [chars_eq, hsign, List.nil_append] at h
  have hwhole := Numeral.spanDigits_append (fun _ => n.isDigit_of_mem_whole)
    fun c hc => show c.isDigit = false by obtain rfl | rfl | rfl := n.head?_afterWhole c hc <;> rfl
  have hminus : spanDigits (d :: ds' ++ '-' :: rest) = (d :: ds', '-' :: rest) :=
    Numeral.spanDigits_append hds (by simp)
  rw [← h, hwhole] at hminus
  have hafter := n.head?_afterWhole '-' (by rw [(Prod.mk.inj hminus).2]; rfl)
  exact absurd hafter (by decide)

/-- No number is a stamp. -/
theorem stamp?_chars : Yaml.Kind.stamp? n.chars = none := by
  have hafter (year : Nat) (rest : List Char)
      (h : Yaml.Kind.number? 4 4 n.chars = some (year, rest)) :
      Yaml.Kind.after? '-' rest = none := by
    have hprefix : (n.chars.take 4).takeWhile Yaml.Kind.isNumeral <+: n.chars :=
      (List.takeWhile_prefix _).trans (List.take_prefix 4 _)
    have hdigits : ∀ c ∈ (n.chars.take 4).takeWhile Yaml.Kind.isNumeral, c.isDigit = true :=
      fun c hc => List.mem_takeWhile_imp hc
    unfold Yaml.Kind.number? at h
    generalize (n.chars.take 4).takeWhile Yaml.Kind.isNumeral = ds at h hprefix hdigits
    obtain ⟨rest', hchars⟩ := hprefix
    dsimp only at h
    rw [← hchars, List.drop_left] at h
    split at h
    · next hlength =>
      obtain ⟨-, rfl⟩ := Prod.mk.inj (Option.some.inj h)
      cases rest' with
      | nil => rfl
      | cons c more =>
        have hminus : c ≠ '-' := by
          rintro rfl
          exact n.ne_digits_minus (List.ne_nil_of_length_pos (by omega)) hdigits hchars.symm
        simp [Yaml.Kind.after?, hminus]
    · simp at h
  unfold Yaml.Kind.stamp?
  cases h : Yaml.Kind.number? 4 4 n.chars with
  | none => rfl
  | some d => simp [hafter d.1 d.2 h]

/-! ## kinds -/

/-- Whether a text starts as a number does. -/
def startsNumber (cs : List Char) : Bool := cs.head?.any fun c => c.isDigit || c == '-'

theorem startsNumber_chars : startsNumber n.chars = true := by
  obtain ⟨d, cs, hdigit, h⟩ := n.exists_head []
  rw [List.append_nil] at h
  obtain h | h := h <;> simp [startsNumber, h, hdigit]

/-- No number is one of some words. -/
theorem notMem_words {words : List String}
    (hwords : words.all (fun w => !startsNumber w.toList) = true) :
    String.ofList n.chars ∉ words := by
  intro h
  have := List.all_eq_true.1 hwords _ h
  rw [String.toList_ofList, n.startsNumber_chars] at this
  exact absurd this (by decide)

/-- What a number is as a plain scalar. -/
theorem ofText_chars :
    Yaml.Kind.ofText n.chars =
      if n.isReal then .float else if n.isInteger then .int else .text := by
  have hline : Yaml.Kind.ofText n.chars = Yaml.Kind.ofLine n.chars := by
    have hend : '\n' ∉ n.chars.reverse := by
      rw [List.mem_reverse]
      exact n.notMem_chars (by decide) (by decide)
    unfold Yaml.Kind.ofText
    split
    · next heq => simp [heq] at hend
    · next heq => simp [heq] at hend
    · rfl
  have hmerge : String.ofList n.chars ∉ ["<<"] := n.notMem_words (by decide)
  have hwhole : String.ofList n.chars ∉ ["="] := n.notMem_words (by decide)
  rw [List.mem_singleton] at hmerge hwhole
  rw [hline]
  unfold Yaml.Kind.ofLine
  dsimp only
  rw [if_neg (n.notMem_words (by decide)), isFloat_chars, isInt_chars, if_neg hmerge,
    if_neg (n.notMem_words (by decide)), Yaml.Kind.isStamp, stamp?_chars, if_neg hwhole]
  rfl

/-! ## values -/

theorem filter_chars : n.chars.filter (· != '_') = n.chars := by
  rw [List.filter_eq_self]
  rintro c hc
  have hne : c ≠ '_' := by
    rintro rfl
    exact n.underscore_notMem_chars hc
  simpa using hne

theorem isNegated_eq {cs : List Char} (h : ∀ c ∈ cs.head?, c.isDigit = true) :
    Yaml.Kind.isNegated (n.sign ++ cs) = n.negative := by
  rw [sign_eq]
  cases n.negative with
  | true => rfl
  | false =>
    cases cs with
    | nil => rfl
    | cons c cs =>
      have hminus : c ≠ '-' := by
        rintro rfl
        exact absurd (h _ rfl) (by decide)
      simp [Yaml.Kind.isNegated, hminus]

/-- An integer without its sign is read as its digits are. -/
theorem readUnsigned?_whole : Yaml.Kind.readUnsigned? n.whole = readInteger? n.whole := by
  have hcolon : ':' ∉ n.whole := fun h => absurd (n.isDigit_of_mem_whole h) (by decide)
  have hzero (ds : List Char) (h : n.whole = '0' :: ds) : ds = [] :=
    (List.cons.inj (h.symm.trans (n.leading (by rw [h]; rfl)))).2
  unfold Yaml.Kind.readUnsigned?
  split
  · next h => rw [h]; decide
  · next h => exact absurd (hzero _ h) (List.cons_ne_nil _ _)
  · next h => exact absurd (hzero _ h) (List.cons_ne_nil _ _)
  · next hone _ _ h => exact (hone (hzero _ h)).elim
  · rw [if_neg (by simpa using hcolon)]

/-- An integer has the same value here. -/
theorem readInt_chars {v : Value} (hinteger : n.isInteger = true) (hv : n.value? = some v) :
    Yaml.Kind.readInt n.chars = .ok v := by
  have hnil := n.afterWhole_eq_nil.2 hinteger
  have hunsigned : Yaml.Kind.unsigned n.chars = n.whole := by
    rw [unsigned_chars, hnil, List.append_nil]
  have hmagnitude : n.magnitude = n.whole := by
    unfold isInteger at hinteger
    simp only [Bool.and_eq_true, Option.isNone_iff_eq_none] at hinteger
    simp [magnitude, Numeral.unsigned, hinteger]
  have hnegated : Yaml.Kind.isNegated n.chars = n.negative := by
    rw [chars_eq, n.isNegated_eq (n.isDigit_head?_whole _)]
  rw [value?, if_pos hinteger, hmagnitude,
    n.readInteger?_sign fun _ => n.isDigit_of_mem_whole, Option.map_map] at hv
  obtain ⟨i, hi, rfl⟩ := Option.map_eq_some_iff.1 hv
  unfold Yaml.Kind.readInt
  dsimp only
  rw [filter_chars, hunsigned, if_neg (by simpa using n.whole_ne_nil), readUnsigned?_whole, hi,
    hnegated]
  rfl

/-- A floating-point number has the same value here. -/
theorem readFloat_chars {v : Value} (hreal : n.isReal = true) (hv : n.value? = some v) :
    Yaml.Kind.readFloat n.chars = .ok v := by
  have hinteger : n.isInteger = false := by
    unfold isReal at hreal
    unfold isInteger
    simp only [Bool.and_eq_true, Bool.not_eq_true'] at hreal
    simp [hreal.1]
  have hhead : ∀ c ∈ n.magnitude.head?, c.isDigit = true := by
    rw [magnitude, Numeral.unsigned, List.append_assoc]
    exact n.isDigit_head?_whole _
  have hcolon : ':' ∉ n.magnitude := by
    intro h
    obtain h | h := n.inText_of_mem_magnitude h <;> exact absurd h (by decide)
  rw [value?, hinteger, if_neg (by decide), read?_sign, Option.map_map] at hv
  obtain ⟨x, hx, rfl⟩ := Option.map_eq_some_iff.1 hv
  have hread : Yaml.Kind.readUnsignedFloat n.magnitude = .ok x := by
    have hword (w : List Char) (hw : w.head? = some '.') : n.magnitude ≠ w := by
      rintro rfl
      exact absurd (hhead '.' hw) (by decide)
    rw [Yaml.Kind.readUnsignedFloat, if_neg (hword _ rfl), if_neg (hword _ rfl),
      List.splitOn_eq_singleton hcolon]
    simp [hx]
  unfold Yaml.Kind.readFloat
  dsimp only
  have hne : n.sign ++ n.magnitude ≠ [] := by
    simp [magnitude, Numeral.unsigned, n.whole_ne_nil]
  rw [filter_chars, map_lowerChar, n.unsigned_sign hhead, n.isNegated_eq hhead, hread,
    if_neg (by simpa using hne)]
  rfl

/-- The value of a number here: one with an exponent but without a point, or with an exponent
without a sign, is text. -/
def yamlValue (v : Value) : Value :=
  if n.isReal || n.isInteger then v else .text (String.ofList n.chars)

/-- A number is read by its form. -/
theorem read_plain {v : Value} (hv : n.value? = some v) :
    (Yaml.Kind.ofText n.chars).read n.chars = .ok (n.yamlValue v) := by
  rw [ofText_chars, yamlValue]
  split
  · next hreal => rw [hreal]; exact n.readFloat_chars hreal hv
  · next hreal =>
    split
    · next hinteger => rw [hinteger, Bool.or_true]; exact n.readInt_chars hinteger hv
    · next hinteger => simp [Yaml.Kind.read, hreal, hinteger]

/-- A number is one word. -/
theorem isWord_chars : Yaml.isWord n.chars = true := by
  obtain ⟨d, cs, hdigit, h⟩ := n.exists_head []
  rw [List.append_nil] at h
  have halpha : d.isAlphanum = true := by simp [Char.isAlphanum, hdigit]
  have hstarts : Yaml.startsWord n.chars = true := by
    obtain h | h := h
    · rw [h]
      exact Yaml.startsWord_of_isAlphanum halpha cs
    · rw [h]
      exact halpha
  rw [Yaml.isWord, hstarts, Bool.true_and, List.all_eq_true]
  intro c hc
  obtain hc | hc := n.mem_chars hc
  · simp [Yaml.inWord, Char.isAlphanum, hc]
  · simp only [List.mem_cons, List.not_mem_nil, or_false] at hc
    obtain rfl | rfl | rfl | rfl | rfl := hc <;> decide

end Json.Literal

namespace Json.Word

/-- The value of a word here: those that strict readers refuse are text. -/
def yamlValue : Word → Value
  | .null => .null
  | .true => .bool Bool.true
  | .false => .bool Bool.false
  | w => .text w.name

/-- What a word is as a plain scalar. -/
theorem ofText_chars (w : Word) :
    Yaml.Kind.ofText w.chars =
      match w with
      | .null => .null
      | .true | .false => .bool
      | _ => .text := by
  cases w <;> decide

theorem read_plain (w : Word) : (Yaml.Kind.ofText w.chars).read w.chars = .ok w.yamlValue := by
  rw [ofText_chars]
  cases w <;> rfl

theorem isWord_chars (w : Word) : Yaml.isWord w.chars = Bool.true := by
  cases w <;> decide

end Json.Word

end Storyboard
