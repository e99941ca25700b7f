import Storyboard.Proofs.Json.Spelling
import Storyboard.Proofs.Result

/-!
# Storyboard.Proofs.Json.Lexeme

The reader and the parts of a spelling that hold no other values: blanks, strings, numbers
and words.  For each part there are two results: as it is spelt it is read, and what is
read is spelt in some way.

* `readString_chars`, `exists_pieces` — strings, up to the closing quote;
* `readNumber_chars`, `exists_literal` — numbers, up to what ends them;
* `readWord?_chars`, `exists_word` — words.
-/

namespace Storyboard.Json

open Text Number

/-! ## blanks -/

/-- A character that is no blank. -/
def isInk (c : Char) : Bool := !(c == ' ' || c == '\t' || c == '\n' || c == '\r')

/-- Blanks are skipped up to the next character that is none. -/
theorem skipBlanks_gap (g : Gap) {rest : List Char} (h : ∀ c ∈ rest.head?, isInk c = true) :
    skipBlanks (g.chars ++ rest) = rest := by
  induction g with
  | nil =>
    cases rest with
    | nil => rfl
    | cons c cs =>
      simp only [List.head?_cons, Option.mem_some_iff, forall_eq', isInk] at h
      simp_all [Gap.chars, skipBlanks]
  | cons b g ih => cases b <;> simpa [Gap.chars, skipBlanks, Blank.char] using ih

/-- What blanks are skipped is a gap. -/
theorem exists_gap (cs : List Char) :
    ∃ g : Gap, cs = g.chars ++ skipBlanks cs := by
  induction cs with
  | nil => exact ⟨[], rfl⟩
  | cons c cs ih =>
    obtain ⟨g, hg⟩ := ih
    by_cases h : isInk c = true
    · exact ⟨[], (skipBlanks_gap [] (by simpa using h)).symm⟩
    · have hc : ∃ b : Blank, b.char = c := by
        simp only [isInk, Bool.not_eq_true, Bool.not_eq_false', Bool.or_eq_true, beq_iff_eq] at h
        obtain ((rfl | rfl) | rfl) | rfl := h
        · exact ⟨.space, rfl⟩
        · exact ⟨.tab, rfl⟩
        · exact ⟨.lineFeed, rfl⟩
        · exact ⟨.carriageReturn, rfl⟩
      obtain ⟨b, rfl⟩ := hc
      refine ⟨b :: g, ?_⟩
      have : skipBlanks (b.char :: cs) = skipBlanks cs := by cases b <;> rfl
      rw [this]
      exact congrArg (b.char :: ·) hg

/-! ## strings -/

theorem fourHex?_append {a b c d : Char} {n : Nat} (h : fourHex? [a, b, c, d] = some (n, []))
    (rest : List Char) : fourHex? (a :: b :: c :: d :: rest) = some (n, rest) := by
  simp only [fourHex?] at h ⊢
  split at h <;> simp_all

theorem exists_of_fourHex? {cs rest : List Char} {n : Nat} (h : fourHex? cs = some (n, rest)) :
    ∃ a b c d, cs = a :: b :: c :: d :: rest ∧ fourHex? [a, b, c, d] = some (n, []) := by
  unfold fourHex? at h
  split at h
  · split at h
    · next ha hb hc hd =>
      simp only [Option.some.injEq, Prod.mk.injEq] at h
      obtain ⟨rfl, rfl⟩ := h
      exact ⟨_, _, _, _, rfl, by simp [fourHex?, ha, hb, hc, hd]⟩
    · simp at h
  · simp at h

theorem ne_u_of_simpleEscape? {letter meant : Char} (h : simpleEscape? letter = some meant) :
    letter ≠ 'u' := by
  rintro rfl
  simp [simpleEscape?] at h

namespace Pieces

@[simp] theorem chars_nil : chars [] = [] := rfl

@[simp] theorem chars_cons (p : Piece) (ps : Pieces) : chars (p :: ps) = p.chars ++ chars ps := rfl

theorem codeUnit_of_not {n : Nat} {cs : List Char}
    (h : isHigh n = true → ∀ rest, cs ≠ '\\' :: 'u' :: rest) :
    codeUnit n cs = (ofCode n, cs) := by
  unfold codeUnit
  split
  · next hn =>
    split
    · next rest => exact absurd rfl (h hn rest)
    · rfl
  · rfl

/-- A code unit that is not joined with the next one. -/
theorem codeUnit_code {n m : Nat} {a b c d : Char} {rest : List Char}
    (h : fourHex? [a, b, c, d] = some (m, [])) :
    codeUnit n ('\\' :: 'u' :: a :: b :: c :: d :: rest) =
      if isHigh n && isLow m then (joined n m, rest)
      else (ofCode n, '\\' :: 'u' :: a :: b :: c :: d :: rest) := by
  unfold codeUnit joined
  simp only [fourHex?_append h]
  cases isHigh n <;> cases isLow m <;> simp

end Pieces

open Pieces

theorem readString_raw {fuel : Nat} {c : Char} (h : isRaw c = true) (cs : List Char) :
    readString (fuel + 1) (c :: cs) = (do
      let (us, rest) ← readString fuel cs
      return (c :: us, rest)) := by
  simp only [isRaw, Bool.and_eq_true, decide_eq_true_eq, bne_iff_ne] at h
  rw [readString]
  · rw [if_neg (by simp_all)]
  all_goals simp_all

theorem readString_escape {fuel : Nat} {letter meant : Char}
    (h : simpleEscape? letter = some meant) (cs : List Char) :
    readString (fuel + 1) ('\\' :: letter :: cs) = (do
      let (us, rest) ← readString fuel cs
      return (meant :: us, rest)) := by
  have := ne_u_of_simpleEscape? h
  rw [readString]
  · rw [h]
  · simp_all

theorem readString_code {fuel : Nat} {a b c d : Char} {n : Nat}
    (h : fourHex? [a, b, c, d] = some (n, [])) (cs : List Char) :
    readString (fuel + 1) ('\\' :: 'u' :: a :: b :: c :: d :: cs) = (do
      let (us, rest) ← readString fuel (codeUnit n cs).2
      return ((codeUnit n cs).1 ++ us, rest)) := by
  rw [readString, fourHex?_append h]

/-- Only a code starts with `\\u`. -/
theorem exists_code {ps : Pieces} {rest rest' : List Char}
    (h : ps.chars ++ '"' :: rest = '\\' :: 'u' :: rest') :
    ∃ a b c d n hn ps', ps = .code a b c d n hn :: ps' := by
  match ps with
  | [] => simp at h
  | .char c hc :: _ =>
    rw [chars_cons, Piece.chars, List.append_assoc, List.singleton_append] at h
    injection h with h
    simp [h, isRaw] at hc
  | .escape letter meant hletter :: _ =>
    rw [chars_cons, Piece.chars, List.append_assoc, List.cons_append, List.singleton_append] at h
    injection h with _ h
    injection h with h
    exact absurd h (ne_u_of_simpleEscape? hletter)
  | .code a b c d n hn :: ps' => exact ⟨a, b, c, d, n, hn, ps', rfl⟩

/-- A string is read up to its closing quote. -/
theorem readString_chars (ps : Pieces) (rest : List Char) {fuel : Nat} (h : ps.length < fuel) :
    readString fuel (ps.chars ++ '"' :: rest) = .ok (ps.meaning, rest) := by
  induction ps using Pieces.meaning.induct generalizing fuel with
  | case1 =>
    obtain ⟨fuel, rfl⟩ := Nat.exists_eq_add_of_lt h
    rfl
  | case2 c hc ps ih =>
    obtain ⟨fuel, rfl⟩ := Nat.exists_eq_add_of_lt h
    rw [chars_cons, Piece.chars, List.append_assoc, List.singleton_append, readString_raw hc]
    exact bind_eq_ok.2 ⟨_, ih (by simp only [List.length_cons]; omega), rfl⟩
  | case3 letter meant hletter ps ih =>
    obtain ⟨fuel, rfl⟩ := Nat.exists_eq_add_of_lt h
    simp only [chars_cons, Piece.chars, List.cons_append, List.nil_append]
    rw [readString_escape hletter]
    exact bind_eq_ok.2 ⟨_, ih (by simp only [List.length_cons]; omega), rfl⟩
  | case4 a b c d high hhigh a' b' c' d' low hlow ps hpair ih =>
    obtain ⟨fuel, rfl⟩ := Nat.exists_eq_add_of_lt h
    simp only [chars_cons, Piece.chars, List.cons_append, List.nil_append]
    rw [readString_code hhigh, codeUnit_code hlow, if_pos hpair, meaning, if_pos hpair]
    refine bind_eq_ok.2 ⟨_, ih (by simp only [List.length_cons]; omega), ?_⟩
    simp only [pure_eq_ok]
  | case5 a b c d high hhigh a' b' c' d' low hlow ps hpair ih =>
    obtain ⟨fuel, rfl⟩ := Nat.exists_eq_add_of_lt h
    simp only [chars_cons, Piece.chars, List.cons_append, List.nil_append] at ih ⊢
    rw [readString_code hhigh, codeUnit_code hlow, if_neg hpair, meaning, if_neg hpair]
    exact bind_eq_ok.2 ⟨_, ih (by simp only [List.length_cons]; omega), rfl⟩
  | case6 a b c d n hn ps hps ih =>
    obtain ⟨fuel, rfl⟩ := Nat.exists_eq_add_of_lt h
    have halone : isHigh n = true → ∀ rest', chars ps ++ '"' :: rest ≠ '\\' :: 'u' :: rest' := by
      intro _ rest' h
      obtain ⟨_, _, _, _, _, _, _, hcode⟩ := exists_code h
      exact hps _ _ _ _ _ _ _ hcode
    simp only [chars_cons, Piece.chars, List.cons_append, List.nil_append]
    rw [readString_code hn, codeUnit_of_not halone, meaning.eq_5 _ _ _ _ _ _ _ hps]
    exact bind_eq_ok.2 ⟨_, ih (by simp only [List.length_cons]; omega), rfl⟩

/-- What follows a code unit: what it was read from, without the code it makes a pair with. -/
theorem exists_of_codeUnit {n : Nat} {cs rest meant : List Char}
    (h : codeUnit n cs = (meant, rest)) :
    rest = cs ∨ ∃ a b c d m, fourHex? [a, b, c, d] = some (m, []) ∧
      cs = '\\' :: 'u' :: a :: b :: c :: d :: rest := by
  unfold codeUnit at h
  split at h
  · split at h
    · split at h
      · next hfour =>
        obtain ⟨a, b, c, d, rfl, hm⟩ := exists_of_fourHex? hfour
        split at h
        · exact .inr ⟨a, b, c, d, _, hm, by rw [(Prod.mk.inj h).2]⟩
        · exact .inl (Prod.mk.inj h).2.symm
      · exact .inl (Prod.mk.inj h).2.symm
    · exact .inl (Prod.mk.inj h).2.symm
  · exact .inl (Prod.mk.inj h).2.symm

/-- What is read as a string is one. -/
theorem exists_pieces {fuel : Nat} {cs us rest : List Char}
    (h : readString fuel cs = .ok (us, rest)) : ∃ ps : Pieces, cs = ps.chars ++ '"' :: rest := by
  induction fuel generalizing cs us rest with
  | zero => simp [readString] at h
  | succ fuel ih =>
    unfold readString at h
    split at h
    · simp at h
    · simp only [Except.ok.injEq, Prod.mk.injEq] at h
      exact ⟨[], by simp [h.2]⟩
    · split at h
      · simp at h
      · next n more hfour =>
        obtain ⟨a, b, c, d, rfl, hcode⟩ := exists_of_fourHex? hfour
        cases hunit : codeUnit n more with
        | mk meant left =>
          rw [hunit] at h
          obtain ⟨⟨us', rest'⟩, hread, h⟩ := bind_eq_ok.1 h
          obtain ⟨rfl, rfl⟩ := Prod.mk.inj (Except.ok.inj h)
          obtain ⟨ps, rfl⟩ := ih hread
          obtain rfl | ⟨a', b', c', d', m, hm, rfl⟩ := exists_of_codeUnit hunit
          · exact ⟨.code a b c d n hcode :: ps, by simp [Piece.chars]⟩
          · exact ⟨.code a b c d n hcode :: .code a' b' c' d' m hm :: ps, by simp [Piece.chars]⟩
    · split at h
      · simp at h
      · next hletter =>
        obtain ⟨⟨us', rest'⟩, hread, h⟩ := bind_eq_ok.1 h
        obtain ⟨rfl, rfl⟩ := Prod.mk.inj (Except.ok.inj h)
        obtain ⟨ps, rfl⟩ := ih hread
        exact ⟨.escape _ _ hletter :: ps, by simp [Piece.chars]⟩
    · next c more hquote hcode hescape =>
      split at h
      · simp at h
      · next hc =>
        obtain ⟨⟨us', rest'⟩, hread, h⟩ := bind_eq_ok.1 h
        obtain ⟨rfl, rfl⟩ := Prod.mk.inj (Except.ok.inj h)
        obtain ⟨ps, rfl⟩ := ih hread
        have hraw : isRaw c = true := by
          simp only [not_or, Nat.not_lt] at hc
          simpa [isRaw, hc] using hquote
        exact ⟨.char c hraw :: ps, by simp [Piece.chars]⟩

/-! ## the characters of a string -/

/-- The letters of escapes are printable ASCII characters. -/
theorem isPrintable_of_simpleEscape? {letter meant : Char}
    (h : simpleEscape? letter = some meant) : 0x20 ≤ letter.toNat ∧ letter.toNat ≤ 0x7E := by
  unfold simpleEscape? at h
  split at h
  · next hsame => obtain rfl | rfl | rfl := hsame <;> decide
  · repeat' split at h
    all_goals first | (next hletter => subst hletter; decide) | simp at h

/-- The digits of base sixteen are printable ASCII characters. -/
theorem bounds_of_hexValue? {c : Char} {n : Nat} (h : hexValue? c = some n) :
    n < 16 ∧ 0x20 ≤ c.toNat ∧ c.toNat ≤ 0x7E := by
  have hle (c d : Char) : c ≤ d ↔ c.toNat ≤ d.toNat := UInt32.le_iff_toNat_le
  simp only [hexValue?, hle, Char.reduceToNat] at h
  repeat' split at h
  all_goals first | (obtain rfl := Option.some.inj h; omega) | simp at h

/-- A character of a string stands for itself, or is a printable ASCII character. -/
theorem Pieces.cases_of_mem_quoted {ps : Pieces} {c : Char} (hc : c ∈ ps.quoted) :
    (∃ h, Piece.char c h ∈ ps) ∨ 0x20 ≤ c.toNat ∧ c.toNat ≤ 0x7E := by
  simp only [Pieces.quoted, List.mem_cons, List.mem_append, List.not_mem_nil, or_false] at hc
  obtain rfl | hc | rfl := hc
  · exact .inr (by decide)
  · obtain ⟨p, hp, hc⟩ := List.mem_flatMap.1 hc
    cases p with
    | char ch h =>
      obtain rfl := List.mem_singleton.1 hc
      exact .inl ⟨h, hp⟩
    | escape letter ch h =>
      simp only [Piece.chars, List.mem_cons, List.not_mem_nil, or_false] at hc
      obtain rfl | rfl := hc
      · exact .inr (by decide)
      · exact .inr (isPrintable_of_simpleEscape? h)
    | code a b d e n h =>
      simp only [Piece.chars, List.mem_cons, List.not_mem_nil, or_false] at hc
      simp only [fourHex?] at h
      split at h
      · next ha hb hd he =>
        refine .inr ?_
        obtain rfl | rfl | rfl | rfl | rfl | rfl := hc
        · decide
        · decide
        · exact (bounds_of_hexValue? ha).2
        · exact (bounds_of_hexValue? hb).2
        · exact (bounds_of_hexValue? hd).2
        · exact (bounds_of_hexValue? he).2
      · simp at h
  · exact .inr (by decide)

/-- No character of a string is a control character. -/
theorem Pieces.le_of_mem_quoted {ps : Pieces} {c : Char} (hc : c ∈ ps.quoted) : 0x20 ≤ c.toNat := by
  obtain ⟨h, -⟩ | h := Pieces.cases_of_mem_quoted hc
  · simp only [isRaw, Bool.and_eq_true, decide_eq_true_eq] at h
    exact h.1.1
  · exact h.1

theorem Pieces.ne_carriageReturn {ps : Pieces} : ∀ c ∈ ps.quoted, c ≠ '\r' := by
  rintro c hc rfl
  exact absurd (ps.le_of_mem_quoted hc) (by decide)

/-! ## numbers -/

/-- The number that stands here after its sign. -/
def readAfter (sign cs : List Char) : Except Fault (Value × List Char) :=
  let (whole, rest) := wholePart cs
  if whole.isEmpty then .error .jsonMalformed
  else
    let (fraction, rest) := fractionPart rest
    let (exponent, rest) := exponentPart rest
    let text := sign ++ whole ++ fraction ++ exponent
    if fraction.isEmpty && exponent.isEmpty then
      match readInteger? text with
      | some i => .ok (.int i, rest)
      | none => .error .valueUnsuited
    else
      match Double.read? text with
      | some x => .ok (.float x, rest)
      | none => .error .jsonMalformed

theorem readNumber_minus (cs : List Char) : readNumber ('-' :: cs) = readAfter ['-'] cs := rfl

theorem readNumber_of_ne {cs : List Char} (h : cs.head? ≠ some '-') :
    readNumber cs = readAfter [] cs := by
  unfold readNumber
  split
  next sign rest hsplit =>
  split at hsplit
  · simp at h
  · obtain ⟨rfl, rfl⟩ := Prod.mk.inj hsplit
    rfl

/-- The value of a number from its text, which is that of an integer or not. -/
def readText (integer : Bool) (text : List Char) : Except Fault Value :=
  if integer then
    match readInteger? text with
    | some i => .ok (.int i)
    | none => .error .valueUnsuited
  else
    match Double.read? text with
    | some x => .ok (.float x)
    | none => .error .jsonMalformed

/-- The parts of a number are read one after the other, and its value from all of them. -/
theorem readAfter_of_parts {sign cs whole fraction exponent rest rest' rest'' : List Char}
    (hwhole : wholePart cs = (whole, rest)) (hne : whole.isEmpty = false)
    (hfraction : fractionPart rest = (fraction, rest'))
    (hexponent : exponentPart rest' = (exponent, rest'')) :
    readAfter sign cs = (readText (fraction.isEmpty && exponent.isEmpty)
      (sign ++ whole ++ fraction ++ exponent)).map (·, rest'') := by
  unfold readAfter readText
  simp only [hwhole, hne, hfraction, hexponent, Bool.false_eq_true, if_false]
  split
  · cases readInteger? (sign ++ whole ++ fraction ++ exponent) <;> rfl
  · cases Double.read? (sign ++ whole ++ fraction ++ exponent) <;> rfl

theorem Literal.readText_eq_ok (n : Literal) {v : Value} :
    readText n.isInteger (n.sign ++ n.magnitude) = .ok v ↔ n.value? = some v := by
  unfold readText Literal.value?
  split
  · cases readInteger? (n.sign ++ n.magnitude) <;> simp
  · cases Double.read? (n.sign ++ n.magnitude) <;> simp

/-- The part of a number that its point starts. -/
def Literal.point (n : Literal) : List Char := if n.fraction.isEmpty then [] else '.' :: n.fraction

theorem Literal.unsigned_eq (n : Literal) : n.unsigned = n.whole ++ n.point := rfl

/-- A number is an integer if nothing stands after its first digits. -/
theorem Literal.isEmpty_parts (n : Literal) :
    (n.point.isEmpty && (n.exponent.elim [] Exponent.normal).isEmpty) = n.isInteger := by
  unfold Literal.isInteger Literal.point
  cases n.exponent <;> cases n.fraction <;> simp [Exponent.normal]

/-- Whether a number may end before a character. -/
def endsNumber (c : Char) : Bool := !c.isDigit && c != '.' && c != 'e' && c != 'E'

theorem digits_append {ds rest : List Char} (hds : ∀ c ∈ ds, c.isDigit = true)
    (hrest : ∀ c ∈ rest.head?, c.isDigit = false) : digits (ds ++ rest) = (ds, rest) :=
  Numeral.spanDigits_append hds hrest

theorem wholePart_append (n : Literal) {rest : List Char}
    (hrest : ∀ c ∈ rest.head?, c.isDigit = false) :
    wholePart (n.whole ++ rest) = (n.whole, rest) := by
  have hdigits : digits (n.whole ++ rest) = (n.whole, rest) :=
    digits_append (fun c hc => n.isDigit c (List.mem_append_left _ hc)) hrest
  unfold wholePart
  split
  · next more hcs =>
    have hwhole : n.whole = ['0'] := by
      refine n.leading ?_
      cases h : n.whole with
      | nil => exact absurd h n.whole_ne_nil
      | cons d ds => simp_all
    simp_all
  · exact hdigits

theorem fractionPart_append (n : Literal) {rest : List Char}
    (hrest : ∀ c ∈ rest.head?, c.isDigit = false ∧ c ≠ '.') :
    fractionPart (n.point ++ rest) = (n.point, rest) := by
  unfold Literal.point
  split
  · unfold fractionPart
    split
    · next hcs => exact absurd rfl (hrest '.' (by simp_all)).2
    · rfl
  · next hne =>
    have hdigits : digits (n.fraction ++ rest) = (n.fraction, rest) :=
      digits_append (fun c hc => n.isDigit c (List.mem_append_right _ hc))
        fun c hc => (hrest c hc).1
    simp [fractionPart, hdigits, hne]

theorem exponentPart_chars (e : Exponent) {rest : List Char}
    (hrest : ∀ c ∈ rest.head?, c.isDigit = false) :
    exponentPart (e.chars ++ rest) = (e.normal, rest) := by
  have hdigits : digits (e.digits ++ rest) = (e.digits, rest) := digits_append e.isDigit hrest
  have hne : e.digits.isEmpty = false := by simpa using e.digits_ne_nil
  have hfirst : ∀ c ∈ (e.digits ++ rest).head?, c.isDigit = true := by
    cases h : e.digits with
    | nil => exact absurd h e.digits_ne_nil
    | cons d ds => simpa using e.isDigit d (by simp [h])
  simp only [Exponent.chars, Exponent.normal, List.cons_append, exponentPart, e.letter_eq, if_true]
  obtain hsign | hsign | hsign := e.sign_eq
  · rw [hsign, List.nil_append]
    split
    · next hplus => exact absurd (hfirst '+' (by simp [hplus])) (by decide)
    · next hminus => exact absurd (hfirst '-' (by simp [hminus])) (by decide)
    · simp [hdigits, hne]
  · simp [hsign, hdigits, hne]
  · simp [hsign, hdigits, hne]

theorem Literal.sign_eq (n : Literal) : n.sign = if n.negative then ['-'] else [] := by
  unfold Literal.sign
  cases n.negative <;> rfl

/-- A number without its sign starts with a digit. -/
theorem Literal.isDigit_head (n : Literal) (rest : List Char) :
    ∃ d ds, n.unsigned ++ rest = d :: ds ∧ d.isDigit = true := by
  obtain ⟨d, ds, h⟩ := List.exists_cons_of_ne_nil n.whole_ne_nil
  exact ⟨d, _, by rw [Numeral.unsigned, h]; rfl, n.isDigit d (by simp [h])⟩

theorem exponentPart_append (n : Literal) {rest : List Char}
    (hrest : ∀ c ∈ rest.head?, endsNumber c = true) :
    exponentPart (n.exponent.elim [] Exponent.chars ++ rest) =
      (n.exponent.elim [] Exponent.normal, rest) := by
  simp only [endsNumber, Bool.and_eq_true, bne_iff_ne, Bool.not_eq_true'] at hrest
  cases n.exponent with
  | some e => exact exponentPart_chars e fun c hc => (hrest c hc).1.1.1
  | none =>
    unfold exponentPart
    split
    · next c cs hcs =>
      have := hrest c (by simp_all)
      simp_all
    · simp_all

/-- No digit and no point stands where the exponent of a number starts. -/
theorem Literal.head?_exponent (n : Literal) {rest : List Char}
    (hrest : ∀ c ∈ rest.head?, endsNumber c = true) :
    ∀ c ∈ (n.exponent.elim [] Exponent.chars ++ rest).head?, c.isDigit = false ∧ c ≠ '.' := by
  simp only [endsNumber, Bool.and_eq_true, bne_iff_ne, Bool.not_eq_true'] at hrest
  cases n.exponent with
  | some e => obtain h | h := e.letter_eq <;> simp [Exponent.chars, h]
  | none => exact fun c hc => (hrest c hc).1.1

/-- A number without its sign is read part by part, if what follows it ends it. -/
theorem readAfter_append (n : Literal) {rest : List Char}
    (hrest : ∀ c ∈ rest.head?, endsNumber c = true) :
    readAfter n.sign (n.unsigned ++ (n.exponent.elim [] Exponent.chars ++ rest)) =
      (readText n.isInteger (n.sign ++ n.magnitude)).map (·, rest) := by
  have hafter := n.head?_exponent hrest
  have hpoint : ∀ c ∈ (n.point ++ (n.exponent.elim [] Exponent.chars ++ rest)).head?,
      c.isDigit = false := by
    unfold Literal.point
    split
    · exact fun c hc => (hafter c hc).1
    · simp
  rw [n.unsigned_eq, List.append_assoc, readAfter_of_parts (wholePart_append n hpoint)
    (by simpa using n.whole_ne_nil) (fractionPart_append n hafter) (exponentPart_append n hrest),
    n.isEmpty_parts, Literal.magnitude, n.unsigned_eq]
  simp only [List.append_assoc]

/-- A number is read as it is spelt, if what follows it ends it. -/
theorem readNumber_chars {n : Literal} {v : Value} (hv : n.value? = some v) {rest : List Char}
    (hrest : ∀ c ∈ rest.head?, endsNumber c = true) :
    readNumber (n.chars ++ rest) = .ok (v, rest) := by
  have hread := readAfter_append n hrest
  rw [n.readText_eq_ok.2 hv] at hread
  rw [Literal.chars, List.append_assoc, List.append_assoc]
  rw [n.sign_eq] at hread ⊢
  split
  · next hneg =>
    rw [if_pos hneg] at hread
    exact hread
  · next hneg =>
    rw [if_neg hneg] at hread
    obtain ⟨d, ds, hfirst, hdigit⟩ := n.isDigit_head (n.exponent.elim [] Exponent.chars ++ rest)
    rw [List.nil_append, readNumber_of_ne, hread]
    · rfl
    rw [hfirst, List.head?_cons]
    rintro ⟨⟩
    exact absurd hdigit (by decide)

/-! ## what is read as a number is one -/

theorem digits_eq {cs ds rest : List Char} (h : digits cs = (ds, rest)) :
    cs = ds ++ rest ∧ ∀ c ∈ ds, c.isDigit = true := by
  obtain ⟨rfl, rfl⟩ := Prod.mk.inj h
  exact ⟨List.takeWhile_append_dropWhile.symm, fun c hc => List.mem_takeWhile_imp hc⟩

theorem wholePart_eq {cs whole rest : List Char} (h : wholePart cs = (whole, rest)) :
    cs = whole ++ rest ∧ (∀ c ∈ whole, c.isDigit = true) ∧
      (whole.head? = some '0' → whole = ['0']) := by
  unfold wholePart at h
  split at h
  · obtain ⟨rfl, rfl⟩ := Prod.mk.inj h
    simp
  · next hzero =>
    obtain ⟨rfl, hdigits⟩ := digits_eq h
    refine ⟨rfl, hdigits, fun hfirst => ?_⟩
    cases whole with
    | nil => simp at hfirst
    | cons d ds =>
      obtain rfl : d = '0' := by simpa using hfirst
      exact absurd rfl (hzero _)

theorem fractionPart_eq {cs fraction rest : List Char} (h : fractionPart cs = (fraction, rest)) :
    ∃ ds : List Char, cs = fraction ++ rest ∧ (∀ c ∈ ds, c.isDigit = true) ∧
      fraction = if ds.isEmpty then [] else '.' :: ds := by
  unfold fractionPart at h
  split at h
  · next more =>
    cases hdigits : digits more with
    | mk ds rest' =>
      obtain ⟨rfl, hds⟩ := digits_eq hdigits
      simp only [hdigits] at h
      split at h
      · obtain ⟨rfl, rfl⟩ := Prod.mk.inj h
        exact ⟨[], by simp⟩
      · next hne =>
        obtain ⟨rfl, rfl⟩ := Prod.mk.inj h
        exact ⟨ds, by simp, hds, by rw [if_neg hne]⟩
  · obtain ⟨rfl, rfl⟩ := Prod.mk.inj h
    exact ⟨[], by simp⟩

theorem exponentPart_eq {cs exponent rest : List Char}
    (h : exponentPart cs = (exponent, rest)) :
    ∃ e : Option Exponent, cs = e.elim [] Exponent.chars ++ rest ∧
      exponent = e.elim [] Exponent.normal := by
  unfold exponentPart at h
  split at h
  · next letter more =>
    split at h
    · next hletter =>
      split at h
      next sign after hsign =>
      have hsign : (sign = [] ∨ sign = ['+'] ∨ sign = ['-']) ∧ more = sign ++ after := by
        split at hsign <;> obtain ⟨rfl, rfl⟩ := Prod.mk.inj hsign <;> simp
      cases hdigits : digits after with
      | mk ds rest' =>
        obtain ⟨rfl, hds⟩ := digits_eq hdigits
        simp only [hdigits] at h
        split at h
        · obtain ⟨rfl, rfl⟩ := Prod.mk.inj h
          exact ⟨none, rfl, rfl⟩
        · next hne =>
          obtain ⟨rfl, rfl⟩ := Prod.mk.inj h
          exact ⟨some ⟨letter, sign, ds, hletter, hsign.1, by simpa using hne, hds⟩,
            by simp [Exponent.chars, hsign.2], rfl⟩
    · obtain ⟨rfl, rfl⟩ := Prod.mk.inj h
      exact ⟨none, rfl, rfl⟩
  · obtain ⟨rfl, rfl⟩ := Prod.mk.inj h
    exact ⟨none, rfl, rfl⟩

/-- Where digits stand after a sign, a number is read, whatever follows. -/
theorem exists_literal_of_wholePart (negative : Bool) {sign cs whole more : List Char}
    (hsign : sign = (Decimal.signText negative).toList) (hwhole : wholePart cs = (whole, more))
    (hne : whole.isEmpty = false) :
    ∃ (n : Literal) (rest : List Char), sign ++ cs = n.chars ++ rest ∧
      readAfter sign cs = (readText n.isInteger (n.sign ++ n.magnitude)).map (·, rest) := by
  obtain ⟨hcs, hdigits, hzero⟩ := wholePart_eq hwhole
  obtain ⟨⟨fraction, more'⟩, hfraction⟩ : ∃ p, fractionPart more = p := ⟨_, rfl⟩
  obtain ⟨ds, hmore, hds, hpoint⟩ := fractionPart_eq hfraction
  obtain ⟨⟨exponent, rest⟩, hexponent⟩ : ∃ p, exponentPart more' = p := ⟨_, rfl⟩
  obtain ⟨e, hmore', hnormal⟩ := exponentPart_eq hexponent
  let n : Literal :=
    { negative, whole, fraction := ds, exponent := e, leading := hzero
      whole_ne_nil := by simpa using hne
      isDigit := fun c hc => (List.mem_append.1 hc).elim (hdigits c) (hds c) }
  have hsign : sign = n.sign := hsign
  have hpoint : fraction = n.point := hpoint
  have hnormal : exponent = n.exponent.elim [] Exponent.normal := hnormal
  refine ⟨n, rest, ?_, ?_⟩
  · rw [hcs, hmore, hmore', hpoint, hsign, Literal.chars, n.unsigned_eq]
    simp only [List.append_assoc, n]
  · rw [readAfter_of_parts hwhole hne hfraction hexponent, hpoint, hnormal, n.isEmpty_parts, hsign,
      Literal.magnitude, n.unsigned_eq]
    simp only [List.append_assoc, n]

/-- What is read as a number after a sign is one. -/
theorem exists_literal_of_readAfter (negative : Bool) {sign cs rest : List Char} {v : Value}
    (hsign : sign = (Decimal.signText negative).toList)
    (h : readAfter sign cs = .ok (v, rest)) :
    ∃ n : Literal, n.value? = some v ∧ sign ++ cs = n.chars ++ rest := by
  obtain ⟨⟨whole, more⟩, hwhole⟩ : ∃ p, wholePart cs = p := ⟨_, rfl⟩
  have hne : whole.isEmpty = false := by
    rw [← Bool.not_eq_true]
    intro hempty
    simp [readAfter, hwhole, hempty] at h
  obtain ⟨n, rest', hchars, hread⟩ := exists_literal_of_wholePart negative hsign hwhole hne
  rw [hread] at h
  cases htext : readText n.isInteger (n.sign ++ n.magnitude) with
  | error f => simp [htext, Except.map] at h
  | ok w =>
    rw [htext] at h
    obtain ⟨rfl, rfl⟩ := Prod.mk.inj (Except.ok.inj h)
    exact ⟨n, n.readText_eq_ok.1 htext, hchars⟩

/-- What is read as a number is one. -/
theorem exists_literal {cs rest : List Char} {v : Value} (h : readNumber cs = .ok (v, rest)) :
    ∃ n : Literal, n.value? = some v ∧ cs = n.chars ++ rest := by
  by_cases hminus : cs.head? = some '-'
  · cases cs with
    | nil => simp at hminus
    | cons c cs =>
      obtain rfl : c = '-' := by simpa using hminus
      rw [readNumber_minus] at h
      exact exists_literal_of_readAfter true rfl h
  · rw [readNumber_of_ne hminus] at h
    exact exists_literal_of_readAfter false rfl h

/-! ## words -/

theorem word?_eq_some {ws cs rest : List Char} : word? ws cs = some rest ↔ cs = ws ++ rest := by
  induction ws generalizing cs with
  | nil => simp [word?, eq_comm]
  | cons w ws ih =>
    cases cs with
    | nil => simp [word?]
    | cons c cs =>
      rw [word?]
      split
      · next h => simp [ih, h]
      · next h => simp [eq_comm, h]

theorem readWord?_chars (w : Word) (rest : List Char) :
    readWord? (w.chars ++ rest) = some (w.value, rest) := by
  cases w <;> rfl

theorem exists_word {cs rest : List Char} {v : Value} (h : readWord? cs = some (v, rest)) :
    ∃ w : Word, cs = w.chars ++ rest := by
  obtain ⟨⟨name, v'⟩, hmem, hfound⟩ := List.exists_of_findSome?_eq_some h
  obtain ⟨rest', hword, heq⟩ := Option.map_eq_some_iff.1 hfound
  obtain ⟨-, rfl⟩ := Prod.mk.inj heq
  have hcs := word?_eq_some.1 hword
  have hname : ∃ w : Word, w.name = name := by
    simp only [words, List.mem_cons, Prod.mk.injEq, List.not_mem_nil, or_false] at hmem
    obtain ⟨rfl, -⟩ | ⟨rfl, -⟩ | ⟨rfl, -⟩ | ⟨rfl, -⟩ | ⟨rfl, -⟩ | ⟨rfl, -⟩ := hmem
    · exact ⟨.null, rfl⟩
    · exact ⟨.true, rfl⟩
    · exact ⟨.false, rfl⟩
    · exact ⟨.nan, rfl⟩
    · exact ⟨.infinity, rfl⟩
    · exact ⟨.minusInfinity, rfl⟩
  obtain ⟨w, rfl⟩ := hname
  exact ⟨w, hcs⟩

/-- A word has no line end. -/
theorem Word.ne_carriageReturn (w : Word) : ∀ c ∈ w.chars, c ≠ '\r' := by
  rintro c hc rfl
  cases w <;> exact absurd hc (by decide)

/-- A number starts with a digit, perhaps after a minus sign. -/
theorem Literal.exists_head (n : Literal) (rest : List Char) :
    ∃ d cs, d.isDigit = true ∧ (n.chars ++ rest = d :: cs ∨ n.chars ++ rest = '-' :: d :: cs) := by
  obtain ⟨d, ds, hfirst, hdigit⟩ := n.isDigit_head (n.exponent.elim [] Exponent.chars ++ rest)
  refine ⟨d, ds, hdigit, ?_⟩
  rw [Literal.chars, List.append_assoc, List.append_assoc, hfirst, n.sign_eq]
  split
  · exact .inr rfl
  · exact .inl rfl

theorem readWord?_literal (n : Literal) (rest : List Char) :
    readWord? (n.chars ++ rest) = none := by
  rw [readWord?, List.findSome?_eq_none_iff]
  intro w hw
  rw [Option.map_eq_none_iff, Option.eq_none_iff_forall_ne_some]
  intro rest' hword
  have hcs := word?_eq_some.1 hword
  obtain ⟨d, cs, hdigit, h⟩ := n.exists_head rest
  simp only [words, List.mem_cons, List.not_mem_nil, or_false] at hw
  obtain rfl | rfl | rfl | rfl | rfl | rfl := hw <;>
    obtain h | h := h <;> rw [h] at hcs <;> cases hcs <;> exact absurd hdigit (by decide)

end Storyboard.Json
