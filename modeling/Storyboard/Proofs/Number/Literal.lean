import Mathlib.Data.List.TakeWhile
import Storyboard.Proofs.Number.Digits
import Storyboard.Proofs.Number.Exact

/-!
# Storyboard.Proofs.Number.Literal

The texts that are numbers, written out part by part.  A literal holds every piece of its text
(the blanks at the ends, a sign, runs of digits, a point, an exponent), so that its characters are
the whole text and its value depends on all of it:

* `readInteger?_eq_some_iff` — an integer is read from the integer literals and nothing else;
* `readRatio?_eq_some_iff` — a quotient is read from the decimal literals and nothing else.
-/

namespace Storyboard.Number

open Text

variable {c : Char} {cs : List Char} {d : Nat} {ds : List Nat}

/-! ## digits -/

/-- No digit is a blank: the runs of ten and the blank ranges lie apart. -/
theorem isBlank_eq_false_of_digit (h : decimalValue? c = some d) : isBlank c = false := by
  have hapart : ∀ z ∈ decimalZeros, ∀ r ∈ blankRanges, z + 9 < r.1 ∨ r.2 < z := by decide
  obtain ⟨hd, z, hz, hc⟩ := decimalValue?_eq_some_iff.1 h
  rw [Bool.eq_false_iff, isBlank, Ne, Ranges.contains_iff]
  rintro ⟨r, hr, hlow, hhigh⟩
  have := hapart z hz r hr
  omega

theorem ne_of_digit {e : Char} (h : decimalValue? c = some d) (he : decimalValue? e = none) :
    c ≠ e := by
  rintro rfl
  rw [h] at he
  cases he

/-- Digits with single underscores between them, and what each of them counts. -/
inductive IsRun : List Char → List Nat → Prop
  | digit {c : Char} {d : Nat} (h : decimalValue? c = some d) : IsRun [c] [d]
  | next {c : Char} {d : Nat} {cs : List Char} {ds : List Nat} (h : decimalValue? c = some d)
      (rest : IsRun cs ds) : IsRun (c :: cs) (d :: ds)
  | gap {c : Char} {d : Nat} {cs : List Char} {ds : List Nat} (h : decimalValue? c = some d)
      (rest : IsRun cs ds) : IsRun (c :: '_' :: cs) (d :: ds)

/-- A run begins with a digit. -/
theorem IsRun.exists_head (h : IsRun cs ds) :
    ∃ c cs', cs = c :: cs' ∧ (decimalValue? c).isSome = true := by
  cases h with
  | digit h | next h _ | gap h _ => exact ⟨_, _, rfl, by rw [h]; rfl⟩

theorem IsRun.ne_nil (h : IsRun cs ds) : cs ≠ [] := by
  obtain ⟨c, cs', rfl, -⟩ := h.exists_head
  exact List.cons_ne_nil _ _

/-- A run holds digits and underscores only. -/
theorem IsRun.inRun (h : IsRun cs ds) : ∀ c ∈ cs, inRun c = true := by
  have hdigit {c : Char} {d : Nat} (h : decimalValue? c = some d) : Number.inRun c = true := by
    simp [Number.inRun, h]
  induction h with
  | digit h => simp [hdigit h]
  | next h _ ih => simpa [hdigit h] using ih
  | gap h _ ih => simpa [hdigit h, show Number.inRun '_' = true by decide] using ih

/-- Whether a character can stand in a number: in a run of digits, or as a sign, a point or the
letter of an exponent. -/
def inNumber (c : Char) : Bool := inRun c || c ∈ ['+', '-', '.', 'e', 'E']

theorem inNumber_of_inRun (h : inRun c = true) : inNumber c = true := by
  rw [inNumber, h, Bool.true_or]

/-- The blanks around a number are told from it. -/
theorem isBlank_of_inNumber (h : inNumber c = true) : isBlank c = false := by
  have hmarks : (['+', '-', '.', 'e', 'E'].all fun c => !isBlank c) = true := by decide
  rw [inNumber, inRun, Bool.or_eq_true, Bool.or_eq_true, beq_iff_eq, decide_eq_true_eq] at h
  rcases h with (rfl | h) | h
  · decide
  · obtain ⟨d, hd⟩ := Option.isSome_iff_exists.1 h
    exact isBlank_eq_false_of_digit hd
  · simpa using List.all_eq_true.1 hmarks c h

/-! ## reading a run -/

theorem digitGroup?_cons (c : Char) (cs : List Char) :
    digitGroup? (c :: cs) = (decimalValue? c).bind fun d => (cs.mapM decimalValue?).map (d :: ·) := by
  rw [digitGroup?, if_neg (by simp)]
  cases hc : decimalValue? c <;> cases hcs : cs.mapM decimalValue? <;> simp [hc, hcs]

theorem digitRun?_nil : digitRun? [] = none := by decide

theorem digitRun?_singleton (hc : c ≠ '_') : digitRun? [c] = (decimalValue? c).map ([·]) := by
  rw [digitRun?, List.splitOn_eq_singleton (by simpa using hc.symm)]
  cases h : decimalValue? c <;> simp [digitGroup?_cons, h]

theorem digitRun?_underscore (cs : List Char) : digitRun? ('_' :: cs) = none := by
  have hnone : digitGroup? [] = none := rfl
  simp [digitRun?, List.splitOn_cons_eq_if_modifyHead, hnone]

/-- After a digit that an underscore follows, the rest is a run of its own. -/
theorem digitRun?_gap (hc : c ≠ '_') (cs : List Char) :
    digitRun? (c :: '_' :: cs)
      = (decimalValue? c).bind fun d => (digitRun? cs).map (d :: ·) := by
  have hsplit : (c :: '_' :: cs).splitOn '_' = [c] :: cs.splitOn '_' := by
    simp [List.splitOn_cons_eq_if_modifyHead, hc]
  rw [digitRun?, digitRun?, hsplit]
  cases hd : decimalValue? c <;> cases hcs : (cs.splitOn '_').mapM digitGroup? <;>
    simp [digitGroup?_cons, hd, hcs]

/-- After a digit that another digit follows, the rest is a run as well. -/
theorem digitRun?_next {e : Char} (hc : c ≠ '_') (he : e ≠ '_') (cs : List Char) :
    digitRun? (c :: e :: cs)
      = (decimalValue? c).bind fun d => (digitRun? (e :: cs)).map (d :: ·) := by
  obtain ⟨g, gs, hsplit⟩ : ∃ g gs, cs.splitOn '_' = g :: gs :=
    List.exists_cons_of_ne_nil (List.splitOn_ne_nil _ _)
  have htail : (e :: cs).splitOn '_' = (e :: g) :: gs := by
    simp [List.splitOn_cons_eq_if_modifyHead, he, hsplit]
  have hall : (c :: e :: cs).splitOn '_' = (c :: e :: g) :: gs := by
    rw [List.splitOn_cons_eq_if_modifyHead, htail]
    simp [hc]
  rw [digitRun?, digitRun?, hall, htail]
  cases hd : decimalValue? c <;> cases he : decimalValue? e <;>
    cases hg : g.mapM decimalValue? <;> cases hgs : gs.mapM digitGroup? <;>
    simp [digitGroup?_cons, hd, he, hg, hgs]

theorem IsRun.digitRun?_eq (h : IsRun cs ds) : digitRun? cs = some ds := by
  have hne {c : Char} {d : Nat} (h : decimalValue? c = some d) : c ≠ '_' :=
    ne_of_digit h (by decide)
  induction h with
  | digit h => rw [digitRun?_singleton (hne h), h]; rfl
  | next h rest ih =>
    obtain ⟨e, cs', rfl, he⟩ := rest.exists_head
    obtain ⟨_, he⟩ := Option.isSome_iff_exists.1 he
    rw [digitRun?_next (hne h) (hne he), h, ih]
    rfl
  | gap h _ ih => rw [digitRun?_gap (hne h), h, ih]; rfl

theorem isRun_of_digitRun? :
    ∀ {cs : List Char} {ds : List Nat}, digitRun? cs = some ds → IsRun cs ds
  | [], ds, h => by rw [digitRun?_nil] at h; cases h
  | [c], ds, h => by
    have hc : c ≠ '_' := by rintro rfl; rw [digitRun?_underscore] at h; cases h
    rw [digitRun?_singleton hc] at h
    obtain ⟨d, hd, rfl⟩ := Option.map_eq_some_iff.1 h
    exact .digit hd
  | c :: e :: cs, ds, h => by
    have hc : c ≠ '_' := by rintro rfl; rw [digitRun?_underscore] at h; cases h
    by_cases he : e = '_'
    · subst he
      rw [digitRun?_gap hc] at h
      obtain ⟨d, hd, h⟩ := Option.bind_eq_some_iff.1 h
      obtain ⟨ds', hds, rfl⟩ := Option.map_eq_some_iff.1 h
      exact .gap hd (isRun_of_digitRun? hds)
    · rw [digitRun?_next hc he] at h
      obtain ⟨d, hd, h⟩ := Option.bind_eq_some_iff.1 h
      obtain ⟨ds', hds, rfl⟩ := Option.map_eq_some_iff.1 h
      exact .next hd (isRun_of_digitRun? hds)

theorem digitRun?_eq_some_iff : digitRun? cs = some ds ↔ IsRun cs ds :=
  ⟨isRun_of_digitRun?, IsRun.digitRun?_eq⟩

/-- A run of no more digits than may be read. -/
structure Run where
  chars : List Char
  digits : List Nat
  isRun : IsRun chars digits
  short : digits.length ≤ digitLimit

namespace Run

/-- The number that the digits of a run denote. -/
def value (r : Run) : Nat := ofDigits 10 r.digits

/-- What begins with a run begins a number. -/
theorem startsNumber_append (r : Run) (rest : List Char) :
    startsNumber (r.chars ++ rest) = true := by
  obtain ⟨c, cs, hcs, hc⟩ := r.isRun.exists_head
  rw [hcs, List.cons_append]
  unfold startsNumber
  split
  · next heq =>
    obtain ⟨rfl, -⟩ := List.cons.inj heq
    exact absurd hc (by decide)
  · next heq =>
    obtain ⟨rfl, -⟩ := List.cons.inj heq
    exact hc
  · next heq => cases heq

/-! A run may be left out in a decimal; it then counts nothing and has no digits. -/

/-- The characters of a run that may be left out. -/
def charsOf (r : Option Run) : List Char := r.elim [] chars

/-- The number that a run denotes which may be left out. -/
def valueOf (r : Option Run) : Nat := r.elim 0 value

/-- How many digits a run has that may be left out. -/
def placesOf (r : Option Run) : Nat := r.elim 0 (·.digits.length)

theorem inRun_of_mem_charsOf (r : Option Run) : ∀ c ∈ charsOf r, inRun c = true := by
  cases r with
  | none => exact List.forall_mem_nil _
  | some r => exact r.isRun.inRun

theorem inNumber_of_mem_charsOf (r : Option Run) : ∀ c ∈ charsOf r, inNumber c = true :=
  fun c hc => inNumber_of_inRun (inRun_of_mem_charsOf r c hc)

end Run

theorem readNatural?_eq_some_iff {n : Nat} :
    readNatural? cs = some n ↔ ∃ r : Run, r.chars = cs ∧ r.value = n := by
  rw [readNatural?, Option.bind_eq_some_iff]
  constructor
  · rintro ⟨ds, hds, h⟩
    split at h
    · cases h
    · next hshort =>
      exact ⟨⟨cs, ds, digitRun?_eq_some_iff.1 hds, Nat.not_lt.1 hshort⟩, rfl, Option.some.inj h⟩
  · rintro ⟨r, rfl, rfl⟩
    exact ⟨r.digits, r.isRun.digitRun?_eq, if_neg (Nat.not_lt.2 r.short)⟩

theorem optionalRun?_eq_some_iff {n places : Nat} :
    optionalRun? cs = some (n, places) ↔
      ∃ r : Option Run, Run.charsOf r = cs ∧ Run.valueOf r = n ∧ Run.placesOf r = places := by
  constructor
  · intro h
    rw [optionalRun?] at h
    split at h
    · next hempty =>
      obtain ⟨rfl, rfl⟩ := Prod.mk.inj (Option.some.inj h)
      exact ⟨none, (List.isEmpty_iff.1 hempty).symm, rfl, rfl⟩
    · obtain ⟨ds, hds, h⟩ := Option.bind_eq_some_iff.1 h
      split at h
      · cases h
      · next hshort =>
        obtain ⟨rfl, rfl⟩ := Prod.mk.inj (Option.some.inj h)
        exact ⟨some ⟨cs, ds, digitRun?_eq_some_iff.1 hds, Nat.not_lt.1 hshort⟩, rfl, rfl, rfl⟩
  · rintro ⟨r, rfl, rfl, rfl⟩
    cases r with
    | none => rfl
    | some r =>
      have hne : (r.chars).isEmpty = false := by simpa using r.isRun.ne_nil
      simp [optionalRun?, Run.charsOf, Run.valueOf, Run.placesOf, Run.value, hne,
        r.isRun.digitRun?_eq, Nat.not_lt.2 r.short]

/-! ## a sign -/

/-- A sign before a number, or none. -/
inductive Sign
  | unwritten
  | plus
  | minus

namespace Sign

def chars : Sign → List Char
  | unwritten => []
  | plus => ['+']
  | minus => ['-']

def isMinus : Sign → Bool
  | minus => true
  | _ => false

/-- What a sign multiplies a number by. -/
def factor : Sign → Int
  | minus => -1
  | _ => 1

theorem withSign_isMinus (s : Sign) (n : Nat) : Decimal.withSign s.isMinus n = s.factor * n := by
  cases s <;> simp [Decimal.withSign, isMinus, factor]

theorem inNumber_of_mem (s : Sign) : ∀ c ∈ s.chars, inNumber c = true := by
  cases s with
  | unwritten => exact List.forall_mem_nil _
  | plus | minus => exact List.forall_mem_singleton.2 (by decide)

end Sign

/-- Every text is a sign, or none, and what follows it. -/
theorem exists_signOf (cs : List Char) :
    ∃ s : Sign, s.isMinus = (signOf cs).1 ∧ s.chars ++ (signOf cs).2 = cs := by
  unfold signOf
  split
  · exact ⟨.minus, rfl, rfl⟩
  · exact ⟨.plus, rfl, rfl⟩
  · exact ⟨.unwritten, rfl, rfl⟩

/-- No number begins with a sign, so a sign before a number is told from it. -/
theorem signOf_append (s : Sign) (h : startsNumber cs = true) :
    signOf (s.chars ++ cs) = (s.isMinus, cs) := by
  cases s with
  | plus | minus => rfl
  | unwritten =>
    show signOf cs = (false, cs)
    unfold signOf
    split
    · exact absurd h (by simp [startsNumber, show decimalValue? '-' = none by decide])
    · exact absurd h (by simp [startsNumber, show decimalValue? '+' = none by decide])
    · rfl

/-- A sign and a run of digits. -/
structure SignedRun where
  sign : Sign
  run : Run

namespace SignedRun

def chars (s : SignedRun) : List Char := s.sign.chars ++ s.run.chars

def value (s : SignedRun) : Int := s.sign.factor * s.run.value

theorem inNumber_of_mem (s : SignedRun) : ∀ c ∈ s.chars, inNumber c = true :=
  List.forall_mem_append.2 ⟨s.sign.inNumber_of_mem, Run.inNumber_of_mem_charsOf (some s.run)⟩

theorem signOf_chars (s : SignedRun) : signOf s.chars = (s.sign.isMinus, s.run.chars) :=
  signOf_append s.sign (by simpa using s.run.startsNumber_append [])

end SignedRun

/-- Reading a sign and then a natural number takes the signed runs. -/
theorem readSigned?_eq_some_iff {i : Int} :
    (readNatural? (signOf cs).2).map (Decimal.withSign (signOf cs).1) = some i ↔
      ∃ s : SignedRun, s.chars = cs ∧ s.value = i := by
  rw [Option.map_eq_some_iff]
  constructor
  · rintro ⟨n, hn, rfl⟩
    obtain ⟨r, hr, rfl⟩ := readNatural?_eq_some_iff.1 hn
    obtain ⟨s, hs, hcs⟩ := exists_signOf cs
    refine ⟨⟨s, r⟩, ?_, ?_⟩
    · rw [SignedRun.chars, hr, hcs]
    · rw [SignedRun.value, ← hs, s.withSign_isMinus]
  · rintro ⟨s, rfl, rfl⟩
    rw [s.signOf_chars]
    exact ⟨s.run.value, readNatural?_eq_some_iff.2 ⟨s.run, rfl, rfl⟩, s.sign.withSign_isMinus _⟩

/-! ## blanks at the ends -/

section Trim

variable {inClass : Char → Bool} {before middle after : List Char}

/-- Trimming takes characters of the class from both ends and keeps the rest. -/
theorem exists_trimOf (inClass : Char → Bool) (cs : List Char) :
    ∃ before after, (∀ c ∈ before ++ after, inClass c = true) ∧
      before ++ trimOf inClass cs ++ after = cs := by
  obtain ⟨ds, hds⟩ : ∃ ds, ds = (cs.dropWhile inClass).reverse := ⟨_, rfl⟩
  refine ⟨cs.takeWhile inClass, (ds.takeWhile inClass).reverse, ?_, ?_⟩
  · intro c hc
    rw [List.mem_append, List.mem_reverse] at hc
    exact hc.elim List.mem_takeWhile_imp List.mem_takeWhile_imp
  · have hrest : trimOf inClass cs ++ (ds.takeWhile inClass).reverse = cs.dropWhile inClass := by
      rw [trimOf, ← hds, ← List.reverse_append, List.takeWhile_append_dropWhile, hds,
        List.reverse_reverse]
    rw [List.append_assoc, hrest, List.takeWhile_append_dropWhile]

/-- What holds none of the class is all that is left between characters of the class. -/
theorem trimOf_append (hends : ∀ c ∈ before ++ after, inClass c = true)
    (hmiddle : ∀ c ∈ middle, inClass c = false) :
    trimOf inClass (before ++ middle ++ after) = middle := by
  obtain ⟨hbefore, hafter⟩ := List.forall_mem_append.1 hends
  have hdrop {ds : List Char} (hds : ∀ c ∈ ds, inClass c = false) (hne : ds ≠ [])
      (es : List Char) : (ds ++ es).dropWhile inClass = ds ++ es := by
    obtain ⟨d, ds, rfl⟩ := List.exists_cons_of_ne_nil hne
    exact List.dropWhile_cons_of_neg (by simp [hds d (by simp)])
  have hall {ds : List Char} (hds : ∀ c ∈ ds, inClass c = true) : ds.dropWhile inClass = [] :=
    List.dropWhile_eq_nil_iff.2 hds
  rw [trimOf, List.append_assoc, List.dropWhile_append_of_pos hbefore]
  by_cases hne : middle = []
  · rw [hne, List.nil_append, hall hafter]
    rfl
  · have hlast : middle.reverse.dropWhile inClass = middle.reverse := by
      simpa using hdrop (by simpa using hmiddle) (List.reverse_ne_nil_iff.2 hne) []
    rw [hdrop hmiddle hne, List.reverse_append,
      List.dropWhile_append_of_pos (by simpa using hafter), hlast, List.reverse_reverse]

end Trim

/-! ## integer literals -/

/-- An integer as text: spaces, a sign, digits and spaces. -/
structure IntegerLiteral where
  before : List Char
  number : SignedRun
  after : List Char
  spaces : ∀ c ∈ before ++ after, isSpace c = true

namespace IntegerLiteral

def chars (l : IntegerLiteral) : List Char := l.before ++ l.number.chars ++ l.after

def value (l : IntegerLiteral) : Int := l.number.value

theorem trimSpaces_chars (l : IntegerLiteral) : trimSpaces l.chars = l.number.chars := by
  refine trimOf_append l.spaces fun c hc => ?_
  rw [isSpace, isBlank_of_inNumber (l.number.inNumber_of_mem c hc), Bool.false_and]

end IntegerLiteral

/-- An integer is read from the integer literals and nothing else. -/
theorem readInteger?_eq_some_iff {i : Int} :
    readInteger? cs = some i ↔ ∃ l : IntegerLiteral, l.chars = cs ∧ l.value = i := by
  have hread : readInteger? cs
      = (readNatural? (signOf (trimSpaces cs)).2).map
          (Decimal.withSign (signOf (trimSpaces cs)).1) := by
    rcases hsign : signOf (trimSpaces cs) with ⟨negative, ds⟩
    rw [readInteger?, hsign]
    cases hds : readNatural? ds <;> simp [hds, Decimal.withSign]
  rw [hread, readSigned?_eq_some_iff]
  constructor
  · rintro ⟨s, hs, rfl⟩
    obtain ⟨before, after, hspaces, hcs⟩ := exists_trimOf isSpace cs
    refine ⟨⟨before, s, after, hspaces⟩, ?_, rfl⟩
    rw [IntegerLiteral.chars, hs]
    exact hcs
  · rintro ⟨l, rfl, rfl⟩
    exact ⟨l.number, l.trimSpaces_chars.symm, rfl⟩

/-! ## decimal literals -/

/-- An exponent: `e` in either case and a signed run. -/
structure Exponent where
  letter : Char
  number : SignedRun
  isLetter : letter = 'e' ∨ letter = 'E'

namespace Exponent

/-- The characters of an exponent that may be left out. -/
def charsOf (x : Option Exponent) : List Char := x.elim [] fun x => x.letter :: x.number.chars

/-- The power of ten that an exponent denotes, zero where it is left out. -/
def valueOf (x : Option Exponent) : Int := x.elim 0 (·.number.value)

theorem inNumber_of_mem_charsOf (x : Option Exponent) : ∀ c ∈ charsOf x, inNumber c = true := by
  cases x with
  | none => exact List.forall_mem_nil _
  | some x =>
    refine List.forall_mem_cons.2 ⟨?_, x.number.inNumber_of_mem⟩
    rcases x.isLetter with h | h <;> rw [h] <;> decide

end Exponent

theorem exponentOf?_eq_some_iff {e : Int} :
    exponentOf? cs = some e ↔
      ∃ x : Option Exponent, Exponent.charsOf x = cs ∧ Exponent.valueOf x = e := by
  constructor
  · intro h
    cases cs with
    | nil => exact ⟨none, rfl, Option.some.inj h⟩
    | cons c cs =>
      rw [exponentOf?] at h
      split at h
      · next hletter =>
        obtain ⟨s, hs, rfl⟩ := readSigned?_eq_some_iff.1 h
        exact ⟨some ⟨c, s, hletter⟩, congrArg (c :: ·) hs, rfl⟩
      · cases h
  · rintro ⟨x, rfl, rfl⟩
    cases x with
    | none => rfl
    | some x =>
      show exponentOf? (x.letter :: x.number.chars) = some x.number.value
      rw [exponentOf?, if_pos x.isLetter]
      exact readSigned?_eq_some_iff.2 ⟨x.number, rfl, rfl⟩

/-- What a decimal counts up to its exponent: a run before the point and one after it, of which
one may be missing, and so may the point with what follows it. -/
structure Mantissa where
  whole : Option Run
  fraction : Option (Option Run)
  filled : whole ≠ none ∨ fraction.join ≠ none

namespace Mantissa

/-- The point and the run after it, if they are there. -/
def pointChars (fraction : Option (Option Run)) : List Char :=
  fraction.elim [] fun r => '.' :: Run.charsOf r

def chars (m : Mantissa) : List Char := Run.charsOf m.whole ++ pointChars m.fraction

def value (m : Mantissa) : ℚ :=
  Run.valueOf m.whole + Run.valueOf m.fraction.join / 10 ^ Run.placesOf m.fraction.join

theorem inNumber_of_mem (m : Mantissa) : ∀ c ∈ m.chars, inNumber c = true := by
  refine List.forall_mem_append.2 ⟨Run.inNumber_of_mem_charsOf m.whole, ?_⟩
  cases m.fraction with
  | none => exact List.forall_mem_nil _
  | some r => exact List.forall_mem_cons.2 ⟨by decide, Run.inNumber_of_mem_charsOf r⟩

end Mantissa

/-- A decimal as text: blanks, a sign, a mantissa, an exponent that may be left out, and blanks. -/
structure DecimalLiteral where
  before : List Char
  sign : Sign
  mantissa : Mantissa
  exponent : Option Exponent
  after : List Char
  blanks : ∀ c ∈ before ++ after, isBlank c = true

namespace DecimalLiteral

/-- The literal without the blanks and the sign. -/
def unsigned (l : DecimalLiteral) : List Char := l.mantissa.chars ++ Exponent.charsOf l.exponent

def chars (l : DecimalLiteral) : List Char := l.before ++ (l.sign.chars ++ l.unsigned) ++ l.after

def value (l : DecimalLiteral) : ℚ :=
  l.sign.factor * l.mantissa.value * 10 ^ Exponent.valueOf l.exponent

theorem inNumber_of_mem (l : DecimalLiteral) :
    ∀ c ∈ l.sign.chars ++ l.unsigned, inNumber c = true :=
  List.forall_mem_append.2 ⟨l.sign.inNumber_of_mem, List.forall_mem_append.2
    ⟨l.mantissa.inNumber_of_mem, Exponent.inNumber_of_mem_charsOf l.exponent⟩⟩

theorem trim_chars (l : DecimalLiteral) : trim l.chars = l.sign.chars ++ l.unsigned :=
  trimOf_append l.blanks fun c hc => isBlank_of_inNumber (l.inNumber_of_mem c hc)

end DecimalLiteral

/-! ## reading a decimal literal -/

theorem tensRatio_eq (n e : Int) : tensRatio n e = n * (10 : ℚ) ^ e := by
  rw [tensRatio]
  split
  · next he => rw [← cast_tens_toNat he]; push_cast; rfl
  · next he =>
    rw [Rat.mkRat_eq_div, cast_tens_toNat (by omega), zpow_neg, div_inv_eq_mul]

/-- The run after the point, if there is one, and what follows it. -/
def splitPoint : List Char → List Char × List Char
  | '.' :: rest => (rest.takeWhile inRun, rest.dropWhile inRun)
  | rest => ([], rest)

/-- The number that is read from the three pieces of an unsigned decimal, if they are runs and an
exponent. -/
def ratioOfPieces? (negative : Bool) (whole fraction exponent : List Char) : Option Rat :=
  match optionalRun? whole, optionalRun? fraction, exponentOf? exponent with
  | some (w, _), some (f, places), some e =>
    some (tensRatio (Decimal.withSign negative (w * tens places + f)) (e - places))
  | _, _, _ => none

/-- A decimal is read by cutting it behind its sign, behind its first run and behind its second. -/
theorem readRatio?_eq_pieces {negative : Bool} {us : List Char}
    (h : signOf (trim cs) = (negative, us)) :
    readRatio? cs = if startsNumber us = true then
      ratioOfPieces? negative (us.takeWhile inRun) (splitPoint (us.dropWhile inRun)).1
        (splitPoint (us.dropWhile inRun)).2 else none := by
  rw [readRatio?, h]
  rfl

theorem tensRatio_pieces (s : Sign) (w f places : Nat) (e : Int) :
    tensRatio (Decimal.withSign s.isMinus (w * tens places + f)) (e - places)
      = (s.factor : ℚ) * (w + f / 10 ^ places) * 10 ^ e := by
  have hplaces : (10 : ℚ) ^ places ≠ 0 := by positivity
  rw [tensRatio_eq, s.withSign_isMinus, zpow_sub₀ (by norm_num), zpow_natCast]
  push_cast
  rw [cast_tens]
  field_simp

theorem ratioOfPieces?_eq_some_iff {s : Sign} {whole fraction exponent : List Char} {q : ℚ} :
    ratioOfPieces? s.isMinus whole fraction exponent = some q ↔
      ∃ w f x, Run.charsOf w = whole ∧ Run.charsOf f = fraction ∧ Exponent.charsOf x = exponent ∧
        (s.factor : ℚ) * (Run.valueOf w + Run.valueOf f / 10 ^ Run.placesOf f)
          * 10 ^ Exponent.valueOf x = q := by
  constructor
  · intro h
    unfold ratioOfPieces? at h
    split at h
    · next hwhole hfraction hexponent =>
      obtain ⟨w, hw, rfl, -⟩ := optionalRun?_eq_some_iff.1 hwhole
      obtain ⟨f, hf, rfl, rfl⟩ := optionalRun?_eq_some_iff.1 hfraction
      obtain ⟨x, hx, rfl⟩ := exponentOf?_eq_some_iff.1 hexponent
      rw [tensRatio_pieces] at h
      exact ⟨w, f, x, hw, hf, hx, Option.some.inj h⟩
    · cases h
  · rintro ⟨w, f, x, rfl, rfl, rfl, rfl⟩
    simp only [ratioOfPieces?, optionalRun?_eq_some_iff.2 ⟨w, rfl, rfl, rfl⟩,
      optionalRun?_eq_some_iff.2 ⟨f, rfl, rfl, rfl⟩, exponentOf?_eq_some_iff.2 ⟨x, rfl, rfl⟩,
      tensRatio_pieces]

theorem Run.eq_none_of_charsOf {r : Option Run} (h : Run.charsOf r = []) : r = none := by
  cases r with
  | none => rfl
  | some r => exact absurd h r.isRun.ne_nil

/-- What is cut at the point is a run without a point, or a point and a run. -/
theorem exists_point {f : Option Run} (h : Run.charsOf f = (splitPoint cs).1) :
    ∃ p : Option (Option Run), p.join = f ∧
      Mantissa.pointChars p ++ (splitPoint cs).2 = cs := by
  unfold splitPoint at h ⊢
  split at h
  · next rest =>
    refine ⟨some f, rfl, ?_⟩
    show '.' :: (Run.charsOf f ++ rest.dropWhile inRun) = _
    rw [h, List.takeWhile_append_dropWhile]
  · exact ⟨none, (Run.eq_none_of_charsOf h).symm, rfl⟩

/-- A number that begins has a run before or behind its point. -/
theorem pieces_ne_nil (h : startsNumber cs = true) :
    cs.takeWhile inRun ≠ [] ∨ (splitPoint (cs.dropWhile inRun)).1 ≠ [] := by
  have htake {c : Char} (hc : (decimalValue? c).isSome = true) (rest : List Char) :
      (c :: rest).takeWhile inRun ≠ [] := by
    rw [List.takeWhile_cons_of_pos (by rw [inRun, hc, Bool.or_true])]
    exact List.cons_ne_nil _ _
  unfold startsNumber at h
  split at h
  · exact .inr (htake h _)
  · exact .inl (htake h _)
  · cases h

theorem Mantissa.startsNumber_append (m : Mantissa) (rest : List Char) :
    startsNumber (m.chars ++ rest) = true := by
  obtain ⟨whole, fraction, hfilled⟩ := m
  cases whole with
  | some r =>
    rw [Mantissa.chars, List.append_assoc]
    exact r.startsNumber_append _
  | none =>
    obtain ⟨r, hr⟩ := Option.ne_none_iff_exists'.1 (hfilled.resolve_left fun h => h rfl)
    obtain rfl : fraction = some (some r) := Option.join_eq_some_iff.1 hr
    obtain ⟨c, cs, hcs, hc⟩ := r.isRun.exists_head
    show startsNumber ('.' :: (r.chars ++ rest)) = true
    rw [hcs]
    exact hc

/-- A run is cut off before what cannot stand in it. -/
theorem span_run {r rest : List Char} (hr : ∀ c ∈ r, inRun c = true)
    (hrest : rest.takeWhile inRun = []) :
    (r ++ rest).takeWhile inRun = r ∧ (r ++ rest).dropWhile inRun = rest := by
  have hsplit := List.takeWhile_append_dropWhile (p := inRun) (l := rest)
  rw [hrest, List.nil_append] at hsplit
  rw [List.takeWhile_append_of_pos hr, List.dropWhile_append_of_pos hr, hrest, hsplit,
    List.append_nil]
  exact ⟨rfl, rfl⟩

theorem takeWhile_exponent (x : Option Exponent) : (Exponent.charsOf x).takeWhile inRun = [] := by
  cases x with
  | none => rfl
  | some x =>
    have hletter : inRun x.letter = false := by rcases x.isLetter with h | h <;> rw [h] <;> decide
    exact List.takeWhile_cons_of_neg (by simp [hletter])

theorem splitPoint_append (p : Option (Option Run)) (x : Option Exponent) :
    splitPoint (Mantissa.pointChars p ++ Exponent.charsOf x)
      = (Run.charsOf p.join, Exponent.charsOf x) := by
  cases p with
  | some r =>
    obtain ⟨htake, hdrop⟩ := span_run (Run.inRun_of_mem_charsOf r) (takeWhile_exponent x)
    show ((Run.charsOf r ++ Exponent.charsOf x).takeWhile inRun, _) = _
    rw [htake]
    exact congrArg (Run.charsOf r, ·) hdrop
  | none =>
    cases x with
    | none => rfl
    | some x =>
      show splitPoint (x.letter :: x.number.chars) = ([], x.letter :: x.number.chars)
      rcases x.isLetter with h | h <;> rw [h] <;> rfl

theorem DecimalLiteral.readRatio?_chars (l : DecimalLiteral) :
    readRatio? l.chars = some l.value := by
  have hstart : startsNumber l.unsigned = true := l.mantissa.startsNumber_append _
  have hsign : signOf (trim l.chars) = (l.sign.isMinus, l.unsigned) := by
    rw [l.trim_chars, signOf_append l.sign hstart]
  have hpoint : (Mantissa.pointChars l.mantissa.fraction ++ Exponent.charsOf l.exponent).takeWhile
      inRun = [] := by
    cases l.mantissa.fraction with
    | none => exact takeWhile_exponent l.exponent
    | some r => exact List.takeWhile_cons_of_neg (by decide)
  obtain ⟨htake, hdrop⟩ := span_run (Run.inRun_of_mem_charsOf l.mantissa.whole) hpoint
  rw [← List.append_assoc, ← Mantissa.chars, ← DecimalLiteral.unsigned] at htake hdrop
  rw [readRatio?_eq_pieces hsign, if_pos hstart, htake, hdrop, splitPoint_append]
  exact ratioOfPieces?_eq_some_iff.2 ⟨_, _, _, rfl, rfl, rfl, rfl⟩

/-- A quotient is read from the decimal literals and nothing else. -/
theorem readRatio?_eq_some_iff {q : ℚ} :
    readRatio? cs = some q ↔ ∃ l : DecimalLiteral, l.chars = cs ∧ l.value = q := by
  constructor
  · intro h
    obtain ⟨s, hs, hcs⟩ := exists_signOf (trim cs)
    obtain ⟨us, hus⟩ : ∃ us, us = (signOf (trim cs)).2 := ⟨_, rfl⟩
    have hsign : signOf (trim cs) = (s.isMinus, us) := by rw [hs, hus]
    rw [readRatio?_eq_pieces hsign] at h
    split at h
    · next hstart =>
      obtain ⟨w, f, x, hw, hf, hx, hq⟩ := ratioOfPieces?_eq_some_iff.1 h
      obtain ⟨p, rfl, hp⟩ := exists_point hf
      have hfilled : w ≠ none ∨ p.join ≠ none := by
        refine (pieces_ne_nil hstart).imp (mt ?_) (mt ?_)
        · rintro rfl; exact hw.symm
        · intro hnone; rw [← hf, hnone]; rfl
      obtain ⟨before, after, hblanks, htrim⟩ := exists_trimOf isBlank cs
      refine ⟨⟨before, s, ⟨w, p, hfilled⟩, x, after, hblanks⟩, ?_, hq⟩
      have hunsigned : Run.charsOf w ++ Mantissa.pointChars p ++ Exponent.charsOf x = us := by
        rw [List.append_assoc, hx, hp, hw, List.takeWhile_append_dropWhile]
      rw [DecimalLiteral.chars, DecimalLiteral.unsigned, Mantissa.chars, hunsigned, hus, hcs]
      exact htrim
    · cases h
  · rintro ⟨l, rfl, rfl⟩
    exact l.readRatio?_chars

/-! ## no literal holds a slash -/

theorem notMem_of_forall {p : Char → Bool} (h : ∀ c ∈ cs, p c = true) (hc : p c = false) :
    c ∉ cs := by
  intro hmem
  rw [h c hmem] at hc
  cases hc

theorem IntegerLiteral.slash_notMem (l : IntegerLiteral) : '/' ∉ l.chars := by
  obtain ⟨hbefore, hafter⟩ := List.forall_mem_append.1 l.spaces
  simp only [IntegerLiteral.chars, List.mem_append, not_or]
  exact ⟨⟨notMem_of_forall hbefore (by decide),
    notMem_of_forall l.number.inNumber_of_mem (by decide)⟩, notMem_of_forall hafter (by decide)⟩

theorem DecimalLiteral.slash_notMem (l : DecimalLiteral) : '/' ∉ l.chars := by
  obtain ⟨hbefore, hafter⟩ := List.forall_mem_append.1 l.blanks
  rw [DecimalLiteral.chars, List.mem_append, List.mem_append, not_or, not_or]
  exact ⟨⟨notMem_of_forall hbefore (by decide),
    notMem_of_forall l.inNumber_of_mem (by decide)⟩, notMem_of_forall hafter (by decide)⟩

end Storyboard.Number
