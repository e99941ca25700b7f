/-!
# Storyboard.Text.Surrogate

Halves of surrogate pairs.  A document may name one by its code, though it is no character
and no file can hold it.  In a text such a half is kept as the private character whose last
sixteen bits are the code, so that it can be carried, counted and written as an escape like
any other character.

The characters U+10D800 to U+10DFFF are lent to the halves in this way.  Where one of them
is meant itself, it is spelled by two characters: a mark, U+10E000, and the character one
plane before.  The mark itself is spelled so too.  What comes in from a file, from an escape
or from the command line is spelled, and what goes out is spelled no more.

* `codes_flatMap_ofCode` — the codes that a text was spelled from are not lost;
* `plain_spell` — a text that is spelled goes out as it came in;
* `hasHalf_spell` — and has no half in it, whatever its characters are.
-/

namespace Storyboard.Text

/-! ## halves -/

/-- The codes of halves of surrogate pairs. -/
def isHalfCode (n : Nat) : Bool := decide (0xD800 ≤ n ∧ n ≤ 0xDFFF)

/-- The character that stands for the half with a code. -/
def ofHalf (n : Nat) : Char := Char.ofNat (0x100000 + n)

/-- Whether a character of a text stands for half of a surrogate pair. -/
def isHalf (c : Char) : Bool := decide (0x10D800 ≤ c.toNat ∧ c.toNat ≤ 0x10DFFF)

/-- Whether a half stands for a byte by itself, which the name of a file may hold. -/
def isByte (c : Char) : Bool := decide (0x10DC80 ≤ c.toNat ∧ c.toNat ≤ 0x10DCFF)

/-- Whether a text has half of a surrogate pair in it. -/
def hasHalf (s : String) : Bool := s.toList.any isHalf

/-- The code that a character by itself stands for. -/
def code (c : Char) : Nat := if isHalf c then c.toNat - 0x100000 else c.toNat

/-! ## spelling -/

/-- What stands in front of a character that is not meant itself. -/
def mark : Char := Char.ofNat 0x10E000

/-- Whether a character is spelled by two: it is lent to a half, or the mark. -/
def isLent (c : Char) : Bool := decide (0x10D800 ≤ c.toNat ∧ c.toNat ≤ 0x10E000)

/-- The private character one plane before. -/
def moved (c : Char) : Char := Char.ofNat (c.toNat - 0x10000)

/-- A character as it is spelled in a text. -/
def spelled (c : Char) : List Char := if isLent c then [mark, moved c] else [c]

/-- A code as it is spelled in a text: a half, or a character. -/
def ofCode (n : Nat) : List Char := if isHalfCode n then [ofHalf n] else spelled (Char.ofNat n)

/-- The codes that the characters of a text spell. -/
def codes : List Char → List Nat
  | [] => []
  | [c] => [code c]
  | c :: d :: cs => if c = mark then (d.toNat + 0x10000) :: codes cs else code c :: codes (d :: cs)

/-- The text that spells characters. -/
def spell (s : String) : String := String.ofList (s.toList.flatMap spelled)

/-- The characters that a text without halves spells. -/
def plain (s : String) : String := String.ofList ((codes s.toList).map Char.ofNat)

theorem hasHalf_append (s t : String) : hasHalf (s ++ t) = (hasHalf s || hasHalf t) := by
  rw [hasHalf, String.toList_append, List.any_append]
  rfl

/-- Texts of other characters have no half. -/
theorem hasHalf_of_forall_lt {s : String} (h : ∀ c ∈ s.toList, c.toNat < 0x10D800) :
    hasHalf s = false := by
  rw [hasHalf, List.any_eq_false]
  intro c hc
  have := h c hc
  simp only [isHalf, decide_eq_true_eq]
  omega

theorem toNat_ofNat {n : Nat} (h : n.isValidChar) : (Char.ofNat n).toNat = n := by
  rw [Char.ofNat, dif_pos h]
  rfl

theorem toNat_ofHalf {n : Nat} (h : isHalfCode n = true) : (ofHalf n).toNat = 0x100000 + n := by
  simp only [isHalfCode, decide_eq_true_eq] at h
  exact toNat_ofNat (.inr ⟨by omega, by omega⟩)

theorem code_ofHalf {n : Nat} (h : isHalfCode n = true) : code (ofHalf n) = n := by
  have hn := toNat_ofHalf h
  simp only [isHalfCode, decide_eq_true_eq] at h
  simp only [code, isHalf, hn, decide_eq_true_eq]
  split <;> omega

theorem toNat_mark : mark.toNat = 0x10E000 := rfl

theorem toNat_moved {c : Char} (h : isLent c = true) : (moved c).toNat = c.toNat - 0x10000 := by
  simp only [isLent, decide_eq_true_eq] at h
  exact toNat_ofNat (.inr ⟨by omega, by omega⟩)

theorem isHalf_of_isLent {c : Char} (h : isLent c = false) : isHalf c = false := by
  simp only [isLent, isHalf, decide_eq_false_iff_not] at h ⊢
  omega

theorem ne_mark_of_isLent {c : Char} (h : isLent c = false) : c ≠ mark := by
  rintro rfl
  rw [isLent, toNat_mark] at h
  cases h

theorem codes_cons {c : Char} (h : c ≠ mark) (cs : List Char) :
    codes (c :: cs) = code c :: codes cs := by
  cases cs with
  | nil => rfl
  | cons d cs => rw [codes, if_neg h]

theorem codes_spelled (c : Char) (cs : List Char) :
    codes (spelled c ++ cs) = c.toNat :: codes cs := by
  unfold spelled
  cases h : isLent c with
  | true =>
    have hlent := h
    simp only [isLent, decide_eq_true_eq] at hlent
    have hc : c.toNat - 0x10000 + 0x10000 = c.toNat := by omega
    rw [if_pos rfl, List.cons_append, List.singleton_append, codes, if_pos rfl, toNat_moved h, hc]
  | false =>
    rw [if_neg Bool.false_ne_true, List.singleton_append, codes_cons (ne_mark_of_isLent h), code,
      isHalf_of_isLent h]
    rfl

theorem codes_ofCode {n : Nat} (h : n < 0x110000) (cs : List Char) :
    codes (ofCode n ++ cs) = n :: codes cs := by
  unfold ofCode
  split
  · next hhalf =>
    have hmark : ofHalf n ≠ mark := by
      intro heq
      have hn := (toNat_ofHalf hhalf).symm.trans (congrArg Char.toNat heq)
      rw [toNat_mark] at hn
      simp only [isHalfCode, decide_eq_true_eq] at hhalf
      omega
    rw [List.singleton_append, codes_cons hmark, code_ofHalf hhalf]
  · next hhalf =>
    have hvalid : n.isValidChar := by
      simp only [isHalfCode, decide_eq_true_eq] at hhalf
      simp only [Nat.isValidChar]
      omega
    rw [codes_spelled, toNat_ofNat hvalid]

/-- The codes that a text is spelled from are not lost. -/
theorem codes_flatMap_ofCode {ns : List Nat} (h : ∀ n ∈ ns, n < 0x110000) :
    codes (ns.flatMap ofCode) = ns := by
  induction ns with
  | nil => rfl
  | cons n ns ih =>
    obtain ⟨hn, hns⟩ := List.forall_mem_cons.1 h
    rw [List.flatMap_cons, codes_ofCode hn, ih hns]

/-- A text goes out as it came in. -/
theorem plain_spell (s : String) : plain (spell s) = s := by
  have hcodes (cs : List Char) : (codes (cs.flatMap spelled)).map Char.ofNat = cs := by
    induction cs with
    | nil => rfl
    | cons c cs ih => rw [List.flatMap_cons, codes_spelled, List.map_cons, ih, Char.ofNat_toNat]
  rw [plain, spell, String.toList_ofList, hcodes, String.ofList_toList]

theorem isHalf_of_mem_spelled {c d : Char} (h : d ∈ spelled c) : isHalf d = false := by
  unfold spelled at h
  split at h
  · next hlent =>
    have hmoved := toNat_moved hlent
    simp only [isLent, decide_eq_true_eq] at hlent
    simp only [isHalf, decide_eq_false_iff_not]
    rw [List.mem_cons, List.mem_singleton] at h
    obtain hd | hd := h
    · rw [hd, toNat_mark]
      omega
    · rw [hd, hmoved]
      omega
  · next hlent =>
    rw [List.mem_singleton.1 h]
    exact isHalf_of_isLent (Bool.eq_false_iff.2 hlent)

/-- Characters are no halves, whichever they are. -/
theorem hasHalf_spell (s : String) : hasHalf (spell s) = false := by
  rw [hasHalf, spell, String.toList_ofList, List.any_flatMap, List.any_eq_false]
  intro c _
  rw [Bool.not_eq_true, List.any_eq_false]
  intro d hd
  rw [isHalf_of_mem_spelled hd]
  exact Bool.false_ne_true

end Storyboard.Text
