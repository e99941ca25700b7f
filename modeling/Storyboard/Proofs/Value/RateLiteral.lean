import Storyboard.Proofs.Number.Literal
import Storyboard.Value.Time

/-!
# Storyboard.Proofs.Value.RateLiteral

The texts that are frame rates.  A rate is denoted by an integer literal, a slash and an integer
literal that is not zero, or by a decimal literal; `DenotesRate` says so without reading anything.
A text with one slash or none is read exactly if it denotes a rate.  What follows a second slash is
not read, so that any text at all may stand there:

* `readRate?_eq_some_iff` — which texts are read, and as what.
-/

namespace Storyboard

open Number

/-- A text, from end to end, is a rate. -/
inductive DenotesRate : List Char → ℚ → Prop
  | quotient (n d : IntegerLiteral) (hd : d.value ≠ 0) :
      DenotesRate (n.chars ++ '/' :: d.chars) ((n.value : ℚ) / d.value)
  | decimal (l : DecimalLiteral) : DenotesRate l.chars l.value

variable {s : String} {q : ℚ} {cs : List Char}

/-- No rate has two slashes. -/
theorem DenotesRate.count_slash_le (h : DenotesRate cs q) : cs.count '/' ≤ 1 := by
  cases h with
  | quotient n d =>
    rw [List.count_append, List.count_cons_self, List.count_eq_zero.2 n.slash_notMem,
      List.count_eq_zero.2 d.slash_notMem]
  | decimal l =>
    rw [List.count_eq_zero.2 l.slash_notMem]
    exact Nat.zero_le 1

/-- A rate that has a slash is a quotient of the literals before and behind it. -/
theorem DenotesRate.exists_quotient (h : DenotesRate cs q) (hslash : '/' ∈ cs) :
    ∃ n d : IntegerLiteral, d.value ≠ 0 ∧ cs = n.chars ++ '/' :: d.chars ∧
      (n.value : ℚ) / d.value = q := by
  cases h with
  | quotient n d hd => exact ⟨n, d, hd, rfl, rfl⟩
  | decimal l => exact absurd hslash l.slash_notMem

/-- A rate that has no slash is a decimal. -/
theorem DenotesRate.exists_decimal (h : DenotesRate cs q) (hslash : '/' ∉ cs) :
    ∃ l : DecimalLiteral, l.chars = cs ∧ l.value = q := by
  cases h with
  | quotient n d hd => exact absurd (List.mem_append_right _ List.mem_cons_self) hslash
  | decimal l => exact ⟨l, rfl, rfl⟩

/-! ## reading the pieces between slashes -/

namespace Value

/-- The quotient of two texts that are integers. -/
def quotient? (n d : List Char) : Option Rat :=
  match readInteger? n, readInteger? d with
  | some n, some d => if d = 0 then none else some ((n : Rat) / (d : Rat))
  | _, _ => none

theorem quotient?_eq_some_iff {n d : List Char} :
    quotient? n d = some q ↔
      ∃ ln ld : IntegerLiteral, ln.chars = n ∧ ld.chars = d ∧ ld.value ≠ 0 ∧
        (ln.value : ℚ) / ld.value = q := by
  constructor
  · intro h
    unfold quotient? at h
    split at h
    · next hnumerator hdenominator =>
      obtain ⟨ln, hn, rfl⟩ := readInteger?_eq_some_iff.1 hnumerator
      obtain ⟨ld, hd, rfl⟩ := readInteger?_eq_some_iff.1 hdenominator
      split at h
      · cases h
      · next hne => exact ⟨ln, ld, hn, hd, hne, Option.some.inj h⟩
    · cases h
  · rintro ⟨ln, ld, rfl, rfl, hne, rfl⟩
    simp only [quotient?, readInteger?_eq_some_iff.2 ⟨ln, rfl, rfl⟩,
      readInteger?_eq_some_iff.2 ⟨ld, rfl, rfl⟩, if_neg hne]

theorem readRate?_of_no_slash (h : '/' ∉ s.toList) : readRate? s = readRatio? s.toList := by
  rw [readRate?, List.splitOn_eq_singleton h]

/-- A text with one slash is the quotient of what stands on its sides. -/
theorem readRate?_of_slash {n d : List Char} (hs : s.toList = n ++ '/' :: d) (hn : '/' ∉ n)
    (hd : '/' ∉ d) : readRate? s = quotient? n d := by
  rw [readRate?, hs, List.splitOn_append_cons_self_of_not_mem hn, List.splitOn_eq_singleton hd]
  rfl

/-- Of a text with more slashes only what stands before the second one is read. -/
theorem readRate?_of_slashes {n d rest : List Char} (hs : s.toList = n ++ '/' :: (d ++ '/' :: rest))
    (hn : '/' ∉ n) (hd : '/' ∉ d) : readRate? s = quotient? n d := by
  rw [readRate?, hs, List.splitOn_append_cons_self_of_not_mem hn,
    List.splitOn_append_cons_self_of_not_mem hd]
  rfl

end Value

/-- A text is read as a rate if it denotes the rate, or if it does before its second slash. -/
theorem readRate?_eq_some_iff :
    Value.readRate? s = some q ↔
      DenotesRate s.toList q ∨
        ∃ before rest, s.toList = before ++ '/' :: rest ∧ '/' ∈ before ∧
          DenotesRate before q := by
  constructor
  · intro h
    by_cases hslash : '/' ∈ s.toList
    · obtain ⟨n, tail, hs, hn⟩ := List.eq_append_cons_of_mem hslash
      by_cases hmore : '/' ∈ tail
      · obtain ⟨d, rest, rfl, hd⟩ := List.eq_append_cons_of_mem hmore
        rw [Value.readRate?_of_slashes hs hn hd, Value.quotient?_eq_some_iff] at h
        obtain ⟨ln, ld, rfl, rfl, hne, rfl⟩ := h
        refine .inr ⟨_, rest, ?_, ?_, .quotient ln ld hne⟩
        · rw [hs, List.append_assoc, List.cons_append]
        · exact List.mem_append_right _ List.mem_cons_self
      · rw [Value.readRate?_of_slash hs hn hmore, Value.quotient?_eq_some_iff] at h
        obtain ⟨ln, ld, rfl, rfl, hne, rfl⟩ := h
        rw [hs]
        exact .inl (.quotient ln ld hne)
    · rw [Value.readRate?_of_no_slash hslash, readRatio?_eq_some_iff] at h
      obtain ⟨l, hl, rfl⟩ := h
      rw [← hl]
      exact .inl (.decimal l)
  · rintro (h | ⟨before, rest, hs, hslash, h⟩)
    · by_cases hslash : '/' ∈ s.toList
      · obtain ⟨n, d, hne, hs, rfl⟩ := h.exists_quotient hslash
        rw [Value.readRate?_of_slash hs n.slash_notMem d.slash_notMem]
        exact Value.quotient?_eq_some_iff.2 ⟨n, d, rfl, rfl, hne, rfl⟩
      · obtain ⟨l, hl, rfl⟩ := h.exists_decimal hslash
        rw [Value.readRate?_of_no_slash hslash]
        exact readRatio?_eq_some_iff.2 ⟨l, hl, rfl⟩
    · obtain ⟨n, d, hne, rfl, rfl⟩ := h.exists_quotient hslash
      rw [List.append_assoc, List.cons_append] at hs
      rw [Value.readRate?_of_slashes hs n.slash_notMem d.slash_notMem]
      exact Value.quotient?_eq_some_iff.2 ⟨n, d, rfl, rfl, hne, rfl⟩

/-! ## the rate of a text -/

namespace Value

theorem toRate_eq_ok : (text s).toRate = .ok q ↔ readRate? s = some q := by
  rw [toRate]
  cases readRate? s <;> simp

theorem toRate_eq_error :
    (text s).toRate = .error (.refused (.rateUnreadable s)) ↔ readRate? s = none := by
  rw [toRate]
  cases readRate? s <;> simp

/-- A text is a rate, and then the number that it denotes up to a second slash, or it is refused
by name.  Up to one slash nothing of it is left out. -/
theorem toRate_text (s : String) :
    (∀ q, (text s).toRate = .ok q ↔
      DenotesRate s.toList q ∨
        ∃ before rest, s.toList = before ++ '/' :: rest ∧ '/' ∈ before ∧ DenotesRate before q) ∧
    ((∀ q, (text s).toRate ≠ .ok q) →
      (text s).toRate = .error (.refused (.rateUnreadable s)) ∧
      (Refusal.rateUnreadable s).message = "output.fps is not a valid rate: " ++ s) ∧
    (s.toList.count '/' ≤ 1 → ∀ q, (text s).toRate = .ok q ↔ DenotesRate s.toList q) := by
  refine ⟨fun q => toRate_eq_ok.trans readRate?_eq_some_iff, fun hnone => ⟨?_, rfl⟩,
    fun hcount q => toRate_eq_ok.trans (readRate?_eq_some_iff.trans (or_iff_left ?_))⟩
  · exact toRate_eq_error.2 (Option.eq_none_iff_forall_ne_some.2 fun q => mt toRate_eq_ok.2 (hnone q))
  · rintro ⟨before, rest, hs, hslash, -⟩
    rw [hs, List.count_append, List.count_cons_self] at hcount
    have := List.count_pos_iff.2 hslash
    omega

/-- The frame rate of colour television, exactly. -/
theorem toRate_television :
    (text "30000/1001").toRate = .ok (30000 / 1001) ∧
      DenotesRate "30000/1001".toList (30000 / 1001) := by
  have hread : (text "30000/1001").toRate = .ok (30000 / 1001) := by decide +kernel
  exact ⟨hread, ((toRate_text "30000/1001").2.2 (by decide) _).1 hread⟩

/-- A seven behind a second slash is not seen. -/
theorem toRate_thirtieth :
    (text "30/1/7").toRate = .ok 30 ∧ ∀ q, ¬ DenotesRate "30/1/7".toList q := by
  refine ⟨by decide +kernel, fun q h => ?_⟩
  have hcount : "30/1/7".toList.count '/' = 2 := by decide
  have := h.count_slash_le
  omega

end Value

end Storyboard
