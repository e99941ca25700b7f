import Storyboard.Proofs.Number.Numeral
import Storyboard.Value.Time

/-!
# Storyboard.Proofs.Value.Rate

Frame rates as text.  A quotient is written as one integer, or as two with a slash between them,
and such a text is read back as the quotient:

* `readRatio?_of_digits` — a run of digits is read as a number;
* `readRate?_ratioText` — a rate that is written is read back.
-/

namespace Storyboard

open Number Text

namespace Number

variable {cs : List Char}

theorem signOf_trim_of_digits (h : ∀ c ∈ cs, c.isDigit = true) :
    signOf (trim cs) = (false, cs) := by
  rw [Numeral.trim_of_inText fun c hc => .inl (h c hc), signOf_of_digits h]

theorem inRun_of_isDigit {c : Char} (h : c.isDigit = true) : inRun c = true := by
  simp [inRun, decimalValue?_of_isDigit h]

theorem startsNumber_of_digits (hne : cs ≠ []) (h : ∀ c ∈ cs, c.isDigit = true) :
    startsNumber cs = true := by
  unfold startsNumber
  split
  · exact absurd (h _ List.mem_cons_self) (by decide)
  · simp [decimalValue?_of_isDigit (h _ List.mem_cons_self)]
  · exact absurd rfl hne

/-- A run that is read as a natural number counts as much in a longer number. -/
theorem optionalRun?_of_readNatural? {n : Nat} (hne : cs ≠ []) (h : readNatural? cs = some n) :
    ∃ places, optionalRun? cs = some (n, places) := by
  obtain ⟨ds, hds, h⟩ := Option.bind_eq_some_iff.1 h
  split at h
  · cases h
  · next hlimit =>
    obtain rfl := Option.some.inj h
    exact ⟨ds.length, by simp [optionalRun?, hne, hds, hlimit]⟩

theorem readRatio?_of_digits {n : Nat} (hne : cs ≠ []) (h : ∀ c ∈ cs, c.isDigit = true)
    (hn : readNatural? cs = some n) : readRatio? cs = some n := by
  have hrun : ∀ c ∈ cs, inRun c = true := fun c hc => inRun_of_isDigit (h c hc)
  have hnothing : optionalRun? [] = some (0, 0) := rfl
  obtain ⟨places, hwhole⟩ := optionalRun?_of_readNatural? hne hn
  simp [readRatio?, signOf_trim_of_digits h, startsNumber_of_digits hne h,
    List.takeWhile_eq_self_iff.2 hrun, List.dropWhile_eq_nil_iff.2 hrun, hwhole, hnothing,
    exponentOf?, tensRatio, Decimal.withSign, tens]

/-! ## a rate as text -/

theorem slash_notMem_natRepr (n : Nat) : '/' ∉ n.repr.toList := by
  intro h
  exact absurd (isDigit_of_mem_repr h) (by decide)

theorem readRate?_natRepr {n : Nat} (h : n < tens digitLimit) :
    Value.readRate? n.repr = some (n : Rat) := by
  have hsplit : n.repr.toList.splitOn '/' = [n.repr.toList] :=
    List.splitOn_eq_singleton (slash_notMem_natRepr n)
  rw [Value.readRate?, hsplit]
  exact readRatio?_of_digits (toList_repr_ne_nil n) (fun c hc => isDigit_of_mem_repr hc)
    (readNatural?_repr h)

theorem readRate?_natRepr_slash {n d : Nat} (hn : n < tens digitLimit) (hd : d < tens digitLimit)
    (hne : d ≠ 0) : Value.readRate? (n.repr ++ "/" ++ d.repr) = some ((n : Rat) / d) := by
  have hsplit : (n.repr ++ "/" ++ d.repr).toList.splitOn '/' = [n.repr.toList, d.repr.toList] := by
    have hnone : ∀ cs ∈ [n.repr.toList, d.repr.toList], '/' ∉ cs := by
      simp only [List.forall_mem_cons, slash_notMem_natRepr, not_false_eq_true, true_and]
      exact List.forall_mem_nil _
    have hjoin := List.splitOn_intercalate '/' hnone (List.cons_ne_nil _ _)
    simpa [List.intercalate, -Nat.toList_repr] using hjoin
  have hread {m : Nat} (hm : m < tens digitLimit) : readInteger? m.repr.toList = some (m : Int) :=
    readInteger?_of_digits (fun c hc => isDigit_of_mem_repr hc) (readNatural?_repr hm)
  rw [Value.readRate?, hsplit]
  simp [-Nat.toList_repr, hread hn, hread hd, hne]

/-- A rate above zero that is written is read back. -/
theorem readRate?_ratioText {q : Rat} {s : String} (hq : 0 < q) (h : ratioText q = .ok s) :
    Value.readRate? s = some q := by
  obtain ⟨n, hn⟩ := Int.eq_ofNat_of_zero_le (Rat.num_pos.2 hq).le
  obtain ⟨whole, hwhole, h⟩ := bind_eq_ok.1 h
  obtain ⟨hshort, rfl⟩ := integerText_eq_ok.1 hwhole
  rw [hn] at hshort
  have hvalue : (n : Rat) / q.den = q := by
    rw [← Int.cast_natCast, ← hn, Rat.num_div_den]
  split at h
  · next hone =>
    obtain rfl := pure_eq_ok.1 h
    rw [hn]
    rw [hone, Nat.cast_one, div_one] at hvalue
    exact (readRate?_natRepr hshort).trans (congrArg some hvalue)
  · obtain ⟨under, hunder, h⟩ := bind_eq_ok.1 h
    obtain ⟨hden, rfl⟩ := integerText_eq_ok.1 hunder
    obtain rfl := pure_eq_ok.1 h
    rw [hn]
    exact (readRate?_natRepr_slash hshort hden q.den_nz).trans (congrArg some hvalue)

end Number

end Storyboard
