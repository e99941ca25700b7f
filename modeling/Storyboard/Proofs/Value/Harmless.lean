import Storyboard.Proofs.Graph.Harmless
import Storyboard.Proofs.Number.Digits
import Storyboard.Proofs.Spec.Accepted
import Storyboard.Proofs.Value.Writable

/-!
# Storyboard.Proofs.Value.Harmless

Values as harmless text.  The numbers and colors of an accepted specification are written
without anything that separates or protects, so wherever they stand in a filter they end
nothing and open nothing.

* `Decimal.harmless_shortText`, `Value.IsNumber.harmless_optionText` — numbers;
* `Color.harmless_of_isColor` — colors.
-/

namespace Storyboard

open Storyboard.Graph Number Spec.Field

/-! ## numbers -/

namespace Number

variable {t : String}

theorem harmless_natRepr (n : Nat) : Harmless n.repr.toList := by
  intro c hc
  exact isHarmless_of_class (isDigit_of_mem_repr hc) (by decide)

theorem harmless_repr (i : Int) : Harmless i.repr.toList := by
  intro c hc
  exact isHarmless_of_class (inInteger_of_mem_repr hc) (by decide)

theorem harmless_integerText {i : Int} (h : integerText i = .ok t) : Harmless t.toList := by
  unfold integerText at h
  split at h
  · obtain rfl := Except.ok.inj h
    exact harmless_repr i
  · cases h

theorem harmless_ratioText {q : Rat} (h : ratioText q = .ok t) : Harmless t.toList := by
  obtain ⟨whole, hwhole, h⟩ := bind_eq_ok.1 h
  split at h
  · obtain rfl := pure_eq_ok.1 h
    exact harmless_integerText hwhole
  · obtain ⟨part, hpart, h⟩ := bind_eq_ok.1 h
    obtain rfl := pure_eq_ok.1 h
    rw [String.toList_append, String.toList_append]
    exact ((harmless_integerText hwhole).append (by decide)).append (harmless_integerText hpart)

end Number

namespace Decimal

theorem harmless_signText (negative : Bool) : Harmless (signText negative).toList := by
  cases negative <;> decide

theorem harmless_fractionDigits (m : Nat) : Harmless (fractionDigits m) := by
  intro c hc
  have hall := (List.dropWhile_sublist _).subset (List.mem_reverse.1 hc)
  rw [List.mem_reverse, List.mem_append] at hall
  cases hall with
  | inl hall =>
      obtain rfl := List.eq_of_mem_replicate hall
      decide
  | inr hall => exact harmless_natRepr m c hall

theorem harmless_millionthsText (negative : Bool) (m : Nat) :
    Harmless (millionthsText negative m).toList := by
  have hwhole := (harmless_signText (negative && m != 0)).append
    (harmless_natRepr (m / tens places))
  have hfraction := harmless_fractionDigits (m % tens places)
  unfold millionthsText
  dsimp only
  generalize fractionDigits (m % tens places) = digits at hfraction ⊢
  rw [String.toList_append, String.toList_append]
  refine hwhole.append ?_
  split
  · decide
  · have hpoint : Harmless ".".toList := by decide
    have hdigits : Harmless (String.ofList digits).toList := by rwa [String.toList_ofList]
    rw [String.toList_append]
    exact hpoint.append hdigits

/-- A number in short form is harmless; so are the infinities and the NaNs. -/
theorem harmless_shortText (d : Decimal) : Harmless d.shortText.toList := by
  cases d with
  | finite negative c e => exact harmless_millionthsText negative _
  | infinite negative =>
    have htext : (infinite negative).shortText = signText negative ++ "Infinity" := rfl
    rw [htext, String.toList_append]
    exact (harmless_signText negative).append (by decide)
  | nan negative signaling payload =>
    have hname : Harmless (if signaling then "sNaN" else "NaN").toList := by
      cases signaling <;> decide
    have hpayload : Harmless (if payload = 0 then "" else payload.repr).toList := by
      split
      · decide
      · exact harmless_natRepr payload
    have htext : (nan negative signaling payload).shortText = signText negative
        ++ (if signaling then "sNaN" else "NaN") ++ (if payload = 0 then "" else payload.repr) :=
      rfl
    rw [htext, String.toList_append, String.toList_append]
    exact ((harmless_signText negative).append hname).append hpayload

end Decimal

namespace Value

variable {v : Value} {t : String} {range : Range}

theorem harmless_numberText (h : v.numberText = .ok t) : Harmless t.toList := by
  obtain ⟨d, -, -, rfl⟩ := numberText_eq_ok.1 h
  exact d.harmless_shortText

/-- A number of one of the kinds that a specification may hold. -/
inductive IsNumber : Value → Prop
  | int (i : Int) : IsNumber (.int i)
  | float (x : Double) : IsNumber (.float x)
  | ratio (q : Rat) : IsNumber (.ratio q)

theorem IsNumber.harmless_optionText (hv : v.IsNumber) (h : v.optionText = .ok t) :
    Harmless t.toList := by
  cases hv with
  | int i => exact harmless_numberText h
  | float x => exact harmless_numberText h
  | ratio q => exact harmless_ratioText h

end Value

namespace Spec.Field

variable {v : Value} {t : String} {range : Range}

theorem InRange.isNumber (h : InRange range v) : v.IsNumber := by
  obtain ⟨x, hx, -⟩ := h
  cases v with
  | int i => exact .int i
  | float x => exact .float x
  | _ => exact absurd hx (by simp [number?])

theorem WholeInRange.isNumber (h : WholeInRange range v) : v.IsNumber := by
  obtain ⟨i, rfl, -⟩ := h
  exact .int i

theorem WholeInRange.harmless_plainText (h : WholeInRange range v) (ht : v.plainText = .ok t) :
    Harmless t.toList := by
  obtain ⟨i, rfl, -⟩ := h
  rw [Value.plainText_int] at ht
  exact harmless_integerText ht

theorem IsRate.isNumber (h : IsRate v) : v.IsNumber := by
  rcases h with ⟨q, rfl, -⟩ | h
  · exact .ratio q
  · exact h.isNumber

end Spec.Field

/-! ## colors -/

namespace Color

open Text

/-- A character of a text is one of those before its line end, or the line end. -/
theorem mem_dropLineEnd {c : Char} {cs : List Char} (h : c ∈ cs) :
    c ∈ dropLineEnd cs ∨ c = '\n' := by
  unfold dropLineEnd
  split
  · next hlast =>
    obtain ⟨before, rfl⟩ := List.getLast?_eq_some_iff.1 hlast
    rwa [List.dropLast_concat, ← List.mem_singleton, ← List.mem_append]
  · exact .inl h

theorem harmless_of_isHex {s : String} (h : isHex s = true) : Harmless s.toList := by
  have hdigits {ds : List Char} (hds : ds.all isHexDigit = true) : Harmless ds := by
    intro c hc
    exact isHarmless_of_class (List.all_eq_true.1 hds c hc) (by decide)
  have hcolor : Harmless (dropLineEnd s.toList) := by
    unfold isHex at h
    dsimp only at h
    split at h
    · next ds heq =>
      rw [heq]
      exact List.forall_mem_cons.2 ⟨by decide, hdigits (Bool.and_eq_true_iff.1 h).2⟩
    · next ds heq =>
      rw [heq]
      have hds := hdigits (Bool.and_eq_true_iff.1 h).2
      exact List.forall_mem_cons.2 ⟨by decide, List.forall_mem_cons.2 ⟨by decide, hds⟩⟩
    · exact absurd h Bool.false_ne_true
  intro c hc
  rcases mem_dropLineEnd hc with hc | rfl
  · exact hcolor c hc
  · decide

/-- Whether a character can stand in a name, in any case. -/
def inName (c : Char) : Bool := (lowerChar c).isLower

/-- Names are written in small letters. -/
theorem isLower_of_mem_names : ∀ p ∈ names, p.1.toList.all Char.isLower = true := by
  decide +kernel

theorem harmless_of_named {s : String} (h : (named? s).isSome = true) : Harmless s.toList := by
  obtain ⟨p, hp, hname⟩ := List.lookup_isSome_iff.1 h
  rw [beq_iff_eq] at hname
  have hlower := isLower_of_mem_names p hp
  rw [← hname, lower, String.toList_ofList, List.all_map, List.all_eq_true] at hlower
  intro c hc
  have hname : inName c = true := hlower c hc
  exact isHarmless_of_class hname (by decide)

/-- What may be used as a color is harmless. -/
theorem harmless_of_isColor {s : String} (h : isColor s = true) : Harmless s.toList := by
  cases Bool.or_eq_true_iff.1 h with
  | inl h => exact harmless_of_isHex h
  | inr h => exact harmless_of_named h

end Color

end Storyboard
