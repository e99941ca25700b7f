import Storyboard.Json.Writer
import Storyboard.Proofs.Json.Lexeme
import Storyboard.Proofs.Number.Canonical
import Storyboard.Proofs.Number.ReadBack

/-!
# Storyboard.Proofs.Json.Number

The numbers of a JSON document: the characters that they consist of, and how the numbers are spelt
that are written.  An integer is written as its digits.  A floating-point number is written in the
fewest digits; these make up a number of the grammar, which is read as what was written.

* `Literal.mem_chars`, `Literal.inText_of_mem_magnitude` — the characters of a number;
* `Literal.value?_ofInt` — an integer that is short enough is read back;
* `exists_literal_of_isFinite` — a finite number is read back.
-/

namespace Storyboard

open Number Decimal

namespace Json

namespace Literal

variable (n : Literal)

/-! ## characters -/

theorem isDigit_of_mem_whole {c : Char} (h : c ∈ n.whole) : c.isDigit = true :=
  n.isDigit c (List.mem_append_left _ h)

theorem isDigit_of_mem_fraction {c : Char} (h : c ∈ n.fraction) : c.isDigit = true :=
  n.isDigit c (List.mem_append_right _ h)

theorem inText_of_mem_magnitude {c : Char} (h : c ∈ n.magnitude) : Numeral.InText c := by
  obtain h | h := List.mem_append.1 h
  · exact Numeral.inText_of_mem_unsigned _ h
  · cases he : n.exponent with
    | none => simp [he] at h
    | some e =>
      simp only [he, Option.elim_some, Exponent.normal, List.mem_cons, List.mem_append] at h
      obtain rfl | h | h := h
      · exact .inr (by decide)
      · obtain hs | hs | hs := e.sign_eq <;> rw [hs] at h
        · simp at h
        · obtain rfl := List.mem_singleton.1 h
          exact .inr (by decide)
        · obtain rfl := List.mem_singleton.1 h
          exact .inr (by decide)
      · exact .inl (e.isDigit c h)

theorem mem_chars {c : Char} (h : c ∈ n.chars) :
    c.isDigit = true ∨ c ∈ ['-', '+', '.', 'e', 'E'] := by
  rw [chars, List.mem_append, List.mem_append] at h
  obtain h | h | h := h
  · exact (Numeral.inText_of_mem_signText h).imp_right fun h => List.mem_append_left ['E'] h
  · exact (Numeral.inText_of_mem_unsigned _ h).imp_right fun h => List.mem_append_left ['E'] h
  · cases he : n.exponent with
    | none => simp [he] at h
    | some e =>
      simp only [he, Option.elim_some, Exponent.chars, List.mem_cons, List.mem_append] at h
      obtain rfl | h | h := h
      · exact .inr (by obtain h | h := e.letter_eq <;> simp [h])
      · exact .inr (by obtain hs | hs | hs := e.sign_eq <;> rw [hs] at h <;> simp_all)
      · exact .inl (e.isDigit c h)

theorem notMem_chars {c : Char} (hdigit : c.isDigit = false) (h : c ∉ ['-', '+', '.', 'e', 'E']) :
    c ∉ n.chars := fun hc => (n.mem_chars hc).elim (by simp [hdigit]) h

/-- A number has no line end. -/
theorem ne_carriageReturn : ∀ c ∈ n.chars, c ≠ '\r' := by
  rintro c hc rfl
  exact n.notMem_chars (c := '\r') (by decide) (by decide) hc

/-! ## integers -/

theorem readInteger?_sign {ds : List Char} (hds : ∀ c ∈ ds, c.isDigit = true) :
    readInteger? (n.sign ++ ds) =
      (readInteger? ds).map fun i => if n.negative then -i else i := by
  have hplain : readInteger? ds = (readNatural? ds).map (withSign false) :=
    readInteger?_signText false hds
  rw [sign, readInteger?_signText _ hds, hplain, Option.map_map]
  rfl

theorem leading_repr {m : Nat} (h : m.repr.toList.head? = some '0') : m.repr.toList = ['0'] := by
  by_cases hm : m = 0
  · rw [hm]
    rfl
  · exact absurd h (head?_repr hm)

/-- An integer as it is written. -/
def ofInt (i : Int) : Literal where
  toNumeral := Numeral.ofInt i
  exponent := none
  leading := leading_repr

theorem chars_ofInt (i : Int) : (ofInt i).chars = i.repr.toList := by
  rw [← Numeral.text_ofInt]
  simp [chars, ofInt, sign, Numeral.text]

/-- An integer of no more digits than may be read is read back. -/
theorem value?_ofInt {i : Int} (h : i.natAbs < tens digitLimit) :
    (ofInt i).value? = some (.int i) := by
  have hread : readInteger? (ofInt i).chars = some i := by
    rw [chars_ofInt, readInteger?_repr h]
  exact congrArg (Option.map Value.int) hread

/-! ## floating-point numbers -/

/-- A number with a point or an exponent that has these characters after its sign, both as it is
written and as it is read. -/
structure Prints (negative : Bool) (text : String) : Prop where
  negative : n.negative = negative
  isReal : n.isInteger = false
  chars : n.unsigned ++ n.exponent.elim [] Exponent.chars = text.toList
  magnitude : n.magnitude = text.toList

variable {n}

theorem Prints.chars_eq {negative : Bool} {text : String} (h : n.Prints negative text) :
    n.chars = (signText negative ++ text).toList := by
  rw [Literal.chars, sign, h.chars, h.negative, String.toList_append]

theorem Prints.value?_eq {negative : Bool} {text : String} {x : Double}
    (h : n.Prints negative text)
    (hread : Double.read? (signText negative ++ text).toList = some x) :
    n.value? = some (.float x) := by
  rw [value?, h.isReal, if_neg (by decide), sign, h.magnitude, h.negative, ← String.toList_append,
    hread]
  rfl

theorem Prints.inText {negative : Bool} {text : String} (h : n.Prints negative text) :
    ∀ c ∈ (signText negative ++ text).toList, Numeral.InText c := by
  intro c hc
  rw [String.toList_append, ← h.magnitude, List.mem_append] at hc
  exact hc.elim Numeral.inText_of_mem_signText n.inText_of_mem_magnitude

variable {negative : Bool} {whole fraction digits : List Char}

/-- Digits on both sides of a point are a number. -/
theorem exists_prints_point (negative : Bool) (hwhole : whole ≠ []) (hfraction : fraction ≠ [])
    (hdigit : ∀ c ∈ whole ++ fraction, c.isDigit = true)
    (hleading : whole.head? = some '0' → whole = ['0']) :
    ∃ n : Literal, n.Prints negative (String.ofList (whole ++ '.' :: fraction)) := by
  refine ⟨⟨⟨negative, whole, fraction, hwhole, hdigit⟩, none, hleading⟩, rfl, ?_, ?_, ?_⟩
  · simp [isInteger, hfraction]
  · simp [Numeral.unsigned, hfraction]
  · simp [magnitude, Numeral.unsigned, hfraction]

/-- So is one digit, or one before a point and some behind it, with an exponent. -/
theorem exists_prints_exponent (negative : Bool) {d : Char} {sign : Char}
    (hsign : sign = '+' ∨ sign = '-') (hdigits : digits ≠ [])
    (hmantissa : ∀ c ∈ [d] ++ fraction, c.isDigit = true)
    (hdigit : ∀ c ∈ digits, c.isDigit = true) :
    ∃ n : Literal, n.Prints negative (String.ofList
      ([d] ++ (if fraction.isEmpty then [] else '.' :: fraction) ++ 'e' :: sign :: digits)) := by
  have hleading : [d].head? = some '0' → [d] = ['0'] := by simp
  have hsigns : [sign] = [] ∨ [sign] = ['+'] ∨ [sign] = ['-'] := by simpa using hsign
  refine ⟨⟨⟨negative, [d], fraction, List.cons_ne_nil d [], hmantissa⟩,
    some ⟨'e', [sign], digits, .inl rfl, hsigns, hdigits, hdigit⟩, hleading⟩, rfl, ?_, ?_, ?_⟩
  · simp [isInteger]
  · simp [Numeral.unsigned, Exponent.chars]
  · simp [magnitude, Numeral.unsigned, Exponent.normal]

section Digits

variable {ds : List Char} (hdigit : ∀ c ∈ ds, c.isDigit = true)

include hdigit

theorem exists_prints_whole (negative : Bool) (hne : ds ≠ []) (hhead : ds.head? ≠ some '0')
    (k : Nat) :
    ∃ n : Literal, n.Prints negative (String.ofList (ds ++ List.replicate k '0') ++ ".0") := by
  have hall : ∀ c ∈ ds ++ List.replicate k '0' ++ ['0'], c.isDigit = true := by
    simp only [List.forall_mem_append]
    exact ⟨⟨hdigit, fun _ => Numeral.isDigit_of_mem_zeros⟩,
      fun _ => Numeral.isDigit_of_mem_zeros (k := 1)⟩
  have hfirst : (ds ++ List.replicate k '0').head? ≠ some '0' := by
    rwa [List.head?_append_of_ne_nil _ hne]
  have htext : String.ofList (ds ++ List.replicate k '0' ++ '.' :: ['0']) =
      String.ofList (ds ++ List.replicate k '0') ++ ".0" := String.ofList_append
  rw [← htext]
  exact exists_prints_point negative (List.append_ne_nil_of_left_ne_nil hne _)
    (List.cons_ne_nil _ _) hall fun h => absurd h hfirst

theorem exists_prints_inside (negative : Bool) (hhead : ds.head? ≠ some '0') {k : Nat}
    (hpos : 0 < k) (hk : k < ds.length) :
    ∃ n : Literal, n.Prints negative (String.ofList (ds.take k ++ '.' :: ds.drop k)) := by
  have hall : ∀ c ∈ ds.take k ++ ds.drop k, c.isDigit = true := by
    rwa [List.take_append_drop]
  have hfirst : (ds.take k).head? ≠ some '0' := by
    rwa [List.head?_take, if_neg hpos.ne']
  have hwhole : ds.take k ≠ [] := by
    rw [← List.length_pos_iff, List.length_take]
    omega
  have hfraction : ds.drop k ≠ [] := by
    rw [← List.length_pos_iff, List.length_drop]
    omega
  exact exists_prints_point negative hwhole hfraction hall fun h => absurd h hfirst

theorem exists_prints_below (negative : Bool) (hne : ds ≠ []) (k : Nat) :
    ∃ n : Literal, n.Prints negative
      (String.ofList ('0' :: '.' :: (List.replicate k '0' ++ ds))) := by
  have hall : ∀ c ∈ ['0'] ++ (List.replicate k '0' ++ ds), c.isDigit = true := by
    simp only [List.forall_mem_append]
    exact ⟨fun _ => Numeral.isDigit_of_mem_zeros (k := 1), fun _ => Numeral.isDigit_of_mem_zeros,
      hdigit⟩
  exact exists_prints_point negative (List.cons_ne_nil _ _)
    (List.append_ne_nil_of_right_ne_nil _ hne) hall fun _ => rfl

end Digits

theorem exists_prints_scientific (negative : Bool) {d : Char} {rest : List Char}
    (hdigit : ∀ c ∈ [d] ++ rest, c.isDigit = true) (first : Int) (width : Nat) :
    ∃ n : Literal, n.Prints negative
      (String.ofList ([d] ++ if rest.isEmpty then [] else '.' :: rest) ++ "e" ++
        (if first < 0 then "-" else "+") ++
        String.ofList (List.replicate width '0' ++ first.natAbs.repr.toList)) := by
  obtain ⟨exponent, hexponent⟩ :
      ∃ cs, cs = List.replicate width '0' ++ first.natAbs.repr.toList := ⟨_, rfl⟩
  have hdigits : ∀ c ∈ exponent, c.isDigit = true := by
    rw [hexponent, List.forall_mem_append]
    exact ⟨fun _ => Numeral.isDigit_of_mem_zeros, fun _ => isDigit_of_mem_repr⟩
  have hne : exponent ≠ [] := by
    rw [hexponent]
    exact List.append_ne_nil_of_right_ne_nil _ (toList_repr_ne_nil _)
  obtain ⟨sign, hsign, htext⟩ : ∃ sign, (sign = '+' ∨ sign = '-') ∧
      (if first < 0 then "-" else "+") = String.ofList [sign] := by
    split
    · exact ⟨'-', .inr rfl, rfl⟩
    · exact ⟨'+', .inl rfl, rfl⟩
  have hletter : String.ofList ('e' :: sign :: exponent) =
      "e" ++ (String.ofList [sign] ++ String.ofList exponent) := by
    rw [← String.ofList_append]
    exact @String.ofList_append ['e'] _
  rw [← hexponent, htext, String.append_assoc, String.append_assoc, ← hletter,
    ← String.ofList_append]
  exact exists_prints_exponent negative hsign hne hdigit hdigits

/-- Digits, set with a point or with an exponent, are a number if the first is no zero. -/
theorem exists_prints_digitsText (negative : Bool) {c : Nat} (hc : c ≠ 0) (e : Int) :
    ∃ n : Literal, n.Prints negative (Double.digitsText Double.plainLayout c.repr.toList e) := by
  obtain ⟨ds, hds⟩ : ∃ ds, ds = c.repr.toList := ⟨_, rfl⟩
  have hdigit : ∀ d ∈ ds, d.isDigit = true := hds ▸ fun _ => isDigit_of_mem_repr
  have hhead : ds.head? ≠ some '0' := hds ▸ head?_repr hc
  have hne : ds ≠ [] := hds ▸ toList_repr_ne_nil c
  rw [← hds]
  unfold Double.digitsText
  dsimp only
  split
  · split
    · exact exists_prints_whole hdigit negative hne hhead _
    · split
      · next hfraction hfirst =>
        exact exists_prints_inside hdigit negative hhead (by omega) (by omega)
      · exact exists_prints_below hdigit negative hne _
  · obtain ⟨d, rest, rfl⟩ := List.exists_cons_of_ne_nil hne
    cases rest with
    | nil => exact exists_prints_scientific negative hdigit _ _
    | cons d' rest => exact exists_prints_scientific negative hdigit _ _

end Literal

/-- A finite number is written as in any text. -/
theorem textIn_jsonLayout {x : Double} (hx : x.isFinite = true) :
    x.textIn Double.jsonLayout = x.text := by
  have hdigits : Double.digitsText Double.jsonLayout = Double.digitsText Double.plainLayout := rfl
  cases x with
  | finite negative m e h =>
    rw [Double.textIn_finite_eq h, hdigits, Double.text_finite_eq h]
  | infinite negative => cases hx
  | nan => cases hx

/-- Its text is a number of the grammar. -/
theorem exists_prints_text {x : Double} (hx : x.isFinite = true) :
    ∃ (n : Literal) (negative : Bool) (s : String), n.Prints negative s ∧
      x.text = signText negative ++ s := by
  cases x with
  | finite negative m e h =>
    by_cases hm : m = 0
    · have hzeros : ∀ c ∈ ['0'] ++ ['0'], c.isDigit = true := by simp
      obtain ⟨n, hn⟩ := Literal.exists_prints_point negative (List.cons_ne_nil _ _)
        (List.cons_ne_nil _ _) hzeros fun _ => rfl
      exact ⟨n, negative, _, hn, by rw [Double.text_finite_eq, if_pos hm]; rfl⟩
    · rcases hshort : Double.shortest m e with ⟨c, e'⟩
      have hc := Double.shortest_ne_zero hm h
      rw [hshort] at hc
      obtain ⟨n, hn⟩ := Literal.exists_prints_digitsText negative hc e'
      exact ⟨n, negative, _, hn, Double.text_of_shortest h hm hshort⟩
  | infinite negative => cases hx
  | nan => cases hx

/-- The text of a finite number is read as the number. -/
theorem read?_text {x : Double} (hx : x.isFinite = true) :
    Double.read? x.text.toList = some x := by
  obtain ⟨n, negative, s, hn, htext⟩ := exists_prints_text hx
  have hchars : ∀ c ∈ x.text.toList, Numeral.InText c := htext ▸ hn.inText
  have hdecimal := Double.read_text hx
  rw [Numeral.read_of_inText hchars] at hdecimal
  have hback := Double.ofDecimal_toDecimal hx
  cases x with
  | finite negative m e h =>
    obtain ⟨c, e', hparts, -⟩ := @Double.toDecimal_finite negative m e h
    rw [hparts] at hdecimal hback
    have hplain : readPlain? (Double.finite negative m e h).text.toList =
        (some (c, e')).map fun d => .finite negative d.1 d.2 := by
      cases hread : readPlain? (Double.finite negative m e h).text.toList with
      | none => rw [hread] at hdecimal; cases hdecimal
      | some d => rw [hread] at hdecimal; rw [Except.ok.inj hdecimal]; rfl
    rw [Numeral.read?_of_inText hchars hplain]
    exact congrArg some hback
  | infinite negative => cases hx
  | nan => cases hx

/-- A finite number is written as a number of the grammar, and that is read as it. -/
theorem exists_literal_of_isFinite {x : Double} (hx : x.isFinite = true) :
    ∃ n : Literal, n.chars = (x.textIn Double.jsonLayout).toList ∧
      n.value? = some (.float x) := by
  obtain ⟨n, negative, s, hn, htext⟩ := exists_prints_text hx
  have hread := read?_text hx
  rw [htext] at hread
  exact ⟨n, by rw [textIn_jsonLayout hx, htext, hn.chars_eq], hn.value?_eq hread⟩

end Json

end Storyboard
