import Storyboard.Proofs.Number.Digits
import Storyboard.Proofs.Spec.Accepted

/-!
# Storyboard.Proofs.Spec.Refusal

How the reading of a specification can fail.  A check that fails says which demand is broken at
which place.  Two conversions inside the reader are not guarded by a check, though: a whole number
is taken out of a floating-point number that has none, and a text is made of an integer with too
many digits.  Whatever the data is, the reader fails with a refusal of its own or because of one
of these.

* `FailsOnly.bind` — how one step after another can fail;
* `….failsOnly` — how a record can fail to be read;
* `Specification.ofValue_outcome` — the outcomes for all data.
-/

namespace Storyboard

open Number Spec.Field

/-! ## refusals -/

/-- What the reader says of data that it does not accept. -/
def Refusal.OfReader : Refusal → Prop
  | .specNotMapping => True
  | .broken _ _ => True
  | .rateUnreadable _ => True
  | .notColor _ _ => True
  | .sizeMissing _ => True
  | .duplicateId _ _ => True
  | .unsupported _ _ _ => True
  | _ => False

/-- A fault that is a refusal of the reader. -/
def Fault.IsRefusal (e : Fault) : Prop := ∃ why, e = .refused why ∧ why.OfReader

theorem Fault.IsRefusal.broken (place : Place) (demand : Demand) :
    (Fault.broken place demand).IsRefusal := ⟨_, rfl, trivial⟩

/-- A computation fails with such faults only. -/
def FailsOnly {α : Type} (P : Fault → Prop) (x : Except Fault α) : Prop := ∀ e, x = .error e → P e

namespace FailsOnly

variable {α β : Type} {P Q : Fault → Prop} {x : Except Fault α}

theorem ok (a : α) : FailsOnly P (.ok a : Except Fault α) := fun _ h => by cases h

theorem pure (a : α) : FailsOnly P (Pure.pure a : Except Fault α) := ok a

theorem error {e : Fault} (h : P e) : FailsOnly P (.error e : Except Fault α) := fun e' he => by
  obtain rfl := Except.error.inj he
  exact h

theorem mono (h : FailsOnly P x) (hPQ : ∀ e, P e → Q e) : FailsOnly Q x :=
  fun e he => hPQ e (h e he)

theorem bind {f : α → Except Fault β} (hx : FailsOnly P x)
    (hf : ∀ a, x = .ok a → FailsOnly P (f a)) : FailsOnly P (x >>= f) := by
  intro e he
  cases x with
  | error e' =>
    obtain rfl := Except.error.inj he
    exact hx e' rfl
  | ok a => exact hf a rfl e he

end FailsOnly

/-! ## fields -/

namespace Spec.Field

variable {range : Range} {place : Place} {v : Value} {P : Fault → Prop}

theorem mapping_failsOnly : FailsOnly Fault.IsRefusal (mapping place v) := by
  unfold mapping
  split
  · exact .ok _
  · exact .error (.broken _ _)

theorem mappingOrNothing_failsOnly : FailsOnly Fault.IsRefusal (mappingOrNothing place v) := by
  unfold mappingOrNothing
  split
  · exact mapping_failsOnly
  · exact .ok _

theorem listOrNothing_failsOnly : FailsOnly Fault.IsRefusal (listOrNothing place v) := by
  unfold listOrNothing list
  split
  · split
    · exact .ok _
    · exact .error (.broken _ _)
  · exact .ok _

theorem number_failsOnly : FailsOnly Fault.IsRefusal (number range place v) := by
  unfold number
  split
  · exact .error (.broken _ _)
  · split
    · exact .error (.broken _ _)
    · exact .ok _

theorem optionalNumber_failsOnly : FailsOnly Fault.IsRefusal (optionalNumber range place v) := by
  unfold optionalNumber
  split
  · exact .ok _
  · exact number_failsOnly

theorem rate_failsOnly : FailsOnly Fault.IsRefusal (rate place v) := by
  unfold rate
  split
  · next s =>
    have hread : FailsOnly Fault.IsRefusal (Value.text s).toRate := by
      rw [Value.toRate]
      cases Value.readRate? s with
      | none => exact .error ⟨_, rfl, trivial⟩
      | some q => exact .ok q
    refine hread.bind fun q _ => ?_
    split
    · exact .error (.broken _ _)
    · exact .pure _
  · exact number_failsOnly

theorem string_failsOnly : FailsOnly Fault.IsRefusal (string place v) := by
  unfold string
  split
  · split
    · exact .error (.broken _ _)
    · exact .ok _
  · exact .error (.broken _ _)

theorem choice_failsOnly {choices : List String} :
    FailsOnly Fault.IsRefusal (choice choices place v) := by
  unfold choice
  split
  · split
    · exact .ok _
    · exact .error (.broken _ _)
  · exact .error (.broken _ _)

theorem boolean_failsOnly : FailsOnly Fault.IsRefusal (boolean place v) := by
  unfold boolean
  split
  · exact .ok _
  · exact .error (.broken _ _)

theorem color_failsOnly : FailsOnly Fault.IsRefusal (color place v) := by
  unfold color
  split
  · split
    · exact .error (.broken _ _)
    · split
      · exact .ok _
      · exact .error ⟨_, rfl, trivial⟩
  · exact .error (.broken _ _)

theorem coordinate_failsOnly {keywords : List String} :
    FailsOnly Fault.IsRefusal (coordinate keywords place v) := by
  unfold coordinate
  split
  · exact choice_failsOnly.bind fun _ _ => .pure _
  · exact number_failsOnly

theorem dimension_failsOnly : FailsOnly Fault.IsRefusal (dimension place v) := by
  unfold dimension
  split
  · exact .ok _
  · exact number_failsOnly

theorem timing_failsOnly {entries : Entries} :
    FailsOnly Fault.IsRefusal (timing place entries) :=
  number_failsOnly.bind fun _ _ => optionalNumber_failsOnly.bind fun _ _ => .pure _

/-- A list of items fails as its items do. -/
theorem items_failsOnly {α : Type} {read : Place → Value → Except Fault α} {vs : List Value}
    (h : ∀ v ∈ vs, ∀ place, FailsOnly P (read place v)) {i : Nat} :
    FailsOnly P (items read place i vs) := by
  induction vs generalizing i with
  | nil => exact .ok _
  | cons v rest ih =>
    rw [List.forall_mem_cons] at h
    exact (h.1 _).bind fun _ _ => (ih h.2).bind fun _ _ => .pure _

end Spec.Field

/-! ## records that are only refused -/

section

variable {place : Place} {v : Value}

theorem Trim.failsOnly : FailsOnly Fault.IsRefusal (ofValue place v) := by
  unfold ofValue
  split
  · exact .pure _
  · exact mapping_failsOnly.bind fun _ _ => number_failsOnly.bind fun _ _ =>
      optionalNumber_failsOnly.bind fun _ _ => .pure _

theorem Position.failsOnly : FailsOnly Fault.IsRefusal (ofValue place v) := by
  unfold ofValue
  split
  · exact .pure _
  · exact mapping_failsOnly.bind fun _ _ => coordinate_failsOnly.bind fun _ _ =>
      coordinate_failsOnly.bind fun _ _ => .pure _

theorem Size.failsOnly : FailsOnly Fault.IsRefusal (ofValue place v) := by
  unfold ofValue
  split
  · exact .pure _
  · exact mapping_failsOnly.bind fun _ _ => dimension_failsOnly.bind fun _ _ =>
      dimension_failsOnly.bind fun _ _ => .pure _

theorem Animation.failsOnly : FailsOnly Fault.IsRefusal (ofValue place v) := by
  unfold ofValue
  split
  · exact .pure _
  · exact mapping_failsOnly.bind fun _ _ => choice_failsOnly.bind fun _ _ =>
      choice_failsOnly.bind fun _ _ => number_failsOnly.bind fun _ _ =>
      number_failsOnly.bind fun _ _ => .pure _

theorem Transition.failsOnly : FailsOnly Fault.IsRefusal (ofValue place v) := by
  unfold ofValue
  split
  · exact .pure _
  · exact mapping_failsOnly.bind fun _ _ => choice_failsOnly.bind fun _ _ =>
      number_failsOnly.bind fun _ _ => .pure _

theorem TextStyle.failsOnly : FailsOnly Fault.IsRefusal (ofValue place v) := by
  unfold ofValue
  split
  · exact .pure _
  · exact mapping_failsOnly.bind fun _ _ => string_failsOnly.bind fun _ _ =>
      number_failsOnly.bind fun _ _ => color_failsOnly.bind fun _ _ =>
      number_failsOnly.bind fun _ _ => color_failsOnly.bind fun _ _ =>
      number_failsOnly.bind fun _ _ => boolean_failsOnly.bind fun _ _ =>
      boolean_failsOnly.bind fun _ _ => number_failsOnly.bind fun _ _ =>
      choice_failsOnly.bind fun _ _ => .pure _

theorem SubtitleStyle.failsOnly : FailsOnly Fault.IsRefusal (ofValue place v) := by
  unfold ofValue
  split
  · exact .pure _
  · exact mapping_failsOnly.bind fun _ _ => string_failsOnly.bind fun _ _ =>
      number_failsOnly.bind fun _ _ => color_failsOnly.bind fun _ _ =>
      number_failsOnly.bind fun _ _ => color_failsOnly.bind fun _ _ =>
      number_failsOnly.bind fun _ _ => choice_failsOnly.bind fun _ _ =>
      number_failsOnly.bind fun _ _ => .pure _

theorem Subtitle.failsOnly : FailsOnly Fault.IsRefusal (ofValue place v) := by
  refine mapping_failsOnly.bind fun _ _ => number_failsOnly.bind fun _ _ =>
    number_failsOnly.bind fun _ _ => ?_
  dsimp only
  split
  · exact .error (.broken _ _)
  · exact string_failsOnly.bind fun _ _ => SubtitleStyle.failsOnly.bind fun _ _ => .pure _

variable {entries : Entries} {start duration : Value}

theorem TextLayer.failsOnly :
    FailsOnly Fault.IsRefusal (ofEntries place entries start duration) :=
  string_failsOnly.bind fun _ _ => TextStyle.failsOnly.bind fun _ _ =>
    Position.failsOnly.bind fun _ _ => Animation.failsOnly.bind fun _ _ => .pure _

theorem ImageLayer.failsOnly :
    FailsOnly Fault.IsRefusal (ofEntries place entries start duration) :=
  string_failsOnly.bind fun _ _ => Position.failsOnly.bind fun _ _ =>
    Size.failsOnly.bind fun _ _ => number_failsOnly.bind fun _ _ =>
    Animation.failsOnly.bind fun _ _ => .pure _

theorem VideoLayer.failsOnly :
    FailsOnly Fault.IsRefusal (ofEntries place entries start duration) :=
  string_failsOnly.bind fun _ _ => Trim.failsOnly.bind fun _ _ =>
    Position.failsOnly.bind fun _ _ => Size.failsOnly.bind fun _ _ =>
    number_failsOnly.bind fun _ _ => boolean_failsOnly.bind fun _ _ => .pure _

theorem ShapeLayer.failsOnly :
    FailsOnly Fault.IsRefusal (ofEntries place entries start duration) := by
  unfold ofEntries
  split
  · exact .error ⟨_, rfl, trivial⟩
  · exact choice_failsOnly.bind fun _ _ => Size.failsOnly.bind fun _ _ =>
      Position.failsOnly.bind fun _ _ => color_failsOnly.bind fun _ _ =>
      number_failsOnly.bind fun _ _ => number_failsOnly.bind fun _ _ => .pure _

end

/-! ## values without a text -/

namespace Value

/-- Somewhere in a value is a number with too many digits to be written. -/
inductive IsLong : Value → Prop
  | int {i : Int} (h : tens digitLimit ≤ i.natAbs) : IsLong (.int i)
  | ratio {q : Rat} (h : tens digitLimit ≤ q.num.natAbs ∨ tens digitLimit ≤ q.den) :
      IsLong (.ratio q)
  | pairKey {key : Value} (h : IsLong key) (value : Value) : IsLong (.pair key value)
  | pairValue {value : Value} (h : IsLong value) (key : Value) : IsLong (.pair key value)
  | set {keys : List Value} {v : Value} (hv : v ∈ keys) (h : IsLong v) : IsLong (.set keys)
  | list {items : List Value} {v : Value} (hv : v ∈ items) (h : IsLong v) : IsLong (.list items)
  | mapKey {entries : List (Value × Value)} {e : Value × Value} (he : e ∈ entries)
      (h : IsLong e.1) : IsLong (.map entries)
  | mapValue {entries : List (Value × Value)} {e : Value × Value} (he : e ∈ entries)
      (h : IsLong e.2) : IsLong (.map entries)

variable {P : Fault → Prop}

theorem integerText_failsOnly {i : Int} (h : tens digitLimit ≤ i.natAbs → P .valueUnsuited) :
    FailsOnly P (integerText i) := by
  unfold integerText
  split
  · exact .ok _
  · next hlong => exact .error (h (Nat.not_lt.1 hlong))

theorem ratioText_failsOnly {q : Rat}
    (h : tens digitLimit ≤ q.num.natAbs ∨ tens digitLimit ≤ q.den → P .valueUnsuited) :
    FailsOnly P (ratioText q) := by
  refine (integerText_failsOnly fun hnum => h (.inl hnum)).bind fun _ _ => ?_
  split
  · exact .pure _
  · exact (integerText_failsOnly (i := q.den) fun hden => h (.inr hden)).bind fun _ _ => .pure _

mutual

theorem quotedText_failsOnly : (v : Value) → (v.IsLong → P .valueUnsuited) →
    FailsOnly P v.quotedText
  | .null, _ | .bool _, _ | .float _, _ | .decimal _, _ | .text _, _ | .stamp _, _ | .bytes _, _
  | .set [], _ | .ring _ _, _ | .again _ _, _ => .ok _
  | .int _, h => integerText_failsOnly fun hlong => h (.int hlong)
  | .ratio q, h =>
    (integerText_failsOnly fun hnum => h (.ratio (.inl hnum))).bind fun _ _ =>
      (integerText_failsOnly (i := q.den) fun hden => h (.ratio (.inr hden))).bind fun _ _ =>
        .pure _
  | .pair key value, h =>
    (quotedText_failsOnly key fun hkey => h (.pairKey hkey value)).bind fun _ _ =>
      (quotedText_failsOnly value fun hvalue => h (.pairValue hvalue key)).bind fun _ _ => .pure _
  | .set (k :: ks), h =>
    (quotedItems_failsOnly (k :: ks) fun _ hv hlong => h (.set hv hlong)).bind fun _ _ => .pure _
  | .list items, h =>
    (quotedItems_failsOnly items fun _ hv hlong => h (.list hv hlong)).bind fun _ _ => .pure _
  | .map entries, h =>
    (quotedEntries_failsOnly entries fun _ he hlong =>
      h (hlong.elim (.mapKey he) (.mapValue he))).bind fun _ _ => .pure _

theorem quotedItems_failsOnly : (vs : List Value) → (∀ v ∈ vs, v.IsLong → P .valueUnsuited) →
    FailsOnly P (quotedItems vs)
  | [], _ => .ok _
  | v :: rest, h =>
    (quotedText_failsOnly v (h v List.mem_cons_self)).bind fun _ _ =>
      (quotedItems_failsOnly rest fun w hw => h w (List.mem_cons_of_mem _ hw)).bind
        fun _ _ => .pure _

theorem quotedEntries_failsOnly : (entries : Entries) →
    (∀ e ∈ entries, e.1.IsLong ∨ e.2.IsLong → P .valueUnsuited) →
    FailsOnly P (quotedEntries entries)
  | [], _ => .ok _
  | (k, v) :: rest, h =>
    (quotedText_failsOnly k fun hk => h (k, v) List.mem_cons_self (.inl hk)).bind fun _ _ =>
      (quotedText_failsOnly v fun hv => h (k, v) List.mem_cons_self (.inr hv)).bind fun _ _ =>
        (quotedEntries_failsOnly rest fun e he => h e (List.mem_cons_of_mem _ he)).bind
          fun _ _ => .pure _

end

/-- A value without a number of too many digits has a text. -/
theorem plainText_failsOnly {v : Value} (h : v.unrolled.IsLong → P .valueUnsuited) :
    FailsOnly P v.plainText := by
  unfold plainText
  split
  · exact .ok _
  · exact .ok _
  · exact ratioText_failsOnly fun hlong => h (.ratio hlong)
  · exact .ok _
  · exact quotedText_failsOnly _ h

end Value

/-! ## looking into data -/

namespace Value

/-- The entries of a mapping, none of any other value. -/
def fields (v : Value) : Entries :=
  match v.opened with
  | .map entries => entries
  | _ => []

/-- The items of a list, none of any other value. -/
def members (v : Value) : List Value :=
  match v.opened with
  | .list items => items
  | _ => []

/-- The value under the name by which variants are told apart. -/
def variant (v : Value) : Value := v.fields.get "type"

end Value

namespace Spec.Field

variable {range : Range} {place : Place} {v : Value} {e : Fault}

theorem fields_of_mapping {entries : Entries} (h : mapping place v = .ok entries) :
    v.fields = entries := by
  unfold mapping at h
  split at h
  · next hopened =>
    rw [Value.fields, hopened]
    exact Except.ok.inj h
  · cases h

theorem fields_of_mappingOrNothing {entries : Entries}
    (h : mappingOrNothing place v = .ok entries) : v.fields = entries := by
  unfold mappingOrNothing at h
  split at h
  · exact fields_of_mapping h
  · next hfalsy =>
    obtain rfl := Except.ok.inj h
    unfold Value.fields
    unfold Value.isTruthy at hfalsy
    split <;> simp_all

theorem members_of_listOrNothing {items : List Value} (h : listOrNothing place v = .ok items) :
    v.members = items := by
  unfold listOrNothing list at h
  split at h
  · split at h
    · next hopened =>
      rw [Value.members, hopened]
      exact Except.ok.inj h
    · cases h
  · next hfalsy =>
    obtain rfl := Except.ok.inj h
    unfold Value.members
    unfold Value.isTruthy at hfalsy
    split <;> simp_all

/-! ## conversions without a check -/

/-- A floating-point number that passes for a whole number until it is converted, and what the
conversion says. -/
inductive Unwhole (range : Range) : Value → Fault → Prop
  | nan : Unwhole range (.float .nan) .valueUnsuited
  | infinite {negative : Bool} (h : InRange range (.float (.infinite negative))) :
      Unwhole range (.float (.infinite negative)) .integerTooLarge

theorem Unwhole.of_getD {entries : Entries} {name : String} {i : Int}
    (h : Unwhole range (entries.getD name (.int i)) e) : Unwhole range (entries.get name) e := by
  unfold Entries.get
  unfold Entries.getD at h ⊢
  cases hv : entries.get? name with
  | none => rw [hv] at h; cases h
  | some v => rwa [hv] at h

theorem Unwhole.of_pick {entries : Entries} {name spelling : String} {i : Int}
    (h : Unwhole range (entries.pick name spelling (.int i)) e) :
    Unwhole range (entries.pick name spelling .null) e := by
  unfold Entries.pick at h ⊢
  cases hv : (entries.get? name).or (entries.get? spelling) with
  | none => rw [hv] at h; cases h
  | some v => rwa [hv] at h

variable {P : Fault → Prop} (hP : ∀ e, e.IsRefusal → P e)

include hP

theorem integer_failsOnly (h : ∀ e, Unwhole range v e → P e) :
    FailsOnly P (integer range place v) := by
  refine (number_failsOnly.mono hP).bind fun w hw => ?_
  obtain ⟨rfl, x, hx, hrange⟩ := number_ok_iff.1 hw
  split
  · next y =>
    cases y with
    | nan => exact .error (h _ .nan)
    | infinite negative => exact .error (h _ (.infinite ⟨x, hx, hrange⟩))
    | finite negative significand exponent canonical =>
      refine FailsOnly.bind (.ok _) fun i _ => ?_
      split
      · exact .pure _
      · exact .error (hP _ (.broken _ _))
  · exact .pure _

/-- To name what is unsupported needs a text. -/
theorem unsupported_failsOnly {α : Type} {variant : Variant}
    (h : v.unrolled.IsLong → P .valueUnsuited) :
    FailsOnly P (do
      throw (.refused (.unsupported variant (← v.plainText) place)) : Except Fault α) :=
  (Value.plainText_failsOnly h).bind fun _ _ => .error (hP _ ⟨_, rfl, trivial⟩)

end Spec.Field

theorem Spec.Field.optionalText_failsOnly {v : Value} {P : Fault → Prop}
    (h : v.unrolled.IsLong → P .valueUnsuited) : FailsOnly P (optionalText v) := by
  unfold optionalText
  split
  · exact .ok _
  · exact (Value.plainText_failsOnly h).bind fun _ _ => .pure _

/-! ## records that are read with such conversions -/

/-- The whole numbers of the section on encoding. -/
def Output.wholeFields (v : Value) : List (Range × Value) :=
  [(.aboveZero, v.fields.get "width"), (.aboveZero, v.fields.get "height"),
    (.upTo 51, v.fields.get "crf"),
    (.aboveZero, v.fields.pick "sample_rate" "sampleRate" .null)]

/-- The whole numbers of the section on the thumbnail. -/
def Thumbnail.wholeFields (v : Value) : List (Range × Value) :=
  [(.aboveZero, v.fields.get "width"), (.aboveZero, v.fields.get "height")]

/-- What is made a text when a scene is read. -/
def Scene.textFields (v : Value) : List Value :=
  (v.fields.get "background").variant :: (v.fields.get "layers").members.map Value.variant

/-- What is made a text when the section on sound is read. -/
def Audio.textFields (v : Value) : List Value :=
  (v.fields.get "tracks").members.map fun track => track.fields.get "id"

/-- What is made a text when the section on the thumbnail is read. -/
def Thumbnail.textFields (v : Value) : List Value :=
  let source := v.fields.get "source"
  source.variant :: (source.fields.get "background").variant
    :: (v.fields.get "overlays").members.map Value.variant

section

variable {P : Fault → Prop} (hP : ∀ e, e.IsRefusal → P e) {place : Place} {v : Value}

include hP

theorem Output.failsOnly (h : ∀ n ∈ wholeFields v, ∀ e, Unwhole n.1 n.2 e → P e) :
    FailsOnly P (ofValue v) := by
  refine (mappingOrNothing_failsOnly.mono hP).bind fun entries hentries => ?_
  simp only [wholeFields, fields_of_mappingOrNothing hentries, List.forall_mem_cons] at h
  obtain ⟨hwidth, hheight, hcrf, hsampleRate, -⟩ := h
  exact (integer_failsOnly hP fun e he => hwidth e he.of_getD).bind fun _ _ =>
    (integer_failsOnly hP fun e he => hheight e he.of_getD).bind fun _ _ =>
    (rate_failsOnly.mono hP).bind fun _ _ => (choice_failsOnly.mono hP).bind fun _ _ =>
    (choice_failsOnly.mono hP).bind fun _ _ =>
    (integer_failsOnly hP fun e he => hcrf e he.of_getD).bind fun _ _ =>
    (choice_failsOnly.mono hP).bind fun _ _ =>
    (integer_failsOnly hP fun e he => hsampleRate e he.of_pick).bind fun _ _ => .pure _

theorem Background.failsOnly (h : v.variant.unrolled.IsLong → P .valueUnsuited) :
    FailsOnly P (ofValue place v) := by
  unfold ofValue
  split
  · exact .pure _
  · refine (mapping_failsOnly.mono hP).bind fun entries hentries => ?_
    rw [Value.variant, fields_of_mapping hentries] at h
    split
    · exact (color_failsOnly.mono hP).bind fun _ _ => .pure _
    · exact (string_failsOnly.mono hP).bind fun _ _ => .pure _
    · exact (string_failsOnly.mono hP).bind fun _ _ => (Trim.failsOnly.mono hP).bind
        fun _ _ => .pure _
    · dsimp only
      split
      · exact ((items_failsOnly fun _ _ _ => color_failsOnly).mono hP).bind fun _ _ =>
          (choice_failsOnly.mono hP).bind fun _ _ => .pure _
      · exact .error (hP _ (.broken _ _))
    · exact unsupported_failsOnly hP h

theorem Layer.failsOnly (h : v.variant.unrolled.IsLong → P .valueUnsuited) :
    FailsOnly P (ofValue place v) := by
  refine (mapping_failsOnly.mono hP).bind fun entries hentries => ?_
  rw [Value.variant, fields_of_mapping hentries] at h
  refine (timing_failsOnly.mono hP).bind fun (start, duration) _ => ?_
  dsimp only
  split
  · exact (TextLayer.failsOnly.mono hP).bind fun _ _ => .pure _
  · exact (ImageLayer.failsOnly.mono hP).bind fun _ _ => .pure _
  · exact (VideoLayer.failsOnly.mono hP).bind fun _ _ => .pure _
  · exact (ShapeLayer.failsOnly.mono hP).bind fun _ _ => .pure _
  · exact unsupported_failsOnly hP h

theorem Layer.items_failsOnly {vs : List Value} {i : Nat}
    (h : ∀ w ∈ vs.map Value.variant, w.unrolled.IsLong → P .valueUnsuited) :
    FailsOnly P (items Layer.ofValue place i vs) :=
  Spec.Field.items_failsOnly fun _ hv _ =>
    Layer.failsOnly hP (h _ (List.mem_map_of_mem hv))

theorem Scene.failsOnly
    (h : ∀ w ∈ textFields v, w.unrolled.IsLong → P .valueUnsuited) :
    FailsOnly P (ofValue place v) := by
  refine (mapping_failsOnly.mono hP).bind fun entries hentries => ?_
  simp only [textFields, fields_of_mapping hentries, List.forall_mem_cons] at h
  refine (string_failsOnly.mono hP).bind fun _ _ => (number_failsOnly.mono hP).bind fun _ _ =>
    (Background.failsOnly hP h.1).bind fun _ _ =>
    (listOrNothing_failsOnly.mono hP).bind fun vs hvs => ?_
  rw [members_of_listOrNothing hvs] at h
  exact (Layer.items_failsOnly hP h.2).bind fun _ _ =>
    (Transition.failsOnly.mono hP).bind fun _ _ => .pure _

theorem Scene.readAll_failsOnly {before : List String} {i : Nat} {vs : List Value}
    (h : ∀ v ∈ vs, ∀ w ∈ textFields v, w.unrolled.IsLong → P .valueUnsuited) :
    FailsOnly P (readAll place before i vs) := by
  induction vs generalizing before i with
  | nil => exact .ok _
  | cons v rest ih =>
    rw [List.forall_mem_cons] at h
    refine (Scene.failsOnly hP h.1).bind fun scene _ => ?_
    dsimp only
    split
    · exact .error (hP _ ⟨_, rfl, trivial⟩)
    · exact (ih h.2).bind fun _ _ => .pure _

theorem AudioTrack.failsOnly
    (h : (v.fields.get "id").unrolled.IsLong → P .valueUnsuited) :
    FailsOnly P (ofValue place v) := by
  refine (mapping_failsOnly.mono hP).bind fun entries hentries => ?_
  rw [fields_of_mapping hentries] at h
  exact (timing_failsOnly.mono hP).bind fun _ _ => (optionalText_failsOnly h).bind fun _ _ =>
    (string_failsOnly.mono hP).bind fun _ _ => (choice_failsOnly.mono hP).bind fun _ _ =>
    (number_failsOnly.mono hP).bind fun _ _ => (number_failsOnly.mono hP).bind fun _ _ =>
    (number_failsOnly.mono hP).bind fun _ _ => (boolean_failsOnly.mono hP).bind fun _ _ =>
    (Trim.failsOnly.mono hP).bind fun _ _ => .pure _

theorem Audio.failsOnly (h : ∀ w ∈ textFields v, w.unrolled.IsLong → P .valueUnsuited) :
    FailsOnly P (ofValue v) := by
  refine (mappingOrNothing_failsOnly.mono hP).bind fun entries hentries =>
    (listOrNothing_failsOnly.mono hP).bind fun vs hvs => ?_
  rw [textFields, fields_of_mappingOrNothing hentries, members_of_listOrNothing hvs,
    List.forall_mem_map] at h
  exact (items_failsOnly fun w hw _ => AudioTrack.failsOnly hP (h w hw)).bind fun _ _ =>
    (mappingOrNothing_failsOnly.mono hP).bind fun _ _ =>
    (number_failsOnly.mono hP).bind fun _ _ => (boolean_failsOnly.mono hP).bind fun _ _ => .pure _

theorem ThumbnailSource.failsOnly (h : v.variant.unrolled.IsLong → P .valueUnsuited)
    (hbackground : (v.fields.get "background").variant.unrolled.IsLong → P .valueUnsuited) :
    FailsOnly P (ofValue place v) := by
  unfold ofValue
  split
  · exact .pure _
  · refine (mapping_failsOnly.mono hP).bind fun entries hentries => ?_
    rw [Value.variant, fields_of_mapping hentries] at h
    rw [fields_of_mapping hentries] at hbackground
    split
    · split
      · exact (number_failsOnly.mono hP).bind fun _ _ => .pure _
      · exact .error (hP _ (.broken _ _))
    · refine (Background.failsOnly hP hbackground).bind fun background _ => ?_
      split
      · exact .pure _
      · exact .pure _
      · exact .error (hP _ (.broken _ _))
    · exact unsupported_failsOnly hP h

theorem Thumbnail.failsOnly (hwhole : ∀ n ∈ wholeFields v, ∀ e, Unwhole n.1 n.2 e → P e)
    (htext : ∀ w ∈ textFields v, w.unrolled.IsLong → P .valueUnsuited) :
    FailsOnly P (ofValue v) := by
  refine (mappingOrNothing_failsOnly.mono hP).bind fun entries hentries => ?_
  simp only [wholeFields, fields_of_mappingOrNothing hentries, List.forall_mem_cons] at hwhole
  simp only [textFields, fields_of_mappingOrNothing hentries, List.forall_mem_cons] at htext
  refine (ThumbnailSource.failsOnly hP htext.1 htext.2.1).bind fun _ _ =>
    (listOrNothing_failsOnly.mono hP).bind fun vs hvs => ?_
  rw [members_of_listOrNothing hvs] at htext
  exact (Layer.items_failsOnly hP htext.2.2).bind fun _ _ =>
    (boolean_failsOnly.mono hP).bind fun _ _ =>
    (integer_failsOnly hP fun e he => hwhole.1 e he.of_getD).bind fun _ _ =>
    (integer_failsOnly hP fun e he => hwhole.2.1 e he.of_getD).bind fun _ _ => .pure _

end

/-! ## a whole specification -/

namespace Specification

/-- The fields of a specification that have to be whole numbers. -/
def wholeFields (v : Value) : List (Range × Value) :=
  Output.wholeFields (v.fields.get "output") ++ Thumbnail.wholeFields (v.fields.get "thumbnail")

/-- The fields of a specification that are made texts, whatever they are. -/
def textFields (v : Value) : List Value :=
  [v.fields.get "title", v.fields.get "version"]
    ++ (v.fields.get "scenes").members.flatMap Scene.textFields
    ++ Audio.textFields (v.fields.get "audio") ++ Thumbnail.textFields (v.fields.get "thumbnail")

/-- The causes for which the reader fails without a word of its own. -/
inductive Trips (v : Value) : Fault → Prop
  | whole {n : Range × Value} (hn : n ∈ wholeFields v) {e : Fault} (h : Unwhole n.1 n.2 e) :
      Trips v e
  | text {w : Value} (hw : w ∈ textFields v) (h : w.unrolled.IsLong) : Trips v .valueUnsuited

theorem scenesOf_failsOnly {P : Fault → Prop} (hP : ∀ e, e.IsRefusal → P e) {entries : Entries}
    (h : ∀ w ∈ (entries.get "scenes").members.flatMap Scene.textFields,
      w.unrolled.IsLong → P .valueUnsuited) : FailsOnly P (scenesOf entries) := by
  unfold scenesOf
  split
  · next heq =>
    rw [Value.members, heq, List.forall_mem_flatMap] at h
    exact Scene.readAll_failsOnly hP h
  · exact .error (hP _ (.broken _ _))

theorem versionText_failsOnly {P : Fault → Prop} {entries : Entries}
    (h : (entries.get "version").unrolled.IsLong → P .valueUnsuited) :
    FailsOnly P (entries.getD "version" "1.0").plainText := by
  unfold Entries.get at h
  unfold Entries.getD at h ⊢
  cases hv : entries.get? "version" with
  | none => exact .ok _
  | some v =>
    rw [hv] at h
    exact Value.plainText_failsOnly h

theorem ofValue_failsOnly (v : Value) :
    FailsOnly (fun e => e.IsRefusal ∨ Trips v e) (ofValue v) := by
  unfold ofValue
  split
  · next entries heq =>
    have hfields : v.fields = entries := by rw [Value.fields, heq]
    have hP : ∀ e : Fault, e.IsRefusal → e.IsRefusal ∨ Trips v e := fun e he => .inl he
    have hwhole : ∀ n ∈ wholeFields v, ∀ e, Unwhole n.1 n.2 e → e.IsRefusal ∨ Trips v e :=
      fun n hn e he => .inr (.whole hn he)
    have htext : ∀ w ∈ textFields v, w.unrolled.IsLong →
        Fault.valueUnsuited.IsRefusal ∨ Trips v .valueUnsuited :=
      fun w hw hlong => .inr (.text hw hlong)
    simp only [wholeFields, hfields, List.forall_mem_append] at hwhole
    simp only [textFields, hfields, List.forall_mem_append, List.forall_mem_cons] at htext
    obtain ⟨houtput, hthumbnail⟩ := hwhole
    obtain ⟨⟨⟨⟨htitle, hversion, -⟩, hscenes⟩, haudio⟩, hoverlays⟩ := htext
    exact (scenesOf_failsOnly hP hscenes).bind fun _ _ =>
      (optionalText_failsOnly htitle).bind fun _ _ => (Output.failsOnly hP houtput).bind fun _ _ =>
      (Audio.failsOnly hP haudio).bind fun _ _ =>
      (listOrNothing_failsOnly.mono hP).bind fun _ _ =>
      ((items_failsOnly fun _ _ _ => Subtitle.failsOnly).mono hP).bind fun _ _ =>
      (Thumbnail.failsOnly hP hthumbnail hoverlays).bind fun _ _ =>
      (versionText_failsOnly hversion).bind fun _ _ => .pure _
  · exact .error (.inl ⟨_, rfl, trivial⟩)

/-- Whatever the data is, it is read, or refused by the reader in its own words, or one of its
whole numbers or texts trips the reader. -/
theorem ofValue_outcome (data : Value) :
    (∃ spec, ofValue data = .ok spec) ∨
    (∃ why, ofValue data = .error (.refused why) ∧ why.OfReader) ∨
    ∃ e, ofValue data = .error e ∧ Trips data e := by
  cases h : ofValue data with
  | ok spec => exact .inl ⟨spec, rfl⟩
  | error e =>
    rcases ofValue_failsOnly data e h with ⟨why, rfl, hwhy⟩ | htrips
    · exact .inr (.inl ⟨why, rfl, hwhy⟩)
    · exact .inr (.inr ⟨e, rfl, htrips⟩)

/-- A width that is no number trips it. -/
theorem ofValue_wide : ofValue (.map [("scenes", .list [.map [("id", "sky"), ("duration", 1)]]),
    ("output", .map [("width", .float .nan)])]) = .error .valueUnsuited := by
  with_unfolding_all rfl

end Specification

end Storyboard
