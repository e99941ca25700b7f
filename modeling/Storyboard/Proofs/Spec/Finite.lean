import Storyboard.Proofs.Result
import Storyboard.Spec.Reader

/-!
# Storyboard.Proofs.Spec.Finite

The plain values that a specification keeps, at any depth.  No field computes with a
floating-point number: it either keeps the value that it was given, or keeps an integer or a
quotient in its place.  So where the data holds finite numbers only, the specification does too.

* `Specification.values` — all values of a specification;
* `Specification.finite_of_ofValue` — none of them is an infinity or a NaN.
-/

namespace Storyboard

open Spec.Field

/-! ## data with finite numbers -/

namespace Value

/-- Whether a value is neither an infinity nor a NaN. -/
def isFinite : Value → Bool
  | .float x => x.isFinite
  | _ => true

/-- Data of any shape in which no floating-point number is an infinity or a NaN, not even inside
a ring.  The keys of a mapping may be anything. -/
inductive NumbersFinite : Value → Prop
  | null : NumbersFinite .null
  | bool (b : Bool) : NumbersFinite (.bool b)
  | int (i : Int) : NumbersFinite (.int i)
  | float {x : Double} (h : x.isFinite = true) : NumbersFinite (.float x)
  | decimal (d : Decimal) : NumbersFinite (.decimal d)
  | ratio (q : Rat) : NumbersFinite (.ratio q)
  | text (s : String) : NumbersFinite (.text s)
  | stamp (t : Stamp) : NumbersFinite (.stamp t)
  | bytes (bs : List UInt8) : NumbersFinite (.bytes bs)
  | pair {key value : Value} (hkey : NumbersFinite key) (hvalue : NumbersFinite value) :
      NumbersFinite (.pair key value)
  | set (keys : List Value) : NumbersFinite (.set keys)
  | list {items : List Value} (h : ∀ v ∈ items, NumbersFinite v) : NumbersFinite (.list items)
  | map {entries : List (Value × Value)} (h : ∀ e ∈ entries, NumbersFinite e.2) :
      NumbersFinite (.map entries)
  | ring {parts : List Value} (h : ∀ part ∈ parts, NumbersFinite part) (here : Nat) :
      NumbersFinite (.ring parts here)
  | again (number : Nat) (isMap : Bool) : NumbersFinite (.again number isMap)

variable {v : Value}

theorem NumbersFinite.isFinite (h : v.NumbersFinite) : v.isFinite = true := by
  cases h with
  | float hfinite => exact hfinite
  | _ => rfl

@[simp] theorem numbersFinite_text (s : String) : NumbersFinite (.text s) := .text s

@[simp] theorem numbersFinite_ofNat (n : Nat) : NumbersFinite (no_index (OfNat.ofNat n)) := .int n

@[simp] theorem numbersFinite_list {items : List Value} :
    NumbersFinite (.list items) ↔ ∀ v ∈ items, v.NumbersFinite := by
  constructor
  · intro h
    cases h with
    | list hitems => exact hitems
  · exact .list

@[simp] theorem numbersFinite_map {entries : Entries} :
    NumbersFinite (.map entries) ↔ ∀ e ∈ entries, e.2.NumbersFinite := by
  constructor
  · intro h
    cases h with
    | map hentries => exact hentries
  · exact .map

theorem NumbersFinite.within {parts : List Value} (hparts : ∀ part ∈ parts, part.NumbersFinite)
    (h : v.NumbersFinite) : (v.within parts).NumbersFinite := by
  cases h with
  | again number isMap => exact .ring hparts number
  | _ => constructor <;> assumption

theorem NumbersFinite.mapParts {f : Value → Value}
    (hf : ∀ {v}, NumbersFinite v → NumbersFinite (f v)) (h : v.NumbersFinite) :
    (v.mapParts f).NumbersFinite := by
  cases h with
  | list hitems =>
    refine .list fun w hw => ?_
    obtain ⟨item, hitem, rfl⟩ := List.mem_map.1 hw
    split
    · next key value =>
      cases hitems _ hitem with
      | pair hkey hvalue => exact .pair (hf hkey) (hf hvalue)
    · exact hf (hitems _ hitem)
  | map hentries =>
    refine .map fun w hw => ?_
    obtain ⟨e, he, rfl⟩ := List.mem_map.1 hw
    exact hf (hentries e he)
  | _ => constructor <;> assumption

/-- To look into data does not bring up other numbers. -/
theorem NumbersFinite.opened (h : v.NumbersFinite) : v.opened.NumbersFinite := by
  cases h with
  | @ring parts hparts here =>
    have hpart : (parts.getD here .null).NumbersFinite := by
      rw [List.getD_eq_getElem?_getD]
      cases hget : parts[here]? with
      | none => exact .null
      | some part => exact hparts part (List.mem_of_getElem? hget)
    exact hpart.mapParts (NumbersFinite.within hparts)
  | _ => constructor <;> assumption

end Value

/-- A mapping in whose values no number is an infinity or a NaN. -/
def Entries.NumbersFinite (entries : Entries) : Prop := ∀ e ∈ entries, e.2.NumbersFinite

namespace Entries

variable {entries : Entries} {name spelling : String} {other : Value}

theorem NumbersFinite.get? (h : entries.NumbersFinite) {v : Value}
    (hv : entries.get? name = some v) : v.NumbersFinite := by
  obtain ⟨e, he, rfl⟩ := Option.map_eq_some_iff.1 hv
  exact h e (List.mem_of_find?_eq_some he)

theorem NumbersFinite.getD (h : entries.NumbersFinite) (hother : other.NumbersFinite) :
    (entries.getD name other).NumbersFinite := by
  unfold Entries.getD
  cases hv : entries.get? name with
  | none => exact hother
  | some v => exact h.get? hv

theorem NumbersFinite.get (h : entries.NumbersFinite) : (entries.get name).NumbersFinite :=
  h.getD .null

theorem NumbersFinite.pick (h : entries.NumbersFinite) (hother : other.NumbersFinite) :
    (entries.pick name spelling other).NumbersFinite := by
  unfold Entries.pick
  cases hv : entries.get? name with
  | some v => exact h.get? hv
  | none =>
    cases hv' : entries.get? spelling with
    | some v => exact h.get? hv'
    | none => exact hother

end Entries

/-! ## fields -/

namespace Spec.Field

variable {range : Range} {place : Place} {v w : Value}

theorem mapping_finite {entries : Entries} (hv : v.NumbersFinite)
    (h : mapping place v = .ok entries) : entries.NumbersFinite := by
  have hopened := hv.opened
  unfold mapping at h
  split at h
  · next heq =>
    obtain rfl := Except.ok.inj h
    rwa [heq, Value.numbersFinite_map] at hopened
  · cases h

theorem mappingOrNothing_finite {entries : Entries} (hv : v.NumbersFinite)
    (h : mappingOrNothing place v = .ok entries) : entries.NumbersFinite := by
  unfold mappingOrNothing at h
  split at h
  · exact mapping_finite hv h
  · obtain rfl := Except.ok.inj h
    exact List.forall_mem_nil _

theorem listOrNothing_finite {items : List Value} (hv : v.NumbersFinite)
    (h : listOrNothing place v = .ok items) : ∀ item ∈ items, item.NumbersFinite := by
  have hopened := hv.opened
  unfold listOrNothing list at h
  split at h
  · split at h
    · next heq =>
      obtain rfl := Except.ok.inj h
      rwa [heq, Value.numbersFinite_list] at hopened
    · cases h
  · obtain rfl := Except.ok.inj h
    exact List.forall_mem_nil _

theorem number_finite (hv : v.NumbersFinite) (h : number range place v = .ok w) :
    w.isFinite = true := by
  obtain ⟨rfl, -⟩ := number_ok_iff.1 h
  exact hv.isFinite

theorem optionalNumber_finite (hv : v.NumbersFinite) (h : optionalNumber range place v = .ok w) :
    w.isFinite = true := by
  unfold optionalNumber at h
  split at h
  · obtain rfl := Except.ok.inj h
    rfl
  · exact number_finite hv h

theorem integer_finite (hv : v.NumbersFinite) (h : integer range place v = .ok w) :
    w.isFinite = true := by
  obtain ⟨u, hu, h⟩ := bind_eq_ok.1 h
  split at h
  · obtain ⟨i, -, h⟩ := bind_eq_ok.1 h
    split at h
    · obtain rfl := pure_eq_ok.1 h
      rfl
    · exact absurd h throw_ne_ok
  · obtain rfl := pure_eq_ok.1 h
    exact number_finite hv hu

theorem rate_finite (hv : v.NumbersFinite) (h : rate place v = .ok w) : w.isFinite = true := by
  unfold rate at h
  split at h
  · obtain ⟨q, -, h⟩ := bind_eq_ok.1 h
    split at h
    · exact absurd h throw_ne_ok
    · obtain rfl := pure_eq_ok.1 h
      rfl
  · exact number_finite hv h

theorem coordinate_finite {keywords : List String} (hv : v.NumbersFinite)
    (h : coordinate keywords place v = .ok w) : w.isFinite = true := by
  unfold coordinate at h
  split at h
  · obtain ⟨s, -, h⟩ := bind_eq_ok.1 h
    obtain rfl := pure_eq_ok.1 h
    rfl
  · exact number_finite hv h

theorem dimension_finite (hv : v.NumbersFinite) (h : dimension place v = .ok w) :
    w.isFinite = true := by
  unfold dimension at h
  split at h
  · obtain rfl := Except.ok.inj h
    rfl
  · exact number_finite hv h

theorem timing_finite {entries : Entries} {start duration : Value}
    (hentries : entries.NumbersFinite) (h : timing place entries = .ok (start, duration)) :
    start.isFinite = true ∧ duration.isFinite = true := by
  obtain ⟨u, hstart, h⟩ := bind_eq_ok.1 h
  obtain ⟨w, hduration, h⟩ := bind_eq_ok.1 h
  obtain ⟨rfl, rfl⟩ := Prod.mk.inj (pure_eq_ok.1 h)
  exact ⟨number_finite (hentries.getD (.int 0)) hstart,
    optionalNumber_finite hentries.get hduration⟩

/-- What holds of every item that is read from finite numbers, holds of all items of a list. -/
theorem items_finite {α : Type} {P : α → Prop} {read : Place → Value → Except Fault α}
    (hread : ∀ {place v a}, Value.NumbersFinite v → read place v = .ok a → P a) {i : Nat}
    {vs : List Value} {as : List α} (hvs : ∀ v ∈ vs, v.NumbersFinite)
    (h : items read place i vs = .ok as) : ∀ a ∈ as, P a := by
  induction vs generalizing i as with
  | nil =>
    obtain rfl := Except.ok.inj h
    exact List.forall_mem_nil P
  | cons v rest ih =>
    obtain ⟨a, ha, h⟩ := bind_eq_ok.1 h
    obtain ⟨more, hmore, h⟩ := bind_eq_ok.1 h
    obtain rfl := pure_eq_ok.1 h
    obtain ⟨hv, hrest⟩ := List.forall_mem_cons.1 hvs
    exact List.forall_mem_cons.2 ⟨hread hv ha, ih hrest hmore⟩

end Spec.Field

/-! ## the values of records -/

/-- The values of a part of a source. -/
def Trim.values (t : Trim) : List Value := [t.start, t.stop]

/-- The values of a position. -/
def Position.values (p : Position) : List Value := [p.x, p.y]

/-- The values of a size. -/
def Size.values (s : Size) : List Value := [s.width, s.height]

/-- The values of an animation. -/
def Animation.values (a : Animation) : List Value := [a.enterDuration, a.exitDuration]

/-- The values of a background. -/
def Background.values : Background → List Value
  | .video _ trim => trim.values
  | _ => []

/-- The values of the style of a text. -/
def TextStyle.values (s : TextStyle) : List Value := [s.size, s.outline, s.shadow, s.lineSpacing]

/-- The values of a layer. -/
def Layer.values : Layer → List Value
  | .text l =>
    l.start :: l.duration :: (l.style.values ++ l.position.values ++ l.animation.values)
  | .image l =>
    l.opacity :: l.start :: l.duration :: (l.position.values ++ l.size.values ++ l.animation.values)
  | .video l =>
    l.opacity :: l.start :: l.duration :: (l.trim.values ++ l.position.values ++ l.size.values)
  | .shape l =>
    l.opacity :: l.borderRadius :: l.start :: l.duration :: (l.size.values ++ l.position.values)
  | .other _ _ => []

/-- The values of a scene. -/
def Scene.values (s : Scene) : List Value :=
  s.duration :: s.transition.duration :: (s.background.values ++ s.layers.flatMap Layer.values)

/-- The values of the section on encoding. -/
def Output.values (o : Output) : List Value := [o.width, o.height, o.fps, o.crf, o.sampleRate]

/-- The values of a track. -/
def AudioTrack.values (t : AudioTrack) : List Value :=
  [t.start, t.duration, t.volume, t.fadeIn, t.fadeOut] ++ t.trim.values

/-- The values of the section on sound. -/
def Audio.values (a : Audio) : List Value := a.master.volume :: a.tracks.flatMap AudioTrack.values

/-- The values of the style of subtitles. -/
def SubtitleStyle.values (s : SubtitleStyle) : List Value :=
  [s.size, s.outline, s.shadow, s.marginV]

/-- The values of a subtitle. -/
def Subtitle.values (s : Subtitle) : List Value := s.start :: s.stop :: s.style.values

/-- The values of what a thumbnail is made from. -/
def ThumbnailSource.values : ThumbnailSource → List Value
  | .frame _ timestamp => [timestamp]
  | .custom background => background.values

/-- The values of a thumbnail. -/
def Thumbnail.values (t : Thumbnail) : List Value :=
  t.width :: t.height :: (t.source.values ++ t.overlays.flatMap Layer.values)

/-- All values of a specification. -/
def Specification.values (s : Specification) : List Value :=
  s.scenes.flatMap Scene.values ++ s.output.values ++ s.audio.values
    ++ s.subtitles.flatMap Subtitle.values ++ s.thumbnail.values

/-! ## reading -/

section Reading

variable {place : Place} {v : Value}

theorem Output.finite_of_ofValue {o : Output} (hv : v.NumbersFinite) (h : ofValue v = .ok o) :
    ∀ x ∈ o.values, x.isFinite = true := by
  obtain ⟨entries, hmapping, h⟩ := bind_eq_ok.1 h
  have hentries := mappingOrNothing_finite hv hmapping
  obtain ⟨width, hwidth, h⟩ := bind_eq_ok.1 h
  obtain ⟨height, hheight, h⟩ := bind_eq_ok.1 h
  obtain ⟨fps, hfps, h⟩ := bind_eq_ok.1 h
  obtain ⟨format, -, h⟩ := bind_eq_ok.1 h
  obtain ⟨codec, -, h⟩ := bind_eq_ok.1 h
  obtain ⟨crf, hcrf, h⟩ := bind_eq_ok.1 h
  obtain ⟨preset, -, h⟩ := bind_eq_ok.1 h
  obtain ⟨sampleRate, hsampleRate, h⟩ := bind_eq_ok.1 h
  obtain rfl := pure_eq_ok.1 h
  simp [Output.values, integer_finite (hentries.getD (.int _)) hwidth,
    integer_finite (hentries.getD (.int _)) hheight, rate_finite (hentries.getD (.int _)) hfps,
    integer_finite (hentries.getD (.int _)) hcrf,
    integer_finite (hentries.pick (.int _)) hsampleRate]

theorem Trim.finite_of_ofValue {t : Trim} (hv : v.NumbersFinite) (h : ofValue place v = .ok t) :
    ∀ x ∈ t.values, x.isFinite = true := by
  unfold ofValue at h
  split at h
  · obtain rfl := pure_eq_ok.1 h
    decide
  · obtain ⟨entries, hmapping, h⟩ := bind_eq_ok.1 h
    have hentries := mapping_finite hv hmapping
    obtain ⟨start, hstart, h⟩ := bind_eq_ok.1 h
    obtain ⟨stop, hstop, h⟩ := bind_eq_ok.1 h
    obtain rfl := pure_eq_ok.1 h
    simp [Trim.values, number_finite (hentries.getD (.int 0)) hstart,
      optionalNumber_finite hentries.get hstop]

theorem Position.finite_of_ofValue {p : Position} (hv : v.NumbersFinite)
    (h : ofValue place v = .ok p) : ∀ x ∈ p.values, x.isFinite = true := by
  unfold ofValue at h
  split at h
  · obtain rfl := pure_eq_ok.1 h
    decide
  · obtain ⟨entries, hmapping, h⟩ := bind_eq_ok.1 h
    have hentries := mapping_finite hv hmapping
    obtain ⟨x, hx, h⟩ := bind_eq_ok.1 h
    obtain ⟨y, hy, h⟩ := bind_eq_ok.1 h
    obtain rfl := pure_eq_ok.1 h
    simp [Position.values, coordinate_finite (hentries.getD (.text _)) hx,
      coordinate_finite (hentries.getD (.text _)) hy]

theorem Size.finite_of_ofValue {s : Size} (hv : v.NumbersFinite) (h : ofValue place v = .ok s) :
    ∀ x ∈ s.values, x.isFinite = true := by
  unfold ofValue at h
  split at h
  · obtain rfl := pure_eq_ok.1 h
    decide
  · obtain ⟨entries, hmapping, h⟩ := bind_eq_ok.1 h
    have hentries := mapping_finite hv hmapping
    obtain ⟨width, hwidth, h⟩ := bind_eq_ok.1 h
    obtain ⟨height, hheight, h⟩ := bind_eq_ok.1 h
    obtain rfl := pure_eq_ok.1 h
    simp [Size.values, dimension_finite (hentries.getD (.text _)) hwidth,
      dimension_finite (hentries.getD (.text _)) hheight]

/-- The default of the durations of animations and transitions. -/
theorem numbersFinite_half : Value.NumbersFinite 0.5 := .float (by decide)

theorem Animation.finite_of_ofValue {a : Animation} (hv : v.NumbersFinite)
    (h : ofValue place v = .ok a) : ∀ x ∈ a.values, x.isFinite = true := by
  unfold ofValue at h
  split at h
  · obtain rfl := pure_eq_ok.1 h
    simp [Animation.values, numbersFinite_half.isFinite]
  · obtain ⟨entries, hmapping, h⟩ := bind_eq_ok.1 h
    have hentries := mapping_finite hv hmapping
    obtain ⟨enter, -, h⟩ := bind_eq_ok.1 h
    obtain ⟨exit, -, h⟩ := bind_eq_ok.1 h
    obtain ⟨enterDuration, henter, h⟩ := bind_eq_ok.1 h
    obtain ⟨exitDuration, hexit, h⟩ := bind_eq_ok.1 h
    obtain rfl := pure_eq_ok.1 h
    simp [Animation.values, number_finite (hentries.pick numbersFinite_half) henter,
      number_finite (hentries.pick numbersFinite_half) hexit]

theorem Transition.finite_of_ofValue {t : Transition} (hv : v.NumbersFinite)
    (h : ofValue place v = .ok t) : t.duration.isFinite = true := by
  unfold ofValue at h
  split at h
  · obtain rfl := pure_eq_ok.1 h
    exact numbersFinite_half.isFinite
  · obtain ⟨entries, hmapping, h⟩ := bind_eq_ok.1 h
    have hentries := mapping_finite hv hmapping
    obtain ⟨type, -, h⟩ := bind_eq_ok.1 h
    obtain ⟨duration, hduration, h⟩ := bind_eq_ok.1 h
    obtain rfl := pure_eq_ok.1 h
    exact number_finite (hentries.getD numbersFinite_half) hduration

theorem Background.finite_of_ofValue {b : Background} (hv : v.NumbersFinite)
    (h : ofValue place v = .ok b) : ∀ x ∈ b.values, x.isFinite = true := by
  unfold ofValue at h
  split at h
  · obtain rfl := pure_eq_ok.1 h
    exact List.forall_mem_nil _
  · obtain ⟨entries, hmapping, h⟩ := bind_eq_ok.1 h
    have hentries := mapping_finite hv hmapping
    split at h
    · obtain ⟨value, -, h⟩ := bind_eq_ok.1 h
      obtain rfl := pure_eq_ok.1 h
      exact List.forall_mem_nil _
    · obtain ⟨src, -, h⟩ := bind_eq_ok.1 h
      obtain rfl := pure_eq_ok.1 h
      exact List.forall_mem_nil _
    · obtain ⟨src, -, h⟩ := bind_eq_ok.1 h
      obtain ⟨trim, htrim, h⟩ := bind_eq_ok.1 h
      obtain rfl := pure_eq_ok.1 h
      exact Trim.finite_of_ofValue hentries.get htrim
    · split at h
      · obtain ⟨colors, -, h⟩ := bind_eq_ok.1 h
        obtain ⟨direction, -, h⟩ := bind_eq_ok.1 h
        obtain rfl := pure_eq_ok.1 h
        exact List.forall_mem_nil _
      · exact absurd h throw_ne_ok
    · obtain ⟨kind, -, h⟩ := bind_eq_ok.1 h
      exact absurd h throw_ne_ok

/-- The default of the line spacing of a text. -/
theorem numbersFinite_lineSpacing : Value.NumbersFinite 1.2 := .float (by decide)

theorem TextStyle.finite_of_ofValue {s : TextStyle} (hv : v.NumbersFinite)
    (h : ofValue place v = .ok s) : ∀ x ∈ s.values, x.isFinite = true := by
  unfold ofValue at h
  split at h
  · obtain rfl := pure_eq_ok.1 h
    have hspacing := numbersFinite_lineSpacing.isFinite
    simp only [TextStyle.values, List.forall_mem_cons]
    exact ⟨rfl, rfl, rfl, hspacing, List.forall_mem_nil _⟩
  · obtain ⟨entries, hmapping, h⟩ := bind_eq_ok.1 h
    have hentries := mapping_finite hv hmapping
    obtain ⟨font, -, h⟩ := bind_eq_ok.1 h
    obtain ⟨size, hsize, h⟩ := bind_eq_ok.1 h
    obtain ⟨color, -, h⟩ := bind_eq_ok.1 h
    obtain ⟨outline, houtline, h⟩ := bind_eq_ok.1 h
    obtain ⟨outlineColor, -, h⟩ := bind_eq_ok.1 h
    obtain ⟨shadow, hshadow, h⟩ := bind_eq_ok.1 h
    obtain ⟨bold, -, h⟩ := bind_eq_ok.1 h
    obtain ⟨italic, -, h⟩ := bind_eq_ok.1 h
    obtain ⟨lineSpacing, hlineSpacing, h⟩ := bind_eq_ok.1 h
    obtain ⟨align, -, h⟩ := bind_eq_ok.1 h
    obtain rfl := pure_eq_ok.1 h
    simp [TextStyle.values, number_finite (hentries.getD (.int _)) hsize,
      number_finite (hentries.getD (.int _)) houtline,
      number_finite (hentries.getD (.int _)) hshadow,
      number_finite (hentries.pick numbersFinite_lineSpacing) hlineSpacing]

namespace Layer

variable {entries : Entries} {start duration : Value}

theorem finite_text {l : TextLayer} (hentries : entries.NumbersFinite)
    (htimed : start.isFinite = true ∧ duration.isFinite = true)
    (h : TextLayer.ofEntries place entries start duration = .ok l) :
    ∀ x ∈ (Layer.text l).values, x.isFinite = true := by
  obtain ⟨content, -, h⟩ := bind_eq_ok.1 h
  obtain ⟨style, hstyle, h⟩ := bind_eq_ok.1 h
  obtain ⟨position, hposition, h⟩ := bind_eq_ok.1 h
  obtain ⟨animation, hanimation, h⟩ := bind_eq_ok.1 h
  obtain rfl := pure_eq_ok.1 h
  simp only [Layer.values, List.forall_mem_cons, List.forall_mem_append]
  exact ⟨htimed.1, htimed.2, ⟨TextStyle.finite_of_ofValue hentries.get hstyle,
    Position.finite_of_ofValue hentries.get hposition⟩,
    Animation.finite_of_ofValue hentries.get hanimation⟩

theorem finite_image {l : ImageLayer} (hentries : entries.NumbersFinite)
    (htimed : start.isFinite = true ∧ duration.isFinite = true)
    (h : ImageLayer.ofEntries place entries start duration = .ok l) :
    ∀ x ∈ (Layer.image l).values, x.isFinite = true := by
  obtain ⟨src, -, h⟩ := bind_eq_ok.1 h
  obtain ⟨position, hposition, h⟩ := bind_eq_ok.1 h
  obtain ⟨size, hsize, h⟩ := bind_eq_ok.1 h
  obtain ⟨opacity, hopacity, h⟩ := bind_eq_ok.1 h
  obtain ⟨animation, hanimation, h⟩ := bind_eq_ok.1 h
  obtain rfl := pure_eq_ok.1 h
  simp only [Layer.values, List.forall_mem_cons, List.forall_mem_append]
  exact ⟨number_finite (hentries.getD (.int _)) hopacity, htimed.1, htimed.2,
    ⟨Position.finite_of_ofValue hentries.get hposition, Size.finite_of_ofValue hentries.get hsize⟩,
    Animation.finite_of_ofValue hentries.get hanimation⟩

theorem finite_video {l : VideoLayer} (hentries : entries.NumbersFinite)
    (htimed : start.isFinite = true ∧ duration.isFinite = true)
    (h : VideoLayer.ofEntries place entries start duration = .ok l) :
    ∀ x ∈ (Layer.video l).values, x.isFinite = true := by
  obtain ⟨src, -, h⟩ := bind_eq_ok.1 h
  obtain ⟨trim, htrim, h⟩ := bind_eq_ok.1 h
  obtain ⟨position, hposition, h⟩ := bind_eq_ok.1 h
  obtain ⟨size, hsize, h⟩ := bind_eq_ok.1 h
  obtain ⟨opacity, hopacity, h⟩ := bind_eq_ok.1 h
  obtain ⟨mute, -, h⟩ := bind_eq_ok.1 h
  obtain rfl := pure_eq_ok.1 h
  simp only [Layer.values, List.forall_mem_cons, List.forall_mem_append]
  exact ⟨number_finite (hentries.getD (.int _)) hopacity, htimed.1, htimed.2,
    ⟨Trim.finite_of_ofValue hentries.get htrim, Position.finite_of_ofValue hentries.get hposition⟩,
    Size.finite_of_ofValue hentries.get hsize⟩

theorem finite_shape {l : ShapeLayer} (hentries : entries.NumbersFinite)
    (htimed : start.isFinite = true ∧ duration.isFinite = true)
    (h : ShapeLayer.ofEntries place entries start duration = .ok l) :
    ∀ x ∈ (Layer.shape l).values, x.isFinite = true := by
  unfold ShapeLayer.ofEntries at h
  split at h
  · exact absurd h throw_ne_ok
  · obtain ⟨shape, -, h⟩ := bind_eq_ok.1 h
    obtain ⟨size, hsize, h⟩ := bind_eq_ok.1 h
    obtain ⟨position, hposition, h⟩ := bind_eq_ok.1 h
    obtain ⟨color, -, h⟩ := bind_eq_ok.1 h
    obtain ⟨opacity, hopacity, h⟩ := bind_eq_ok.1 h
    obtain ⟨borderRadius, hborderRadius, h⟩ := bind_eq_ok.1 h
    obtain rfl := pure_eq_ok.1 h
    simp only [Layer.values, List.forall_mem_cons, List.forall_mem_append]
    exact ⟨number_finite (hentries.getD numbersFinite_half) hopacity,
      number_finite (hentries.pick (.int _)) hborderRadius, htimed.1, htimed.2,
      Size.finite_of_ofValue hentries.get hsize, Position.finite_of_ofValue hentries.get hposition⟩

theorem finite_of_ofValue {l : Layer} (hv : v.NumbersFinite) (h : ofValue place v = .ok l) :
    ∀ x ∈ l.values, x.isFinite = true := by
  obtain ⟨entries, hmapping, h⟩ := bind_eq_ok.1 h
  have hentries := mapping_finite hv hmapping
  obtain ⟨⟨start, duration⟩, htiming, h⟩ := bind_eq_ok.1 h
  have htimed := timing_finite hentries htiming
  dsimp only at h
  split at h
  · obtain ⟨l, hl, h⟩ := bind_eq_ok.1 h
    obtain rfl := pure_eq_ok.1 h
    exact finite_text hentries htimed hl
  · obtain ⟨l, hl, h⟩ := bind_eq_ok.1 h
    obtain rfl := pure_eq_ok.1 h
    exact finite_image hentries htimed hl
  · obtain ⟨l, hl, h⟩ := bind_eq_ok.1 h
    obtain rfl := pure_eq_ok.1 h
    exact finite_video hentries htimed hl
  · obtain ⟨l, hl, h⟩ := bind_eq_ok.1 h
    obtain rfl := pure_eq_ok.1 h
    exact finite_shape hentries htimed hl
  · obtain ⟨kind, -, h⟩ := bind_eq_ok.1 h
    exact absurd h throw_ne_ok

end Layer

namespace Scene

theorem finite_of_ofValue {s : Scene} (hv : v.NumbersFinite) (h : ofValue place v = .ok s) :
    ∀ x ∈ s.values, x.isFinite = true := by
  obtain ⟨entries, hmapping, h⟩ := bind_eq_ok.1 h
  have hentries := mapping_finite hv hmapping
  obtain ⟨id, -, h⟩ := bind_eq_ok.1 h
  obtain ⟨duration, hduration, h⟩ := bind_eq_ok.1 h
  obtain ⟨background, hbackground, h⟩ := bind_eq_ok.1 h
  obtain ⟨vs, hvs, h⟩ := bind_eq_ok.1 h
  obtain ⟨layers, hlayers, h⟩ := bind_eq_ok.1 h
  obtain ⟨transition, htransition, h⟩ := bind_eq_ok.1 h
  obtain rfl := pure_eq_ok.1 h
  simp only [Scene.values, List.forall_mem_cons, List.forall_mem_append, List.forall_mem_flatMap]
  exact ⟨number_finite hentries.get hduration,
    Transition.finite_of_ofValue hentries.get htransition,
    Background.finite_of_ofValue hentries.get hbackground,
    items_finite Layer.finite_of_ofValue (listOrNothing_finite hentries.get hvs) hlayers⟩

theorem finite_of_readAll {before : List String} {i : Nat} {vs : List Value}
    {scenes : List Scene} (hvs : ∀ v ∈ vs, v.NumbersFinite)
    (h : readAll place before i vs = .ok scenes) :
    ∀ scene ∈ scenes, ∀ x ∈ scene.values, x.isFinite = true := by
  induction vs generalizing before i scenes with
  | nil =>
    obtain rfl := Except.ok.inj h
    exact List.forall_mem_nil _
  | cons v rest ih =>
    obtain ⟨scene, hscene, h⟩ := bind_eq_ok.1 h
    dsimp only at h
    split at h
    · exact absurd h throw_ne_ok
    · obtain ⟨more, hmore, h⟩ := bind_eq_ok.1 h
      obtain rfl := pure_eq_ok.1 h
      obtain ⟨hv, hrest⟩ := List.forall_mem_cons.1 hvs
      exact List.forall_mem_cons.2 ⟨finite_of_ofValue hv hscene, ih hrest hmore⟩

end Scene

theorem AudioTrack.finite_of_ofValue {t : AudioTrack} (hv : v.NumbersFinite)
    (h : ofValue place v = .ok t) : ∀ x ∈ t.values, x.isFinite = true := by
  obtain ⟨entries, hmapping, h⟩ := bind_eq_ok.1 h
  have hentries := mapping_finite hv hmapping
  obtain ⟨⟨start, duration⟩, htiming, h⟩ := bind_eq_ok.1 h
  have htimed := timing_finite hentries htiming
  dsimp only at h
  obtain ⟨id, -, h⟩ := bind_eq_ok.1 h
  obtain ⟨src, -, h⟩ := bind_eq_ok.1 h
  obtain ⟨category, -, h⟩ := bind_eq_ok.1 h
  obtain ⟨volume, hvolume, h⟩ := bind_eq_ok.1 h
  obtain ⟨fadeIn, hfadeIn, h⟩ := bind_eq_ok.1 h
  obtain ⟨fadeOut, hfadeOut, h⟩ := bind_eq_ok.1 h
  obtain ⟨loop, -, h⟩ := bind_eq_ok.1 h
  obtain ⟨trim, htrim, h⟩ := bind_eq_ok.1 h
  obtain rfl := pure_eq_ok.1 h
  simp only [AudioTrack.values, List.forall_mem_cons, List.forall_mem_append]
  exact ⟨⟨htimed.1, htimed.2, number_finite (hentries.getD (.int _)) hvolume,
    number_finite (hentries.pick (.int _)) hfadeIn, number_finite (hentries.pick (.int _)) hfadeOut,
    List.forall_mem_nil _⟩, Trim.finite_of_ofValue hentries.get htrim⟩

theorem Audio.finite_of_ofValue {a : Audio} (hv : v.NumbersFinite) (h : ofValue v = .ok a) :
    ∀ x ∈ a.values, x.isFinite = true := by
  obtain ⟨entries, hmapping, h⟩ := bind_eq_ok.1 h
  have hentries := mappingOrNothing_finite hv hmapping
  obtain ⟨vs, hvs, h⟩ := bind_eq_ok.1 h
  obtain ⟨tracks, htracks, h⟩ := bind_eq_ok.1 h
  obtain ⟨master, hmaster, h⟩ := bind_eq_ok.1 h
  obtain ⟨volume, hvolume, h⟩ := bind_eq_ok.1 h
  obtain ⟨normalize, -, h⟩ := bind_eq_ok.1 h
  obtain rfl := pure_eq_ok.1 h
  have hmaster := mappingOrNothing_finite hentries.get hmaster
  simp only [Audio.values, List.forall_mem_cons, List.forall_mem_flatMap]
  exact ⟨number_finite (hmaster.getD (.int _)) hvolume,
    items_finite AudioTrack.finite_of_ofValue (listOrNothing_finite hentries.get hvs) htracks⟩

theorem SubtitleStyle.finite_of_ofValue {s : SubtitleStyle} (hv : v.NumbersFinite)
    (h : ofValue place v = .ok s) : ∀ x ∈ s.values, x.isFinite = true := by
  unfold ofValue at h
  split at h
  · obtain rfl := pure_eq_ok.1 h
    decide
  · obtain ⟨entries, hmapping, h⟩ := bind_eq_ok.1 h
    have hentries := mapping_finite hv hmapping
    obtain ⟨font, -, h⟩ := bind_eq_ok.1 h
    obtain ⟨size, hsize, h⟩ := bind_eq_ok.1 h
    obtain ⟨color, -, h⟩ := bind_eq_ok.1 h
    obtain ⟨outline, houtline, h⟩ := bind_eq_ok.1 h
    obtain ⟨outlineColor, -, h⟩ := bind_eq_ok.1 h
    obtain ⟨shadow, hshadow, h⟩ := bind_eq_ok.1 h
    obtain ⟨position, -, h⟩ := bind_eq_ok.1 h
    obtain ⟨marginV, hmarginV, h⟩ := bind_eq_ok.1 h
    obtain rfl := pure_eq_ok.1 h
    simp [SubtitleStyle.values, number_finite (hentries.getD (.int _)) hsize,
      number_finite (hentries.getD (.int _)) houtline,
      number_finite (hentries.getD (.int _)) hshadow,
      number_finite (hentries.pick (.int _)) hmarginV]

theorem Subtitle.finite_of_ofValue {s : Subtitle} (hv : v.NumbersFinite)
    (h : ofValue place v = .ok s) : ∀ x ∈ s.values, x.isFinite = true := by
  obtain ⟨entries, hmapping, h⟩ := bind_eq_ok.1 h
  have hentries := mapping_finite hv hmapping
  obtain ⟨start, hstart, h⟩ := bind_eq_ok.1 h
  obtain ⟨stop, hstop, h⟩ := bind_eq_ok.1 h
  dsimp only at h
  split at h
  · exact absurd h throw_ne_ok
  · obtain ⟨text, -, h⟩ := bind_eq_ok.1 h
    obtain ⟨style, hstyle, h⟩ := bind_eq_ok.1 h
    obtain rfl := pure_eq_ok.1 h
    simp only [Subtitle.values, List.forall_mem_cons]
    exact ⟨number_finite hentries.get hstart, number_finite hentries.get hstop,
      SubtitleStyle.finite_of_ofValue hentries.get hstyle⟩

theorem ThumbnailSource.finite_of_ofValue {s : ThumbnailSource} (hv : v.NumbersFinite)
    (h : ofValue place v = .ok s) : ∀ x ∈ s.values, x.isFinite = true := by
  unfold ofValue at h
  split at h
  · obtain rfl := pure_eq_ok.1 h
    decide
  · obtain ⟨entries, hmapping, h⟩ := bind_eq_ok.1 h
    have hentries := mapping_finite hv hmapping
    split at h
    · split at h
      · obtain ⟨timestamp, htimestamp, h⟩ := bind_eq_ok.1 h
        obtain rfl := pure_eq_ok.1 h
        simp [ThumbnailSource.values, number_finite (hentries.getD (.int _)) htimestamp]
      · exact absurd h throw_ne_ok
    · obtain ⟨background, hbackground, h⟩ := bind_eq_ok.1 h
      have hfinite := Background.finite_of_ofValue hentries.get hbackground
      cases background with
      | color value =>
        obtain rfl := pure_eq_ok.1 h
        exact hfinite
      | image src =>
        obtain rfl := pure_eq_ok.1 h
        exact hfinite
      | _ => exact absurd h throw_ne_ok
    · obtain ⟨kind, -, h⟩ := bind_eq_ok.1 h
      exact absurd h throw_ne_ok

theorem Thumbnail.finite_of_ofValue {t : Thumbnail} (hv : v.NumbersFinite) (h : ofValue v = .ok t) :
    ∀ x ∈ t.values, x.isFinite = true := by
  obtain ⟨entries, hmapping, h⟩ := bind_eq_ok.1 h
  have hentries := mappingOrNothing_finite hv hmapping
  obtain ⟨source, hsource, h⟩ := bind_eq_ok.1 h
  obtain ⟨vs, hvs, h⟩ := bind_eq_ok.1 h
  obtain ⟨overlays, hoverlays, h⟩ := bind_eq_ok.1 h
  obtain ⟨enabled, -, h⟩ := bind_eq_ok.1 h
  obtain ⟨width, hwidth, h⟩ := bind_eq_ok.1 h
  obtain ⟨height, hheight, h⟩ := bind_eq_ok.1 h
  obtain rfl := pure_eq_ok.1 h
  simp only [Thumbnail.values, List.forall_mem_cons, List.forall_mem_append,
    List.forall_mem_flatMap]
  exact ⟨integer_finite (hentries.getD (.int _)) hwidth,
    integer_finite (hentries.getD (.int _)) hheight,
    ThumbnailSource.finite_of_ofValue hentries.get hsource,
    items_finite Layer.finite_of_ofValue (listOrNothing_finite hentries.get hvs) hoverlays⟩

namespace Specification

theorem finite_of_scenesOf {entries : Entries} {scenes : List Scene}
    (hentries : entries.NumbersFinite) (h : scenesOf entries = .ok scenes) :
    ∀ scene ∈ scenes, ∀ x ∈ scene.values, x.isFinite = true := by
  have hopened : (entries.get "scenes").opened.NumbersFinite := hentries.get.opened
  unfold scenesOf at h
  split at h
  · next heq =>
    rw [heq, Value.numbersFinite_list] at hopened
    exact Scene.finite_of_readAll hopened h
  · cases h

/-- A specification that is read from data with finite numbers keeps finite numbers. -/
theorem finite_of_ofValue {spec : Specification} (hv : v.NumbersFinite)
    (h : ofValue v = .ok spec) : ∀ x ∈ spec.values, x.isFinite = true := by
  have hopened := hv.opened
  unfold ofValue at h
  split at h
  · next entries heq =>
    rw [heq, Value.numbersFinite_map] at hopened
    have hentries : Entries.NumbersFinite entries := hopened
    obtain ⟨scenes, hscenes, h⟩ := bind_eq_ok.1 h
    obtain ⟨title, -, h⟩ := bind_eq_ok.1 h
    obtain ⟨output, houtput, h⟩ := bind_eq_ok.1 h
    obtain ⟨audio, haudio, h⟩ := bind_eq_ok.1 h
    obtain ⟨vs, hvs, h⟩ := bind_eq_ok.1 h
    obtain ⟨subtitles, hsubtitles, h⟩ := bind_eq_ok.1 h
    obtain ⟨thumbnail, hthumbnail, h⟩ := bind_eq_ok.1 h
    obtain ⟨version, -, h⟩ := bind_eq_ok.1 h
    obtain rfl := pure_eq_ok.1 h
    simp only [Specification.values, List.forall_mem_append, List.forall_mem_flatMap]
    exact ⟨⟨⟨⟨finite_of_scenesOf hentries hscenes, Output.finite_of_ofValue hentries.get houtput⟩,
      Audio.finite_of_ofValue hentries.get haudio⟩,
      items_finite Subtitle.finite_of_ofValue (listOrNothing_finite hentries.get hvs) hsubtitles⟩,
      Thumbnail.finite_of_ofValue hentries.get hthumbnail⟩
  · cases h

end Specification

end Reading

end Storyboard
